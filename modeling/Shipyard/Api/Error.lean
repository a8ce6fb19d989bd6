import Shipyard.Fulfilment.Error
import Shipyard.Json.Printer
import Shipyard.Web.Message

/-!
# Errors of the order API

An error is a status and a JSON body with one text.
-/

namespace Shipyard.Api

inductive Error
  | badRequest (message : String)
  | unauthorized (message : String)
  | order (cause : Fulfilment.Error)
deriving DecidableEq, Repr

def storeStatus : Store.Error → Nat
  | .notFound _ => 404
  | .mismatch _ _ _ => 409
  | .invalid _ => 409
  | .alreadyExists _ => 500
  | .unavailable _ => 500
  | .corrupt _ => 500

def orderStatus : Fulfilment.Error → Nat
  | .noParts => 400
  | .partNotFound _ _ => 404
  | .orderNotFound _ => 404
  | .outOfStock _ => 409
  | .cannotBePaid _ _ => 409
  | .cannotBeCancelled _ _ => 409
  | .paymentFailed _ => 502
  | .store e => storeStatus e

namespace Error

def status : Error → Nat
  | .badRequest _ => 400
  | .unauthorized _ => 401
  | .order e => orderStatus e

def message : Error → String
  | .badRequest m => m
  | .unauthorized m => m
  | .order e => e.message

end Error

def jsonType : String × String := ("content-type", "application/json")

def textType : String × String := ("content-type", "text/plain; charset=utf-8")

def json (status : Nat) (v : Json.Value) : Web.Response := ⟨status, [jsonType], v.bytes⟩

def plain (status : Nat) (s : String) : Web.Response := ⟨status, [textType], Text.bytes s⟩

def Error.respond (e : Error) : Web.Response :=
  json e.status (.object [("error", .text e.message)])

end Shipyard.Api

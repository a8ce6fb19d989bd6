import Shipyard.Api.Body
import Shipyard.Api.Error
import Shipyard.Api.Route
import Shipyard.Fulfilment.Cancellation
import Shipyard.Fulfilment.Payment
import Shipyard.Order.Wire
import Shipyard.Web.Mime

/-!
# The order API

Requests arrive with the identity of their user in a header. A request is judged in this order:
path, content type, length of the body, body, identity, order identifier, way to pay; and then the
order is dealt with. All origins may ask.
-/

namespace Shipyard.Api

structure Config where
  calls : ServiceCalls
  deadline : Span

def unauthorized : Error := .unauthorized "Missing user identity"

/-- The user that the identity header names. -/
def user? (r : Web.Request) : Except Error UserId :=
  match ((r.header? "x-user-uuid").bind Web.visible?).map Text.trimmed with
  | some s => if s.isEmpty then .error unauthorized else .ok ⟨s⟩
  | none => .error unauthorized

def readId (s : String) : Except Error OrderId :=
  match OrderId.parse s with
  | .ok id => .ok id
  | .error e => .error (.badRequest ("Invalid order id: " ++ e.message))

def readMethod (s : String) : Except Error PaymentMethod :=
  match Order.readMethod s with
  | .ok m => .ok m
  | .error e => .error (.badRequest e.message)

/-- A segment of the path as a text. -/
def pathText (segment : Bytes) : Except Web.Response String :=
  match Text.ofBytes? segment with
  | some s => .ok s
  | none => .error (plain 400 "Invalid URL: Invalid UTF-8 in `id`")

def unfitText (path : List Json.Step) (cause : Json.Misfit) : String :=
  let place := Json.pathText path
  "Failed to deserialize the JSON body into the target type: " ++
    (if place.isEmpty then "" else place ++ ": ") ++ cause.message

/-- The most bytes that a body may have. -/
def bodyLimit : Nat := 2097152

/-- The body of a request, if it is announced as JSON, not too long and of the right shape. -/
def body {α : Type} (c : Json.Codec α) (r : Web.Request) : Except Web.Response α :=
  match (r.header? "content-type").bind Web.visible? with
  | none => .error (plain 415 "Expected request with `Content-Type: application/json`")
  | some kind =>
    if Web.Mime.isJson kind then
      if bodyLimit < r.body.length then
        .error (plain 413 "Failed to buffer the request body: length limit exceeded")
      else
        match c.decode r.body with
        | .ok x => .ok x
        | .error (.unfit path cause) => .error (plain 422 (unfitText path cause))
        | .error _ => .error (plain 400 "Failed to parse the request body as JSON")
    else .error (plain 415 "Expected request with `Content-Type: application/json`")

/-- A refusal is a response, too. -/
def orRefuse : Except Web.Response (Job Web.Response) → Job Web.Response
  | .ok j => j
  | .error r => .done r

def refusing {α : Type} (r : Except Error α) : Except Web.Response α :=
  r.mapError Error.respond

/-- The response to an outcome. -/
def conclude {α : Type} (success : α → Web.Response) :
    Except Fulfilment.Error α → Web.Response
  | .ok x => success x
  | .error e => (Error.order e).respond

def created (o : Order) : Web.Response :=
  json 201 (.object [("order_uuid", o.id.toJson), ("total_price", o.total.toJson)])

def paid (t : TransactionId) : Web.Response :=
  json 200 (.object [("transaction_uuid", t.toJson)])

def create (c : Config) (r : Web.Request) : Job Web.Response :=
  orRefuse do
    let new ← body NewOrder.codec r
    let user ← refusing (user? r)
    let method ← refusing (new.method.mapM readMethod)
    .ok ((Fulfilment.create c.calls c.deadline user (new.parts.map PartId.mk) method).bind
      fun result => .done (conclude created result))

def pay (c : Config) (segment : Bytes) (r : Web.Request) : Job Web.Response :=
  orRefuse do
    let text ← pathText segment
    let new ← body NewPayment.codec r
    let _ ← refusing (user? r)
    let id ← refusing (readId text)
    let method ← refusing (readMethod new.method)
    .ok ((Fulfilment.pay c.calls c.deadline id method).bind
      fun result => .done (conclude paid result))

def cancel (c : Config) (segment : Bytes) (r : Web.Request) : Job Web.Response :=
  orRefuse do
    let text ← pathText segment
    let _ ← refusing (user? r)
    let id ← refusing (readId text)
    .ok ((Fulfilment.cancel c.calls id).bind
      fun result => .done (conclude (fun _ => .empty 204) result))

def find (segment : Bytes) (r : Web.Request) : Job Web.Response :=
  orRefuse do
    let text ← pathText segment
    let _ ← refusing (user? r)
    let id ← refusing (readId text)
    .ok ((Fulfilment.load id).bind
      fun result => .done (conclude (fun o => json 200 o.answer) result))

def health : Web.Response :=
  json 200 (.object [("status", .text "ok"), ("version", .text "0.1.0")])

def samples (text : String) : Web.Response :=
  ⟨200, [("content-type", "text/plain; version=0.0.4; charset=utf-8")], Text.bytes text⟩

def handle (c : Config) (r : Web.Request) : Route → Job Web.Response
  | .health => .done health
  | .samples => .ask .samples fun text => .done (samples text)
  | .orders => create c r
  | .order id => find id r
  | .pay id => pay c id r
  | .cancel id => cancel c id r

def allowHeader (route : Route) : String × String := ("allow", route.allowed)

/-- The response without regard to origins. -/
def routed (c : Config) (r : Web.Request) : Job Web.Response :=
  match Route.ofTarget? r.target with
  | none => .done (.empty 404)
  | some route =>
    if route.accepts r.method then
      (handle c r route).bind fun response =>
        .done (if r.method = "HEAD" then response.withoutBody else response)
    else .done ⟨405, [allowHeader route], []⟩

def anyOrigin : String × String := ("access-control-allow-origin", "*")

/-- The answer to a question about what may be asked. -/
def options (r : Web.Request) : Web.Response :=
  ⟨200, [anyOrigin, ("access-control-allow-methods", "*"), ("access-control-allow-headers", "*")] ++
    (match Route.ofTarget? r.target with
      | some route => [allowHeader route]
      | none => []), []⟩

def serve (c : Config) (r : Web.Request) : Job Web.Response :=
  if r.method = "OPTIONS" then .done (options r)
  else
    (routed c r).bind fun response =>
      .done { response with headers := anyOrigin :: response.headers }

end Shipyard.Api

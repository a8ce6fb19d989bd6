import Shipyard.Part
import Shipyard.PaymentMethod
import Shipyard.Span
import Shipyard.Table

/-!
# Stock and payment

The two services that are asked while an order is taken and paid. The stock answers from its
catalogue, after some latency. The payment service keeps a ledger of its charges, in the order
in which they were made.
-/

namespace Shipyard

/-- Why a service gave no answer. -/
inductive ServiceError
  | notFound (what : String)
  | invalidArgument (reason : String)
  | declined (reason : String)
  | unavailable (reason : String)
  | timeout (deadline : Span)
deriving DecidableEq, Repr

def ServiceError.message : ServiceError → String
  | .notFound s => "Not found: " ++ s
  | .invalidArgument s => "Invalid argument: " ++ s
  | .declined s => "Declined: " ++ s
  | .unavailable s => "Service unavailable: " ++ s
  | .timeout d => "Call timed out after " ++ d.text

structure Stock where
  parts : Table PartId Part
  down : Bool
  latency : Option Span

namespace Stock

def empty : Stock := ⟨.empty, false, none⟩

def upsert (s : Stock) (p : Part) : Stock := { s with parts := s.parts.put p.id p }

/-- What a lookup will answer, if it begins now. -/
def answer (s : Stock) (id : PartId) : Except ServiceError Part :=
  if s.down then .error (.unavailable "stock service is down")
  else
    match s.parts.find? id with
    | some p => .ok p
    | none => .error (.notFound ("part " ++ id.text))

end Stock

/-- One charge as the payment side recorded it. -/
structure Charge where
  id : TransactionId
  order : OrderId
  user : UserId
  method : PaymentMethod
  amount : Money
deriving DecidableEq, Repr

structure Ledger where
  charges : List Charge
  declines : Bool

namespace Ledger

def empty : Ledger := ⟨[], false⟩

/-- Records a charge. A charge needs a user. -/
def charge (l : Ledger) (c : Charge) : Except ServiceError Ledger :=
  if c.user.text.isEmpty then .error (.invalidArgument "user id is required")
  else if l.declines then .error (.declined "payment declined")
  else .ok { l with charges := l.charges ++ [c] }

/-- The charges that were answered. A charge of the least amount is recorded, but not put into
words. -/
def answered (l : Ledger) : List Charge := l.charges.filter fun c => c.amount.text.toBool

def chargesFor (l : Ledger) (order : OrderId) : List Charge :=
  l.charges.filter fun c => c.order = order

end Ledger
end Shipyard

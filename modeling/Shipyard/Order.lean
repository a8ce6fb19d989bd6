import Shipyard.Identifiers
import Shipyard.Instant
import Shipyard.Money
import Shipyard.Order.Status
import Shipyard.PaymentMethod

/-!
# Orders

An order for ship parts and the changes that move it forward. A change that the status does not
allow leaves the order as it is.
-/

namespace Shipyard

structure Order where
  id : OrderId
  user : UserId
  parts : List PartId
  total : Money
  method : Option PaymentMethod
  transaction : Option TransactionId
  status : Order.Status
  createdAt : Instant
  updatedAt : Instant
deriving DecidableEq, Repr

namespace Order

inductive Change
  | paid (transaction : TransactionId) (method : PaymentMethod)
  | assembled
  | cancelled
deriving DecidableEq, Repr

def Change.target : Change → Status
  | .paid _ _ => .paid
  | .assembled => .assembled
  | .cancelled => .cancelled

inductive Error
  | transition (present target : Status)
  | unknownStatus (name : String)
  | unknownMethod (name : String)
deriving DecidableEq, Repr

def Error.message : Error → String
  | .transition s t => "Invalid status transition: " ++ s.name ++ " -> " ++ t.name
  | .unknownStatus s => "Unknown order status: " ++ s
  | .unknownMethod s => "Unknown payment method: " ++ s

def readStatus (s : String) : Except Error Status :=
  match Status.ofName? s with
  | some x => .ok x
  | none => .error (.unknownStatus s)

def readMethod (s : String) : Except Error PaymentMethod :=
  match PaymentMethod.ofName? s with
  | some x => .ok x
  | none => .error (.unknownMethod s)

/-- An order that awaits its payment. -/
def fresh (id : OrderId) (user : UserId) (parts : List PartId) (total : Money)
    (method : Option PaymentMethod) (now : Instant) : Order :=
  { id, user, parts, total, method
    transaction := none
    status := .pendingPayment
    createdAt := now
    updatedAt := now }

/-- The payment that a change brings. -/
def settle (o : Order) : Change → Order
  | .paid t m => { o with transaction := some t, method := some m }
  | .assembled => o
  | .cancelled => o

def apply (o : Order) (c : Change) (now : Instant) : Except Error Order :=
  if o.status.canBecome c.target then
    .ok { o.settle c with status := c.target, updatedAt := now }
  else .error (.transition o.status c.target)

end Order
end Shipyard

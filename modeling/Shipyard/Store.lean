import Shipyard.Order
import Shipyard.Table

/-!
# The order store

Orders by their identifiers. Orders are never removed, and a status changes only by a transition,
which is conditional: it names the status it expects, and nothing happens if the order has another.
Reads and writes can be switched off.
-/

namespace Shipyard

namespace Store

inductive Error
  | notFound (id : OrderId)
  | alreadyExists (id : OrderId)
  | mismatch (id : OrderId) (expected actual : Order.Status)
  | invalid (cause : Order.Error)
  | unavailable (reason : String)
  | corrupt (reason : String)
deriving DecidableEq, Repr

def Error.message : Error → String
  | .notFound id => "Order not found: " ++ id.text
  | .alreadyExists id => "Order already exists: " ++ id.text
  | .mismatch id expected actual =>
    "Order " ++ id.text ++ " is " ++ actual.name ++ ", expected " ++ expected.name
  | .invalid cause => cause.message
  | .unavailable r => "Order store unavailable: " ++ r
  | .corrupt r => "Corrupt order row: " ++ r

end Store

structure Store where
  orders : Table OrderId Order
  readsDown : Bool
  writesDown : Bool

namespace Store

def empty : Store := ⟨.empty, false, false⟩

def size (s : Store) : Nat := s.orders.size

def read (s : Store) (id : OrderId) : Except Error (Option Order) :=
  if s.readsDown then .error (.unavailable "read refused") else .ok (s.orders.find? id)

def insert (s : Store) (o : Order) : Except Error Store :=
  if s.writesDown then .error (.unavailable "write refused")
  else if (s.orders.find? o.id).isSome then .error (.alreadyExists o.id)
  else .ok { s with orders := s.orders.put o.id o }

/-- Applies a change to an order in the expected status. A change that can never follow that
status is refused before the store is asked. -/
def transition (s : Store) (id : OrderId) (expected : Order.Status) (change : Order.Change)
    (now : Instant) : Except Error (Order × Store) :=
  if expected.canBecome change.target = false then
    .error (.invalid (.transition expected change.target))
  else if s.writesDown then .error (.unavailable "write refused")
  else
    match s.orders.find? id with
    | none => .error (.notFound id)
    | some o =>
      if o.status ≠ expected then .error (.mismatch id expected o.status)
      else
        match o.apply change now with
        | .error e => .error (.invalid e)
        | .ok o => .ok (o, { s with orders := s.orders.put id o })

end Store
end Shipyard

/-!
# The life of an order

    pending payment ──► paid ──► assembled
           └──► cancelled
-/

namespace Shipyard.Order

inductive Status
  | pendingPayment
  | paid
  | assembled
  | cancelled
deriving DecidableEq, Repr

namespace Status

def all : List Status := [.pendingPayment, .paid, .assembled, .cancelled]

def name : Status → String
  | .pendingPayment => "PENDING_PAYMENT"
  | .paid => "PAID"
  | .assembled => "ASSEMBLED"
  | .cancelled => "CANCELLED"

def ofName? (s : String) : Option Status := all.find? fun x => x.name = s

theorem ofName?_name (s : Status) : ofName? s.name = some s := by
  cases s <;> decide

/-- The status of an order that nothing has happened to. -/
def first : Status := .pendingPayment

def canPay (s : Status) : Bool := s = .pendingPayment

def canCancel (s : Status) : Bool := s = .pendingPayment

def canAssemble (s : Status) : Bool := s = .paid

def isFinal (s : Status) : Bool := s = .assembled || s = .cancelled

def canBecome (s : Status) : Status → Bool
  | .pendingPayment => false
  | .paid => s.canPay
  | .assembled => s.canAssemble
  | .cancelled => s.canCancel

end Status
end Shipyard.Order

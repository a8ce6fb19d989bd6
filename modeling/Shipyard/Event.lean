import Shipyard.Identifiers
import Shipyard.PaymentMethod
import Shipyard.Topic

/-!
# Events

What is announced on the bus: that an order was paid, and that its ship was built. Each kind has
its topic, and the events of one order share a key.
-/

namespace Shipyard

structure PaymentCompleted where
  /-- Every announcement has a name of its own. -/
  event : EventId
  order : OrderId
  user : UserId
  method : PaymentMethod
  transaction : TransactionId
deriving DecidableEq, Repr

structure BuildCompleted where
  event : EventId
  order : OrderId
  user : UserId
  /-- Length of the build in whole seconds, counted in 64 bits. -/
  seconds : Nat
  inRange : seconds < 0x10000000000000000 := by omega
deriving DecidableEq, Repr

inductive Event
  | payment (p : PaymentCompleted)
  | build (b : BuildCompleted)
deriving DecidableEq, Repr

namespace Event

inductive Kind
  | payment
  | build
deriving DecidableEq, Repr

def Kind.name : Kind → String
  | .payment => "PaymentCompleted"
  | .build => "BuildCompleted"

/-- The kind that a topic carries. Dead letters are of the kind of their topic. -/
def kindOf : Topic → Kind
  | .paid => .payment
  | .paidDeadLetters => .payment
  | .assembled => .build
  | .assembledDeadLetters => .build

def topic : Event → Topic
  | .payment _ => .paid
  | .build _ => .assembled

def order : Event → OrderId
  | .payment p => p.order
  | .build b => b.order

def id : Event → EventId
  | .payment p => p.event
  | .build b => b.event

def key (e : Event) : String := e.order.text

end Event
end Shipyard

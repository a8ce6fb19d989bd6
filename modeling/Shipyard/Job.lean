import Shipyard.Bus
import Shipyard.Drill
import Shipyard.Fault
import Shipyard.Meter
import Shipyard.Outbox
import Shipyard.Session

/-!
# Jobs

A job is a program cut at every point where it meets the world: it asks for one thing, gets a reply
and goes on, or it waits. Between two requests of a job other jobs may run, so a request is what
happens at once. A job may also end with an arithmetic fault.
-/

namespace Shipyard

/-- A shutdown signal. Once raised it stays so. -/
structure Signal where
  number : Nat
deriving DecidableEq, Repr

/-- A record handed to a handler of a group, and when. -/
structure Delivery where
  group : String
  message : Bus.Message
  time : Nat

/-- How a wait came to its end. -/
inductive Wakeup
  | elapsed
  | raised
deriving DecidableEq, Repr

inductive Request
  /-- The clock, in nanoseconds. -/
  | clock
  /-- The date and time. -/
  | calendar
  /-- An identifier that was not given out before. -/
  | mint
  | isRaised (signal : Signal)
  | raise (signal : Signal)
  | readOrder (id : OrderId)
  | insertOrder (o : Order)
  | changeOrder (id : OrderId) (expected : Order.Status) (change : Order.Change)
  | setWritesDown (down : Bool)
  | askStock (id : PartId)
  | charge (c : Charge)
  | partitions
  | publish (topic : Topic) (key : String) (payload : Bytes)
  | fetch (topic : Topic) (partition offset : Nat)
  | committed (group : String) (topic : Topic) (partition : Nat)
  | commit (group : String) (topic : Topic) (partition next : Nat)
  /-- Enters a delivery into the journal. -/
  | deliver (group : String) (m : Bus.Message)
  | count (c : Meter.Counter) (n : Nat)
  | time (s : Span) (succeeded : Bool)
  /-- The measurements as a text. -/
  | samples
  | send (text : String)
  | whoami (session : String)
  | planLookup
  | planCharge
  | planChange

/-- What a request is answered with. -/
abbrev Request.Reply : Request → Type
  | .clock => Nat
  | .calendar => Instant
  | .mint => Uuid
  | .isRaised _ => Bool
  | .raise _ => Unit
  | .readOrder _ => Except Store.Error (Option Order)
  | .insertOrder _ => Except Store.Error Unit
  | .changeOrder _ _ _ => Except Store.Error Order
  | .setWritesDown _ => Unit
  | .askStock _ => Except ServiceError Part × Option Span
  | .charge _ => Except ServiceError Unit
  | .partitions => Nat
  | .publish _ _ _ => Except Bus.Error Bus.Position
  | .fetch _ _ _ => Except Bus.Error (Option Bus.Message)
  | .committed _ _ _ => Except Bus.Error Nat
  | .commit _ _ _ _ => Except Bus.Error Unit
  | .deliver _ _ => List Delivery
  | .count _ _ => Unit
  | .time _ _ => Unit
  | .samples => String
  | .send _ => Except ChannelError Unit
  | .whoami _ => Except IdentityError Identity
  | .planLookup => Option Drill.Lookup
  | .planCharge => Option Drill.Charging
  | .planChange => Option Drill.Changing

inductive Job (α : Type) : Type
  | done (x : α)
  | fault (f : Fault)
  | ask (r : Request) (k : r.Reply → Job α)
  /-- Waits for a time of the clock, or for a signal if that is raised earlier. -/
  | wait (wake : Nat) (signal : Option Signal) (k : Wakeup → Job α)

namespace Job

variable {α β : Type}

def bind : Job α → (α → Job β) → Job β
  | done x, f => f x
  | fault e, _ => fault e
  | ask r k, f => ask r fun x => (k x).bind f
  | wait t s k, f => wait t s fun x => (k x).bind f

instance : Monad Job where
  pure := done
  bind := bind

/-- Asks for one thing. -/
def call (r : Request) : Job r.Reply := ask r done

/-- A computation that may fault. -/
def lift : Except Fault α → Job α
  | .ok x => done x
  | .error f => fault f

/-- Nothing is waited for longer than thirty years of 365 days. -/
def longestWait : Span := .ofSeconds 946080000

def wakeAfter (now : Nat) (s : Span) : Nat := now + (s.shorter longestWait).nanos

/-- Waits for a span of time, or for a signal. -/
def sleep (s : Span) (signal : Option Signal) : Job Wakeup :=
  ask .clock fun now => wait (wakeAfter now s) signal done

/-- Runs a job, but gives it up at a time of the clock. What is over by then, even at that very
moment, counts. -/
def upTo (limit : Nat) (late : α) : Job α → Job α
  | done x => done x
  | fault e => fault e
  | ask r k => ask r fun x => (k x).upTo limit late
  | wait wake signal k =>
    if wake ≤ limit then wait wake signal fun x => (k x).upTo limit late
    else
      wait limit signal fun
        | .raised => (k .raised).upTo limit late
        | .elapsed => done late

/-- Runs a job under a deadline. -/
def within (deadline : Span) (late : α) (j : Job α) : Job α :=
  ask .clock fun now => j.upTo (wakeAfter now deadline) late

end Job
end Shipyard

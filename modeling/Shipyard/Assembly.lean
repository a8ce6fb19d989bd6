import Shipyard.Consumer
import Shipyard.Event.Wire

/-!
# Assembly

Building a ship takes a number of time units; then the build is announced. A shutdown breaks a
build off, and an announcement that fails makes the build fail. A record that is handed over again
is built again.
-/

namespace Shipyard.Assembly

structure Config where
  unit : Span
  /-- Shortest and longest build in units, in either order. -/
  minUnits : Nat
  maxUnits : Nat

def Config.usual : Config := ⟨.ofSeconds 1, 1, 10⟩

/-- The length of a build. Any within the bounds would do, and the shortest is taken. -/
def Config.units (c : Config) : Nat := min c.minUnits c.maxUnits

/-- Units are counted in 32 bits. -/
def Config.length (c : Config) : Span := c.unit.timesCapped (min c.units 0xffffffff)

/-- Seconds are counted in 64 bits. -/
def completion (event : EventId) (p : PaymentCompleted) (elapsed : Span) : BuildCompleted :=
  { event
    order := p.order
    user := p.user
    seconds := min elapsed.wholeSeconds 0xffffffffffffffff }

/-- Announces a build that took a span of time. -/
def publish (p : PaymentCompleted) (elapsed : Span) :
    Job (Except HandlerError BuildCompleted) :=
  .ask .mint fun u =>
    let built := completion ⟨u⟩ p elapsed
    .ask (.publish .assembled (Event.build built).key (Event.build built).encode) fun
      | .ok _ => .ask (.time elapsed true) fun _ => .done (.ok built)
      | .error e => .ask (.time elapsed false) fun _ => .done (.error (.failed e.message))

def assemble (c : Config) (p : PaymentCompleted) (signal : Option Signal) :
    Job (Except HandlerError BuildCompleted) :=
  .ask .clock fun started =>
    (Job.sleep c.length signal).bind fun wakeup =>
      .ask .clock fun now =>
        match wakeup with
        | .elapsed => publish p ⟨now - started⟩
        | .raised => .ask (.time ⟨now - started⟩ false) fun _ => .done (.error .cancelled)

def handler (c : Config) : Handler := fun _ m signal =>
  match PaymentCompleted.decode m.topic m.payload with
  | .error r => .done (.error (.undecodable r.message))
  | .ok p => (assemble c p signal).bind fun r => .done (r.map fun _ => ())

/-- The group in which paid orders are read. -/
def group : String := "assembly-service"

end Shipyard.Assembly

import Shipyard.Handler
import Shipyard.Pool

/-!
# Consumers

A member of a consumer group that reads one topic. Partitions are polled side by side, the records
of one partition strictly in order. The offset of a partition moves past a record only after the
handler accepted it or after it was put on the dead-letter topic, so every record is delivered at
least once. A failing record is delivered again after a wait that doubles up to a limit.
-/

namespace Shipyard

namespace Consumer

structure Config where
  /-- Deliveries before a record becomes a dead letter; at least one is made. -/
  maxAttempts : Nat
  backoff : Span
  maxBackoff : Span
  /-- Rest after a poll that settled nothing. -/
  interval : Span

def Config.usual : Config := ⟨5, .ofMillis 100, .ofSeconds 5, .ofMillis 50⟩

end Consumer

structure Consumer where
  group : String
  topic : Topic
  handler : Handler
  config : Consumer.Config

namespace Consumer

def counted (c : Consumer) (outcome : Meter.Outcome) : Request :=
  .count (.consumed c.topic c.group outcome) 1

/-- Moves the offset past a record. -/
def settle (c : Consumer) (m : Bus.Message) (after : Job (Except Bus.Error Bool)) :
    Job (Except Bus.Error Bool) :=
  .ask (.commit c.group c.topic m.partition (m.offset + 1)) fun
    | .error e => .done (.error e)
    | .ok () => after

def accept (c : Consumer) (m : Bus.Message) : Job (Except Bus.Error Bool) :=
  c.settle m (.ask (c.counted .acked) fun _ => .done (.ok true))

/-- Puts a record on the dead-letter topic before its offset is moved. -/
def deadLetter (c : Consumer) (m : Bus.Message) : Job (Except Bus.Error Bool) :=
  .ask (.publish c.topic.deadLetters m.key m.payload) fun
    | .error e => .done (.error e)
    | .ok _ =>
      c.settle m
        (.ask (c.counted .deadLettered) fun _ =>
          .ask (.count (.deadLettered c.topic c.group) 1) fun _ => .done (.ok true))

def nextBackoff (c : Consumer) (backoff : Span) : Except Fault Span :=
  backoff.double.map fun s => s.shorter c.config.maxBackoff

/-- Delivers a record, and again while it fails; `left` more attempts come after this one. -/
def attempt (c : Consumer) (signal : Option Signal) (m : Bus.Message) :
    Nat → Nat → Span → Job (Except Bus.Error Bool)
  | left, number, backoff =>
    .ask (.deliver c.group { m with attempt := number }) fun history =>
      (c.handler history { m with attempt := number } signal).bind fun
        | .ok () => c.accept m
        | .error .cancelled => .ask (c.counted .cancelled) fun _ => .done (.ok false)
        | .error _ =>
          match left with
          | 0 => c.deadLetter m
          | left + 1 =>
            .ask (c.counted .retried) fun _ =>
              (Job.sleep backoff signal).bind fun
                | .raised => .done (.ok false)
                | .elapsed =>
                  match c.nextBackoff backoff with
                  | .error f => .fault f
                  | .ok backoff => c.attempt signal m left (number + 1) backoff

/-- Delivers the next record of a partition if there is one. The result tells whether a record
was settled. -/
def pollPartition (c : Consumer) (signal : Option Signal) (partition : Nat) :
    Job (Except Bus.Error Bool) :=
  .ask (.committed c.group c.topic partition) fun
    | .error e => .done (.error e)
    | .ok offset =>
      .ask (.fetch c.topic partition offset) fun
        | .error e => .done (.error e)
        | .ok none => .done (.ok false)
        | .ok (some m) => c.attempt signal m (c.config.maxAttempts - 1) 1 c.config.backoff

/-- How many records a round settled. The first error of a partition is that of the round. -/
def settled : List (Except Bus.Error Bool) → Except Bus.Error Nat
  | [] => .ok 0
  | .error e :: _ => .error e
  | .ok b :: rest => (settled rest).map fun n => if b then n + 1 else n

/-- How long a consumer polls. -/
inductive Mode
  /-- One round. -/
  | once
  /-- Until a round settles nothing. -/
  | drain
  /-- Until the signal is raised; errors of the bus are passed over. -/
  | forever
deriving DecidableEq, Repr

/-- More partitions than these are served like threads in a queue, fewer by their numbers. -/
def fewPartitions : Nat := 30

def roundOrder (partitions : Nat) : Bundle.Order :=
  if partitions ≤ fewPartitions then .numbered else .queued

inductive Stage
  /-- The partitions of a round. -/
  | polling (round : Bundle (Except Bus.Error Bool))
  | resting (rest : Job Wakeup)
  | ended (result : Except Bus.Error Nat)
  | crashed (f : Fault)

/-- A consumer at work. -/
structure Worker where
  consumer : Consumer
  mode : Mode
  signal : Option Signal
  /-- Records settled in earlier rounds. -/
  total : Nat
  stage : Stage

namespace Worker

def isRaised (k : Worker) (w : World) : Bool :=
  match k.signal with
  | some s => s ∈ w.raised
  | none => false

/-- A new round over all partitions. -/
def round (k : Worker) (w : World) : Stage :=
  .polling (.ofList (roundOrder w.bus.partitions)
    ((List.range w.bus.partitions).map (k.consumer.pollPartition k.signal)))

/-- A new round, unless the consumer runs until a signal that is raised by now. -/
def begin (k : Worker) (w : World) : Worker :=
  if k.mode = .forever ∧ k.isRaised w then { k with stage := .ended (.ok k.total) }
  else { k with stage := k.round w }

def rest (k : Worker) : Worker :=
  { k with stage := .resting (.sleep k.consumer.config.interval k.signal) }

/-- What follows a round. -/
def conclude (k : Worker) (w : World) (result : Except Bus.Error Nat) : Worker :=
  match k.mode, result with
  | .once, _ => { k with stage := .ended result }
  | .drain, .error e => { k with stage := .ended (.error e) }
  | .drain, .ok 0 => { k with stage := .ended (.ok k.total) }
  | .drain, .ok (n + 1) => { k with total := k.total + (n + 1) }.begin w
  | .forever, .error _ => k.rest
  | .forever, .ok 0 => k.rest
  | .forever, .ok (_ + 1) => k.begin w

def move (t : Turn) (k : Worker) : Turn × Worker :=
  match k.stage with
  | .polling round =>
    let (t, round) := round.run t
    match round.fault?, round.results? with
    | some f, _ => (t, { k with stage := .crashed f })
    | none, some rs => (t, k.conclude t.world (settled rs))
    | none, none => (t, { k with stage := .polling round })
  | .resting j =>
    match t.run j with
    | (t, .done .elapsed) => (t, k.begin t.world)
    | (t, .done .raised) => (t, { k with stage := .ended (.ok k.total) })
    | (t, j) => (t, { k with stage := .resting j })
  | .ended _ => (t, k)
  | .crashed _ => (t, k)

def wake (w : World) (k : Worker) : Option Nat :=
  match k.stage with
  | .polling round => if round.results?.isSome then some w.clock else round.wakeTime w
  | .resting j => some ((j.wakeTime w).getD w.clock)
  | .ended _ => none
  | .crashed _ => none

def isHeld (w : World) (k : Worker) : Bool :=
  match k.stage with
  | .polling round => !round.held.isEmpty
  | .resting (.wait wake signal _) => (w.wakeup? wake signal).isSome
  | _ => false

def machine : Machine Worker := ⟨move, wake, isHeld⟩

end Worker

/-- The consumer at the start of its work. -/
def start (c : Consumer) (mode : Mode) (signal : Option Signal) (w : World) : Worker :=
  Worker.begin ⟨c, mode, signal, 0, .polling (.ofList .numbered [])⟩ w

end Consumer
end Shipyard

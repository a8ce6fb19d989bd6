import Shipyard.Fulfilment.Payment
import Shipyard.Workers

/-!
# Trials

A consumer, a build or two payments are run in a world, beside a shutdown and publications that
are planned for certain times after the start. A trial is over when all that was planned is over.
-/

namespace Shipyard.Trial

/-- A record to be published at some time after the start. -/
structure Publication where
  after : Span
  topic : Topic
  key : String
  payload : Bytes

/-- What happens at some time after the start. -/
structure Incident where
  after : Span
  request : Request

def Publication.incident (p : Publication) : Incident := ⟨p.after, .publish p.topic p.key p.payload⟩

/-- A shutdown at the start is raised before anything else happens. -/
def stopNow (signal : Signal) (stop : Option Span) (w : World) : World :=
  match stop with
  | some ⟨0⟩ => { w with raised := signal :: w.raised }
  | _ => w

def stopLater (signal : Signal) : Option Span → List Incident
  | some ⟨0⟩ => []
  | some s => [⟨s, .raise signal⟩]
  | none => []

/-- Lets one incident happen after another. -/
def follow (start : Nat) : List Incident → Job Unit
  | [] => .done ()
  | i :: rest =>
    .ask .clock fun now =>
      (Job.sleep ⟨start + i.after.nanos - now⟩ none).bind fun _ =>
        .ask i.request fun _ => follow start rest

/-- All incidents in the order of their times. -/
def plan (start : Nat) (incidents : List Incident) : Job Unit :=
  follow start (incidents.mergeSort fun x y => x.after.nanos ≤ y.after.nanos)

/-- How a consumer came out of a trial. -/
structure Report where
  result : Except Fault (Except Bus.Error Nat)
  deliveries : List Delivery
  raised : Bool

def resultOf : Consumer.Stage → Except Fault (Except Bus.Error Nat)
  | .ended r => .ok r
  | .crashed f => .error f
  | .polling _ => .ok (.ok 0)
  | .resting _ => .ok (.ok 0)

/-- Deliveries partition by partition. -/
def byPartition (partitions : Nat) (ds : List Delivery) : List Delivery :=
  (List.range partitions).flatMap fun p => ds.filter fun d => d.message.partition = p

def consume (c : Consumer) (mode : Consumer.Mode) (stop : Option Span)
    (publications : List Publication) (t : Turn) : Report × Turn :=
  let signal := Workers.freshSignal t.world
  let w := stopNow signal stop { t.world with journal := [] }
  let incidents := publications.map Publication.incident ++ stopLater signal stop
  let (t, threads) := Pool.finish Workers.machine ⟨w, t.left⟩
    [.inl (c.start mode (some signal) w), .inr (plan w.clock incidents)]
  let stage := match threads with
    | .inl k :: _ => k.stage
    | _ => .ended (.ok 0)
  let w := t.world
  (⟨resultOf stage, byPartition w.bus.partitions w.journal, signal ∈ w.raised⟩, t)

/-- A build beside a shutdown. -/
def assemble (c : Assembly.Config) (p : PaymentCompleted) (stop : Option Span) (t : Turn) :
    Option (Except Fault (Except HandlerError BuildCompleted)) × Turn :=
  let signal := Workers.freshSignal t.world
  let w := stopNow signal stop t.world
  let machine := (Job.machine (Except HandlerError BuildCompleted)).either (Job.machine Unit)
  let (t, threads) := Pool.finish machine ⟨w, t.left⟩
    [.inl (Assembly.assemble c p (some signal)), .inr (plan w.clock (stopLater signal stop))]
  match threads with
  | .inl (.done x) :: _ => (some (.ok x), t)
  | .inl (.fault f) :: _ => (some (.error f), t)
  | _ => (none, t)

/-- A bundle is a thread. -/
def bundled (α : Type) : Machine (Bundle α) :=
  ⟨fun t b => b.run t, fun w b => if b.fault?.isSome then none else b.wakeTime w,
    fun _ b => !b.held.isEmpty⟩

/-- Several payments that start together. They take turns in being the first. -/
def payAll (calls : ServiceCalls) (deadline : Span) (id : OrderId) (methods : List PaymentMethod)
    (t : Turn) : Except Fault (List (Except Fulfilment.Error TransactionId)) × Turn :=
  let (t, threads) := Pool.finish (bundled _) t
    [.ofList .rotating (methods.map fun m => Fulfilment.pay calls deadline id m)]
  match threads with
  | b :: _ =>
    match b.fault? with
    | some f => (.error f, t)
    | none => (.ok (b.results?.getD []), t)
  | [] => (.ok [], t)

end Shipyard.Trial

import Shipyard.Job

/-!
# The world of jobs

All that jobs share, and how it answers their requests. Every request is answered at once but a
wait that is not over. Nothing but the end of a wait moves the clock.
-/

namespace Shipyard

structure World where
  /-- Nanoseconds since the world began. -/
  clock : Nat
  today : Instant
  /-- How many identifiers were given out. -/
  minted : Nat
  raised : List Signal
  store : Store
  stock : Stock
  ledger : Ledger
  bus : Bus
  sessions : Sessions
  outbox : Outbox
  meter : Meter
  drill : Drill
  journal : List Delivery

namespace World

def empty (partitions : Nat) (measured : Bool) (today : Instant) : World :=
  { clock := 0
    today
    minted := 0
    raised := []
    store := .empty
    stock := .empty
    ledger := .empty
    bus := .empty partitions
    sessions := .empty
    outbox := .empty
    meter := .empty measured
    drill := .empty
    journal := [] }

/-- The identifiers that are given out have a beginning of their own and are counted. -/
def mintedUuid (n : Nat) : Uuid := ⟨BitVec.ofNat 128 (0x5417c0de000040008000000000000000 + n)⟩

/-- How a wait stands. -/
def wakeup? (w : World) (wake : Nat) (signal : Option Signal) : Option Wakeup :=
  if wake ≤ w.clock then some .elapsed
  else
    match signal with
    | some s => if s ∈ w.raised then some .raised else none
    | none => none

/-- A change that may be refused, with its result. -/
def tried {ε α : Type} (w : World) (r : Except ε (α × World)) : Except ε α × World :=
  match r with
  | .ok (x, w') => (.ok x, w')
  | .error e => (.error e, w)

def deliver (w : World) (group : String) (m : Bus.Message) : World :=
  { w with journal := w.journal ++ [⟨group, m, w.clock⟩] }

/-- The next entry of a plan, and the entries after it. -/
def nextPlan {α : Type} : List (Option α) → Option α × List (Option α)
  | [] => (none, [])
  | p :: ps => (p, ps)

/-- The reply to a request, and the world after it. -/
def answer (w : World) : (r : Request) → r.Reply × World
  | .clock => (w.clock, w)
  | .calendar => (w.today, w)
  | .mint => (mintedUuid (w.minted + 1), { w with minted := w.minted + 1 })
  | .isRaised s => (decide (s ∈ w.raised), w)
  | .raise s => ((), { w with raised := s :: w.raised })
  | .readOrder id => (w.store.read id, w)
  | .insertOrder o =>
    w.tried ((w.store.insert o).map fun store => ((), { w with store }))
  | .changeOrder id expected change =>
    w.tried ((w.store.transition id expected change w.today).map
      fun (o, store) => (o, { w with store }))
  | .setWritesDown down => ((), { w with store := { w.store with writesDown := down } })
  | .askStock id => ((w.stock.answer id, w.stock.latency), w)
  | .charge c => w.tried ((w.ledger.charge c).map fun ledger => ((), { w with ledger }))
  | .partitions => (w.bus.partitions, w)
  | .publish topic key payload =>
    w.tried ((w.bus.publish topic key payload).map fun (p, bus) => (p, { w with bus }))
  | .fetch topic partition offset => (w.bus.fetch topic partition offset, w)
  | .committed group topic partition => (w.bus.committed group topic partition, w)
  | .commit group topic partition next =>
    w.tried ((w.bus.commit group topic partition next).map
      fun bus => ((), { w with bus }))
  | .deliver group m => ((w.deliver group m).journal, w.deliver group m)
  | .count c n => ((), { w with meter := w.meter.add c n })
  | .time s succeeded => ((), { w with meter := w.meter.time s succeeded })
  | .samples => (w.meter.text, w)
  | .send text => w.tried ((w.outbox.send text).map fun outbox => ((), { w with outbox }))
  | .whoami session => (w.sessions.whoami session w.today, w)
  | .planLookup =>
    let (p, lookups) := nextPlan w.drill.lookups
    (p, { w with drill := { w.drill with lookups } })
  | .planCharge =>
    let (p, charges) := nextPlan w.drill.charges
    (p, { w with drill := { w.drill with charges } })
  | .planChange =>
    let (p, changes) := nextPlan w.drill.changes
    (p, { w with drill := { w.drill with changes } })

/-- The world when a wait for a time of the clock is over. -/
def advance (w : World) (time : Nat) : World := { w with clock := max w.clock time }

variable {α : Type}

/-- Runs a job to its end while nothing else happens; its waits move the clock. -/
def finish (w : World) : Job α → World × Except Fault α
  | .done x => (w, .ok x)
  | .fault f => (w, .error f)
  | .ask r k => (w.answer r).2.finish (k (w.answer r).1)
  | .wait wake signal k =>
    match w.wakeup? wake signal with
    | some x => w.finish (k x)
    | none => (w.advance wake).finish (k .elapsed)

end World
end Shipyard

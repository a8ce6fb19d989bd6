import Shipyard.Bundle

/-!
# Pools of threads

Threads that share a world. One thread has the floor at a time and keeps it until it has to wait
or is held; then it goes to the back of the queue, or aside until no other can go on. When all
wait, the clock moves to the earliest time at which one of them can go on.
-/

namespace Shipyard

/-- What a pool has to know of its threads. -/
structure Machine (τ : Type) where
  /-- One move of a thread. -/
  move : Turn → τ → Turn × τ
  /-- The time at which a thread can go on; none if it has ended. -/
  wake : World → τ → Option Nat
  /-- Whether a thread that has moved was held. -/
  isHeld : World → τ → Bool

namespace Machine

def isReady {τ : Type} (m : Machine τ) (w : World) (t : τ) : Bool :=
  match m.wake w t with
  | some time => time ≤ w.clock
  | none => false

/-- Threads of two kinds in one pool. -/
def either {σ τ : Type} (m : Machine σ) (n : Machine τ) : Machine (σ ⊕ τ) where
  move turn
    | .inl t => ((m.move turn t).1, .inl (m.move turn t).2)
    | .inr t => ((n.move turn t).1, .inr (n.move turn t).2)
  wake w
    | .inl t => m.wake w t
    | .inr t => n.wake w t
  isHeld w
    | .inl t => m.isHeld w t
    | .inr t => n.isHeld w t

end Machine

/-- A job is a thread that runs from one wait to the next. -/
def Job.machine (α : Type) : Machine (Job α) := ⟨Turn.run, Job.wakeTime, Job.isReady⟩

/-- Threads with their numbers, in the order in which they come to the floor. -/
structure Pool (τ : Type) where
  queue : List (Nat × τ)
  /-- Threads that were held, the latest first. -/
  held : List (Nat × τ)

namespace Pool

variable {τ : Type}

def ofList (ts : List τ) : Pool τ := ⟨ts.mapIdx fun i t => (i, t), []⟩

/-- The threads by their numbers. -/
def toList (p : Pool τ) : List τ :=
  ((p.held ++ p.queue).mergeSort fun a b => a.1 ≤ b.1).map Prod.snd

/-- The first thread that can go on, and the others. -/
def pick (isReady : τ → Bool) : List (Nat × τ) → Option ((Nat × τ) × List (Nat × τ))
  | [] => none
  | t :: ts =>
    if isReady t.2 then some (t, ts)
    else (pick isReady ts).map fun (x, rest) => (x, t :: rest)

def earliest (m : Machine τ) (w : World) (p : Pool τ) : Option Nat :=
  (p.queue.filterMap fun t => m.wake w t.2).min?

/-- What becomes of a thread that has moved. A turn that a thread did not use up before its end is
left to those after it. -/
def place (m : Machine τ) (turn : Turn) (t : Nat × τ) (p : Pool τ) : Turn × Pool τ :=
  if m.isHeld turn.world t.2 then (.start turn.world, { p with held := t :: p.held })
  else if m.isReady turn.world t.2 then (turn, { p with queue := t :: p.queue })
  else
    (if (m.wake turn.world t.2).isSome then .start turn.world else turn,
      { p with queue := p.queue ++ [t] })

/-- One move of the pool; none if all threads have ended. -/
def step? (m : Machine τ) (turn : Turn) (p : Pool τ) : Option (Turn × Pool τ) :=
  match pick (m.isReady turn.world) p.queue, p.held with
  | some ((i, t), rest), _ =>
    let (turn, t) := m.move turn t
    some (place m turn (i, t) { p with queue := rest })
  | none, [] =>
    (earliest m turn.world p).map fun time => (⟨turn.world.advance time, turn.left⟩, p)
  | none, held => some (turn, ⟨held ++ p.queue, []⟩)

/-- Moves until all threads have ended, at most as often as the fuel allows. -/
def run (m : Machine τ) : Nat → Turn → Pool τ → Turn × Pool τ
  | 0, turn, p => (turn, p)
  | n + 1, turn, p =>
    match step? m turn p with
    | some (turn', p') => run m n turn' p'
    | none => (turn, p)

/-- More moves than any pool makes that ends in practice. -/
def patience : Nat := 1000000000000

/-- Lets threads run to their ends, the first one first. -/
def finish (m : Machine τ) (turn : Turn) (ts : List τ) : Turn × List τ :=
  let (turn, p) := run m patience turn (ofList ts)
  (turn, p.toList)

end Pool
end Shipyard

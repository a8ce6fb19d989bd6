import Shipyard.World

/-!
# Turns

Threads share one processor as well as a world. A thread that got the floor goes on until it has
to wait, but in one turn it may touch what the threads share only so many times. When it has done
so it is held: it gives up the floor although it could go on.
-/

namespace Shipyard

/-- Whether a request touches what the threads share. A charge without a user is refused before. -/
def Request.isShared : Request → Bool
  | .readOrder _ => true
  | .insertOrder _ => true
  | .changeOrder _ _ _ => true
  | .setWritesDown _ => true
  | .askStock _ => true
  | .charge c => !c.user.text.isEmpty
  | .publish _ _ _ => true
  | .fetch _ _ _ => true
  | .committed _ _ _ => true
  | .commit _ _ _ _ => true
  | .send _ => true
  | .whoami _ => true
  | _ => false

/-- The world of a thread that has the floor, and how often the thread may still touch it. -/
structure Turn where
  world : World
  left : Nat

namespace Turn

def touches : Nat := 128

def start (w : World) : Turn := ⟨w, touches⟩

/-- What is left after one more touch of a thread that is alone: a new turn begins when one is
used up. -/
def less : Nat → Nat
  | 0 => touches - 1
  | n + 1 => n

/-- A touch that leaves the world as given. -/
def touch (t : Turn) (w : World) : Turn := ⟨w, less t.left⟩

variable {α : Type}

/-- Runs a job up to its end, to a wait that is not over, or to the end of the turn. To go on
after a wait is a touch, too. -/
def run (t : Turn) : Job α → Turn × Job α
  | .done x => (t, .done x)
  | .fault f => (t, .fault f)
  | .ask r k =>
    if r.isShared then
      match t.left with
      | 0 => (t, .ask r k)
      | n + 1 => run ⟨(t.world.answer r).2, n⟩ (k (t.world.answer r).1)
    else run ⟨(t.world.answer r).2, t.left⟩ (k (t.world.answer r).1)
  | .wait wake signal k =>
    match t.world.wakeup? wake signal, t.left with
    | some x, n + 1 => run ⟨t.world, n⟩ (k x)
    | some _, 0 => (t, .wait wake signal k)
    | none, _ => (t, .wait wake signal k)

/-- What is left of a turn in which a job runs to its end while nothing else happens. -/
def leftAfter (w : World) : Nat → Job α → Nat
  | n, .done _ => n
  | n, .fault _ => n
  | n, .ask r k =>
    leftAfter (w.answer r).2 (if r.isShared then less n else n) (k (w.answer r).1)
  | n, .wait wake signal k =>
    match w.wakeup? wake signal with
    | some x => leftAfter w (less n) (k x)
    | none => leftAfter (w.advance wake) (less touches) (k .elapsed)

/-- Runs a job to its end while nothing else happens. -/
def finish (t : Turn) (j : Job α) : Turn × Except Fault α :=
  (⟨(t.world.finish j).1, leftAfter t.world t.left j⟩, (t.world.finish j).2)

end Turn
end Shipyard

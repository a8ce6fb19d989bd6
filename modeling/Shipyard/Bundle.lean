import Shipyard.Turn

/-!
# Bundles of jobs

Jobs that make up one thread, each with a number. Whenever the thread gets the floor, those of them
that can go on do so one after another. Bundles differ in the order in which their jobs come up.
A job that faults stops the whole bundle.
-/

namespace Shipyard

/-- The time at which a job can go on. -/
def Job.wakeTime {α : Type} (w : World) : Job α → Option Nat
  | .done _ => none
  | .fault _ => none
  | .ask _ _ => some w.clock
  | .wait wake signal _ => if (w.wakeup? wake signal).isSome then some w.clock else some wake

def Job.isReady {α : Type} (w : World) (j : Job α) : Bool :=
  match j.wakeTime w with
  | some time => time ≤ w.clock
  | none => false

namespace Bundle

inductive Order
  /-- By number. -/
  | numbered
  /-- By number, but each time another job is the first, and the first one comes last. -/
  | rotating
  /-- The job that waited longest is the first. Of jobs that were held the latest is the first. -/
  | queued
deriving DecidableEq, Repr

end Bundle

structure Bundle (α : Type) where
  order : Bundle.Order
  /-- How often the bundle had the floor. -/
  turns : Nat
  /-- Jobs that wait, in the order in which they began to, and jobs that have ended. -/
  queue : List (Nat × Job α)
  /-- Jobs that were held, the latest first. -/
  held : List (Nat × Job α)

namespace Bundle

variable {α : Type}

/-- A bundle of jobs that have yet to begin. -/
def ofList (order : Order) (jobs : List (Job α)) : Bundle α :=
  ⟨order, 0, jobs.mapIdx fun i j => (i, j), []⟩

def byNumber (b : Bundle α) : List (Nat × Job α) :=
  (b.held ++ b.queue).mergeSort fun x y => x.1 ≤ y.1

/-- The jobs in the order in which they come up. -/
def upcoming (b : Bundle α) : List (Nat × Job α) :=
  match b.order with
  | .numbered => b.byNumber
  | .rotating => b.byNumber.rotateLeft b.turns
  | .queued => b.held ++ b.queue

/-- Lets jobs go on one after another. -/
def runAll (t : Turn) (b : Bundle α) : List (Nat × Job α) → Turn × Bundle α
  | [] => (t, b)
  | (i, j) :: rest =>
    match t.run j with
    | (t, .fault f) => (t, { b with queue := b.queue ++ (i, .fault f) :: rest })
    | (t, j) =>
      if j.isReady t.world then runAll t { b with held := (i, j) :: b.held } rest
      else runAll t { b with queue := b.queue ++ [(i, j)] } rest

/-- One turn of the thread. -/
def run (t : Turn) (b : Bundle α) : Turn × Bundle α :=
  let (ready, others) := b.upcoming.partition fun j => j.2.isReady t.world
  runAll t { b with turns := b.turns + 1, queue := others, held := [] } ready

def fault? (b : Bundle α) : Option Fault :=
  b.queue.findSome? fun j => match j.2 with
    | .fault f => some f
    | _ => none

def allDone : List (Job α) → Option (List α)
  | [] => some []
  | .done x :: js => (allDone js).map (x :: ·)
  | _ :: _ => none

/-- The results of the jobs by number, if all have ended. -/
def results? (b : Bundle α) : Option (List α) := allDone (b.byNumber.map Prod.snd)

/-- The time at which one of the jobs can go on. -/
def wakeTime (w : World) (b : Bundle α) : Option Nat :=
  ((b.held ++ b.queue).filterMap fun j => j.2.wakeTime w).min?

end Bundle
end Shipyard

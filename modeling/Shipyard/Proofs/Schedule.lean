import Shipyard.Proofs.Yard
import Shipyard.Turn

/-!
# Schedules

A list of acts tells which call goes on next, which switches are thrown in between and which calls
begin. Playing a schedule is a run of a yard, so a yard that is reached can be computed. What a job
does while it has the floor is a run of encounters (`Turn.run_moves`).
-/

namespace Shipyard

theorem World.meets_of_wakeup {w : World} {wake : Nat} {signal : Option Signal} {x : Wakeup}
    (woken : w.wakeup? wake signal = some x) : w.Meets (.woken wake signal x) w := by
  unfold wakeup? at woken
  split at woken
  · next due =>
    cases woken
    exact .elapsed due
  · split at woken
    · split at woken
      · next up =>
        cases woken
        exact .raised up
      · cases woken
    · cases woken

/-- One encounter of a job with the world. -/
def Job.Moves {α : Type} (x y : World × Job α) : Prop := ∃ e, x.1.Meets e y.1 ∧ x.2.Meets e y.2

/-- What a job does while it has the floor. -/
theorem Turn.run_moves {α : Type} (t : Turn) (j : Job α) :
    Relation.ReflTransGen Job.Moves (t.world, j) ((t.run j).1.world, (t.run j).2) := by
  induction j generalizing t with
  | done x => exact .refl
  | fault f => exact .refl
  | ask r k ih =>
    have step : Job.Moves (t.world, .ask r k) ((t.world.answer r).2, k (t.world.answer r).1) :=
      ⟨_, .answer r, .reply r k _⟩
    rw [Turn.run]
    split
    · split
      · exact .refl
      · next n _ => exact .head step (ih _ ⟨(t.world.answer r).2, n⟩)
    · exact .head step (ih _ ⟨(t.world.answer r).2, t.left⟩)
  | wait wake signal k ih =>
    rw [Turn.run]
    split
    · next x n woken _ =>
      have step : Job.Moves (t.world, .wait wake signal k) (t.world, k x) :=
        ⟨_, World.meets_of_wakeup woken, .woken wake signal k x⟩
      exact .head step (ih x ⟨t.world, n⟩)
    · exact .refl
    · exact .refl

/-- The next encounter of a thread if nothing else happens; none if it has ended, or has to wait. -/
def Thread.next? (w : World) (t : Thread) : Option (World × Thread) :=
  match t.job with
  | .done _ => none
  | .fault _ => none
  | .ask r k =>
    some ((w.answer r).2, t.push (.reply r (w.answer r).1) (k (w.answer r).1))
  | .wait wake signal k =>
    (w.wakeup? wake signal).map fun x => (w, t.push (.woken wake signal x) (k x))

namespace Yard

inductive Act
  | flip (f : World.Flip)
  | begin (c : Call)
  | move (i : Nat)

/-- Lets the call of a number go on. -/
def advance (y : Yard) (i : Nat) : Yard :=
  match y.threads[i]? with
  | none => y
  | some t =>
    match t.next? y.world with
    | none => y
    | some (w, t') => ⟨w, y.threads.take i ++ t' :: y.threads.drop (i + 1)⟩

def act (y : Yard) : Act → Yard
  | .flip f => { y with world := y.world.flip f }
  | .begin c => { y with threads := y.threads ++ [.start c] }
  | .move i => y.advance i

def play (y : Yard) (acts : List Act) : Yard := acts.foldl act y

variable {may : World → Call → Prop}

theorem next_meets {w w' : World} {t t' : Thread} (h : t.next? w = some (w', t')) :
    ∃ e k, w.Meets e w' ∧ t.job.Meets e k ∧ t' = t.push e k := by
  rw [Thread.next?] at h
  split at h
  · cases h
  · cases h
  · next r k asks =>
    cases h
    exact ⟨_, _, .answer r, asks ▸ .reply r k _, rfl⟩
  · next wake signal k waits =>
    obtain ⟨x, woken, same⟩ := Option.map_eq_some_iff.mp h
    cases same
    exact ⟨_, _, World.meets_of_wakeup woken, waits ▸ .woken wake signal k x, rfl⟩

/-- A call that may go on has one encounter, and no other call takes part in it. -/
theorem advance_cases (y : Yard) (i : Nat) : y.advance i = y ∨
    ∃ before t after e k w, y.threads = before ++ t :: after ∧ y.world.Meets e w ∧
      t.job.Meets e k ∧ y.advance i = ⟨w, before ++ t.push e k :: after⟩ ∧
      after = y.threads.drop (i + 1) ∧ y.threads[i]? = some t := by
  rw [advance]
  split
  · exact .inl rfl
  · next t there =>
    split
    · exact .inl rfl
    · next w t' next =>
      obtain ⟨e, k, world, job, rfl⟩ := next_meets next
      have stands := there
      obtain ⟨inside, rfl⟩ := List.getElem?_eq_some_iff.mp there
      have parts : y.threads = y.threads.take i ++ y.threads[i] :: y.threads.drop (i + 1) := by
        rw [List.getElem_cons_drop, List.take_append_drop]
      exact .inr ⟨_, _, _, e, k, w, parts, world, job, rfl, rfl, stands⟩

/-- An act is one step, or changes nothing. -/
theorem act_step (y : Yard) (a : Act) (allowed : ∀ c, a = .begin c → may y.world c) :
    y.act a = y ∨ Step may y (y.act a) := by
  cases a with
  | flip f => exact .inr (.flip y f)
  | begin c => exact .inr (.begin y c (allowed c rfl))
  | move i =>
    obtain same | ⟨before, t, after, e, k, w, parts, world, job, moved, -⟩ := advance_cases y i
    · exact .inl same
    · have step : Step may ⟨y.world, before ++ t :: after⟩ ⟨w, before ++ t.push e k :: after⟩ :=
        .move world job
      rw [← parts, ← moved] at step
      exact .inr step

theorem act_run (y : Yard) (a : Act) (allowed : ∀ c, a = .begin c → may y.world c) :
    Run may y (y.act a) := by
  rcases act_step y a allowed with same | step
  · rw [same]
  · exact .single step

/-- A schedule whose calls may begin at any time is a run. -/
theorem play_run (y : Yard) {acts : List Act} (allowed : ∀ w c, .begin c ∈ acts → may w c) :
    Run may y (y.play acts) := by
  induction acts generalizing y with
  | nil => exact .refl
  | cons a acts ih =>
    have first : Run may y (y.act a) :=
      act_run y a fun c same => allowed y.world c (same ▸ List.mem_cons_self ..)
    exact first.trans (ih (y.act a) fun w c mem => allowed w c (List.mem_cons_of_mem _ mem))

/-- Such a schedule leads to yards that are reached. -/
theorem Reachable.play {y : Yard} (h : Reachable may y) {acts : List Act}
    (allowed : ∀ w c, .begin c ∈ acts → may w c) : Reachable may (y.play acts) :=
  h.run (play_run y allowed)

end Yard
end Shipyard

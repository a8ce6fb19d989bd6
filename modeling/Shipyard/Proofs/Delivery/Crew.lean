import Mathlib.Data.List.Perm.Basic
import Mathlib.Data.Set.List
import Mathlib.Logic.Hydra
import Mathlib.Logic.Relation
import Shipyard.Proofs.Growth
import Shipyard.Workers

/-!
# Consumers side by side

A crew is a world with consumers at work in it. One step of a consumer is one encounter of one job
of its round or of its rest, or what it does when these are over. The steps of different consumers
and of the partitions of one round follow each other in any order, and time passes between them.
`Shift` is one run of the four workers until a shutdown. `Polls` is one poll of all partitions;
`PollEnds` says that such a poll comes to its end whatever the order of its steps, and `Drained`
says it of a consumer that polls until nothing is left.
-/

namespace Shipyard

theorem forall₂_imp_of_mem {α β : Type} {R S : α → β → Prop} {xs : List α} {ys : List β}
    (h : List.Forall₂ R xs ys) (imp : ∀ x ∈ xs, ∀ y, R x y → S x y) : List.Forall₂ S xs ys := by
  have both := (List.forall₂_and_left xs ys).mpr ⟨imp, h⟩
  exact both.imp fun x y ⟨imp, here⟩ => imp y here

theorem forall₂_exists {α β : Type} {R : α → β → Prop} {xs : List α} {ys : List β} {x : α}
    (h : List.Forall₂ R xs ys) (mem : x ∈ xs) : ∃ y ∈ ys, R x y := by
  induction h with
  | nil => cases mem
  | cons here _ ih =>
    rcases List.mem_cons.mp mem with rfl | mem
    · exact ⟨_, List.mem_cons_self .., here⟩
    · obtain ⟨y, there, related⟩ := ih mem
      exact ⟨y, List.mem_cons_of_mem _ there, related⟩

theorem forall₂_split {α β : Type} {R : α → β → Prop} {xs : List α} {before after : List β}
    {y : β} (h : List.Forall₂ R xs (before ++ y :: after)) :
    ∃ xs₁ x xs₂, xs = xs₁ ++ x :: xs₂ ∧ List.Forall₂ R xs₁ before ∧ R x y ∧
      List.Forall₂ R xs₂ after := by
  induction before generalizing xs with
  | nil =>
    cases h with
    | cons here rest => exact ⟨[], _, _, rfl, .nil, here, rest⟩
  | cons b before ih =>
    cases h with
    | cons here rest =>
      obtain ⟨xs₁, x, xs₂, rfl, first, middle, last⟩ := ih rest
      exact ⟨_ :: xs₁, x, xs₂, rfl, .cons here first, middle, last⟩

theorem exists_map_eq {α β : Type} {f : α → β} {ys : List β} (h : ∀ y ∈ ys, ∃ x, y = f x) :
    ∃ xs : List α, ys = xs.map f := by
  have range : ys ∈ Set.range (List.map f) := by
    rw [Set.range_list_map]
    intro y mem
    obtain ⟨x, same⟩ := h y mem
    exact ⟨x, same.symm⟩
  obtain ⟨xs, same⟩ := range
  exact ⟨xs, same.symm⟩

namespace World

/-- Whether a flip throws a failure switch. -/
def Flip.isSwitch : Flip → Bool
  | .reads _ => true
  | .writes _ => true
  | .charges _ => true
  | .bus _ => true
  | .channel _ => true
  | _ => false

/-- Nothing happens but that time passes. -/
def Passes (w v : World) : Prop := ∃ time today, v = (w.flip (.tick time)).flip (.date today)

theorem Passes.refl (w : World) : w.Passes w :=
  ⟨0, w.today, by simp [flip, advance]⟩

theorem Passes.tick {v w : World} (h : v.Passes w) (time : Nat) :
    v.Passes (w.advance time) := by
  obtain ⟨before, today, rfl⟩ := h
  exact ⟨max before time, today, by simp [flip, advance, Nat.max_assoc]⟩

end World

theorem Job.wellFounded_meets (α : Type) :
    WellFounded fun j' j : Job α => ∃ e, j.Meets e j' := by
  constructor
  intro j
  induction j with
  | done x =>
    constructor
    rintro j' ⟨e, ⟨⟩⟩
  | fault f =>
    constructor
    rintro j' ⟨e, ⟨⟩⟩
  | ask r k ih =>
    constructor
    rintro j' ⟨e, step⟩
    cases step with
    | reply _ _ x => exact ih x
  | wait wake signal k ih =>
    constructor
    rintro j' ⟨e, step⟩
    cases step with
    | woken _ _ _ x => exact ih x

namespace Bundle

variable {α : Type} {b b' : Bundle α} {i : Nat} {j j' : Job α}

/-- The jobs of a bundle with their numbers. -/
def jobs (b : Bundle α) : List (Nat × Job α) := b.held ++ b.queue

/-- The job of a number becomes another one. The others are as they were, in whatever order. -/
def Replaces (b : Bundle α) (i : Nat) (j j' : Job α) (b' : Bundle α) : Prop :=
  ∃ rest, b.jobs.Perm ((i, j) :: rest) ∧ b'.jobs.Perm ((i, j') :: rest)

/-- The step of one of several jobs. -/
theorem Replaces.cutExpand (replaces : b.Replaces i j j' b') {e : Encounter} (step : j.Meets e j') :
    Relation.CutExpand (fun j' j : Job α => ∃ e, j.Meets e j')
      (b'.jobs.map Prod.snd : Multiset (Job α)) (b.jobs.map Prod.snd : Multiset (Job α)) := by
  obtain ⟨rest, before, after⟩ := replaces
  have pull {x : Job α} {js : List (Nat × Job α)} (perm : js.Perm ((i, x) :: rest)) :
      (js.map Prod.snd : Multiset (Job α)) = {x} + (rest.map Prod.snd : Multiset (Job α)) := by
    rw [Multiset.singleton_add, Multiset.cons_coe, Multiset.coe_eq_coe]
    exact perm.map Prod.snd
  rw [pull before, pull after]
  exact Relation.cutExpand_single_add ⟨e, step⟩ _

theorem jobs_ofList (order : Order) (js : List (Job α)) :
    (ofList order js).jobs = js.mapIdx fun i j => (i, j) := rfl

theorem numbers_ofList (order : Order) (js : List (Job α)) :
    (ofList order js).jobs.map Prod.fst = List.range js.length := by
  rw [jobs_ofList]
  exact List.ext_getElem (by simp) fun i _ _ => by simp

/-- The job that goes on is one of the bundle, and the others stay. -/
theorem Replaces.parts (replaces : b.Replaces i j j' b') {n : Nat}
    (numbers : (b.jobs.map Prod.fst).Perm (List.range n)) :
    i < n ∧ (i, j) ∈ b.jobs ∧ (b'.jobs.map Prod.fst).Perm (List.range n) ∧
      ∀ x ∈ b'.jobs, x = (i, j') ∨ (x ∈ b.jobs ∧ x.1 ≠ i) := by
  obtain ⟨rest, before, after⟩ := replaces
  have numbers : (i :: rest.map Prod.fst).Perm (List.range n) :=
    (before.map Prod.fst).symm.trans numbers
  have distinct := (List.nodup_range (n := n)).perm numbers.symm
  refine ⟨List.mem_range.mp (numbers.mem_iff.mp (List.mem_cons_self ..)),
    before.mem_iff.mpr (List.mem_cons_self ..), (after.map Prod.fst).trans numbers, ?_⟩
  intro x mem
  rcases List.mem_cons.mp (after.mem_iff.mp mem) with rfl | other
  · exact .inl rfl
  · refine .inr ⟨before.mem_iff.mpr (List.mem_cons_of_mem _ other), ?_⟩
    rintro rfl
    exact (List.nodup_cons.mp distinct).1 (List.mem_map_of_mem other)

end Bundle

namespace Consumer.Worker

/-- One step of a consumer that is at work. -/
inductive Step : World → Worker → World → Worker → Prop
  | go {w w' : World} {k : Worker} {round round' : Bundle (Except Bus.Error Bool)} {i : Nat}
      {j j' : Job (Except Bus.Error Bool)} {e : Encounter} (stage : k.stage = .polling round)
      (replaces : round.Replaces i j j' round') (world : w.Meets e w') (job : j.Meets e j') :
      Step w k w' { k with stage := .polling round' }
  | conclude {w : World} {k : Worker} {round : Bundle (Except Bus.Error Bool)}
      {rs : List (Except Bus.Error Bool)} (stage : k.stage = .polling round)
      (past : (round.jobs.map Prod.snd).Perm (rs.map .done)) :
      Step w k w (k.conclude w (settled rs))
  | crash {w : World} {k : Worker} {round : Bundle (Except Bus.Error Bool)} {i : Nat} {f : Fault}
      (stage : k.stage = .polling round) (fault : (i, .fault f) ∈ round.jobs) :
      Step w k w { k with stage := .crashed f }
  | stir {w w' : World} {k : Worker} {j j' : Job Wakeup} {e : Encounter}
      (stage : k.stage = .resting j) (world : w.Meets e w') (job : j.Meets e j') :
      Step w k w' { k with stage := .resting j' }
  | rested {w : World} {k : Worker} (stage : k.stage = .resting (.done .elapsed)) :
      Step w k w (k.begin w)
  | stopped {w : World} {k : Worker} (stage : k.stage = .resting (.done .raised)) :
      Step w k w { k with stage := .ended (.ok k.total) }

/-- A consumer that has ended or crashed makes no steps. -/
theorem Step.unfinished {w w' : World} {k k' : Worker} (step : k.Step w w' k') :
    (∀ r, k.stage ≠ .ended r) ∧ ∀ f, k.stage ≠ .crashed f := by
  cases step <;> simp_all only [reduceCtorEq, ne_eq, not_false_eq_true, implies_true, and_self]

end Consumer.Worker

structure Crew where
  world : World
  workers : List Consumer.Worker

namespace Crew

inductive Step : Crew → Crew → Prop
  | flip (cr : Crew) (f : World.Flip) (smooth : f.isSwitch = false) :
      Step cr { cr with world := cr.world.flip f }
  | work {w w' : World} {k k' : Consumer.Worker} (before after : List Consumer.Worker)
      (step : k.Step w w' k') : Step ⟨w, before ++ k :: after⟩ ⟨w', before ++ k' :: after⟩

abbrev Run : Crew → Crew → Prop := Relation.ReflTransGen Step

end Crew

/-- One run of the four workers: they begin with a signal that was not raised yet, and all of them
have come to their ends. The signal may be raised at any moment. -/
inductive Workers.Shift (w w' : World) : Prop
  | intro (build : Assembly.Config) (config : Consumer.Config) (signal : Signal)
      (fresh : signal ∉ w.raised) (ks : List Consumer.Worker)
      (run : Crew.Run ⟨w, (all .direct build .outbox config).map fun c =>
        c.start .forever (some signal) w⟩ ⟨w', ks⟩)
      (past : ∀ k ∈ ks, ∃ r, k.stage = .ended r)

/-- Whichever steps are made, sooner or later something is the case. Until then there is always a
step to make. -/
inductive Inevitable {σ : Type} (Step : σ → σ → Prop) (P : σ → Prop) : σ → Prop
  | now {s : σ} (here : P s) : Inevitable Step P s
  | later {s : σ} (some : ∃ s', Step s s') (next : ∀ s', Step s s' → Inevitable Step P s') :
      Inevitable Step P s

theorem Inevitable.mono {σ : Type} {Step : σ → σ → Prop} {P Q : σ → Prop} {s : σ}
    (h : Inevitable Step P s) (imp : ∀ s, P s → Q s) : Inevitable Step Q s := by
  induction h with
  | now here => exact .now (imp _ here)
  | later some _ ih => exact .later some ih

theorem Inevitable.of_run {σ : Type} {Step : σ → σ → Prop} {P : σ → Prop} {s s' : σ}
    (h : Inevitable Step P s) (final : ∀ s, P s → ∀ s', ¬ Step s s')
    (run : Relation.ReflTransGen Step s s') : Inevitable Step P s' := by
  induction run with
  | refl => exact h
  | tail _ step ih =>
    cases ih with
    | now here => exact absurd step (final _ here _)
    | later _ next => exact next _ step

theorem Inevitable.here_of_stuck {σ : Type} {Step : σ → σ → Prop} {P : σ → Prop} {s : σ}
    (h : Inevitable Step P s) (stuck : ∀ s', ¬ Step s s') : P s := by
  cases h with
  | now here => exact here
  | later some _ =>
    obtain ⟨s', step⟩ := some
    exact absurd step (stuck s')

namespace Consumer

/-- A step of a consumer that is alone with the passing of time. -/
def Proceeds (x y : World × Worker) : Prop := ∃ v, x.1.Passes v ∧ x.2.Step v y.1 y.2

/-- A poll of all partitions, from its beginning to its result. -/
def Polls (c : Consumer) (signal : Option Signal) (w : World) (r : Except Bus.Error Nat)
    (w' : World) : Prop :=
  ∃ k, Relation.ReflTransGen Proceeds (w, c.start .once signal w) (w', k) ∧ k.stage = .ended r

/-- A poll of all partitions comes to its end, and then a statement holds. -/
def PollEnds (c : Consumer) (signal : Option Signal) (w : World)
    (Q : Except Bus.Error Nat → World → Prop) : Prop :=
  Inevitable Proceeds (fun x => ∃ r, x.2.stage = .ended r ∧ Q r x.1) (w, c.start .once signal w)

/-- As long as a consumer is in the middle of a round, some step can be made. -/
theorem Worker.exists_step {w : World} {k : Worker} {round : Bundle (Except Bus.Error Bool)}
    (stage : k.stage = .polling round) : ∃ y, Proceeds (w, k) y := by
  by_cases ended : ∀ j ∈ round.jobs.map Prod.snd, ∃ r, j = .done r
  · obtain ⟨rs, past⟩ := exists_map_eq ended
    exact ⟨(_, _), w, .refl w, .conclude stage (.of_eq past)⟩
  · push Not at ended
    obtain ⟨_, unfinished, undone⟩ := ended
    obtain ⟨⟨i, j⟩, mem, rfl⟩ := List.mem_map.mp unfinished
    obtain ⟨before, after, split⟩ := List.append_of_mem mem
    have replaces (j' : Job (Except Bus.Error Bool)) :
        round.Replaces i j j' { round with held := [], queue := (i, j') :: (before ++ after) } := by
      refine ⟨before ++ after, ?_, .refl _⟩
      rw [split]
      exact List.perm_middle
    cases j with
    | done r => exact absurd rfl (undone r)
    | fault f => exact ⟨(_, _), w, .refl w, .crash stage mem⟩
    | ask r next =>
      exact ⟨(_, _), w, .refl w, .go stage (replaces _) (.answer r) (.reply r next _)⟩
    | wait wake signal next =>
      have due : wake ≤ (w.advance wake).clock := Nat.le_max_right _ _
      exact ⟨(_, _), w.advance wake, (World.Passes.refl w).tick wake,
        .go stage (replaces _) (.elapsed due) (.woken wake signal next .elapsed)⟩

/-- A consumer that polls until nothing is left, with a signal that is not raised, ends well, and
then a statement about the world holds. -/
def Drained (c : Consumer) (w : World) (Q : World → Prop) : Prop :=
  ∀ signal, (∀ s, signal = some s → s ∉ w.raised) →
    Inevitable Proceeds (fun x => (∃ total, x.2.stage = .ended (.ok total)) ∧ Q x.1)
      (w, c.start .drain signal w)

theorem Drained.mono {c : Consumer} {w : World} {Q Q' : World → Prop} (h : c.Drained w Q)
    (imp : ∀ w', Q w' → Q' w') : c.Drained w Q' := by
  intro signal fresh
  exact (h signal fresh).mono fun x done => ⟨done.1, imp x.1 done.2⟩

end Consumer

end Shipyard

import Mathlib.Algebra.BigOperators.Group.List.Basic
import Mathlib.Logic.Relation
import Shipyard.Fulfilment.Cancellation
import Shipyard.Fulfilment.Payment
import Shipyard.Proofs.Growth
import Shipyard.Workers

/-!
# Calls side by side

A yard is a world with any number of calls at work in it. One step of a yard is one encounter of
one call, or a switch that is thrown, or a call that begins; steps of different calls follow each
other in any order, and a call may be left where it stands for good. `Reachable` is stated for any
rule that says which calls may begin in which worlds.

The statements here are about all yards: what became of a call (`coherent`), that what it was told
still holds (`known`), that each of its encounters had its moment (`happened`), and that whatever
is counted in the world is the sum of what the calls did (`accounts`).
-/

namespace Shipyard

/-- What may be called: the three order operations, the completion of a build, one poll of one
partition by a consumer, and a publication from elsewhere. -/
inductive Call
  | create (deadline : Span) (user : UserId) (parts : List PartId) (method : Option PaymentMethod)
  | pay (deadline : Span) (id : OrderId) (method : PaymentMethod)
  | cancel (id : OrderId)
  | complete (b : BuildCompleted)
  | poll (c : Consumer) (signal : Option Signal) (partition : Nat)
  | publish (topic : Topic) (key : String) (payload : Bytes)

namespace Call

abbrev Result : Call → Type
  | .create _ _ _ _ => Except Fulfilment.Error Order
  | .pay _ _ _ => Except Fulfilment.Error TransactionId
  | .cancel _ => Except Fulfilment.Error Unit
  | .complete _ => Except HandlerError Fulfilment.BuildOutcome
  | .poll _ _ _ => Except Bus.Error Bool
  | .publish _ _ _ => Except Bus.Error Bus.Position

def job : (c : Call) → Job c.Result
  | .create deadline user parts method => Fulfilment.create .direct deadline user parts method
  | .pay deadline id method => Fulfilment.pay .direct deadline id method
  | .cancel id => Fulfilment.cancel .direct id
  | .complete b => Fulfilment.completeBuild .direct b
  | .poll c signal partition => c.pollPartition signal partition
  | .publish topic key payload => Job.call (.publish topic key payload)

end Call

/-- A call with all it has met with so far, and what is left of it to do. -/
structure Thread where
  call : Call
  trace : Trace
  job : Job call.Result

namespace Thread

def start (c : Call) : Thread := ⟨c, [], c.job⟩

def push (t : Thread) (e : Encounter) (k : Job t.call.Result) : Thread :=
  ⟨t.call, t.trace ++ [e], k⟩

/-- Whether a call has come to its end. -/
def isOver (t : Thread) : Bool :=
  match t.job with
  | .done _ => true
  | .fault _ => true
  | _ => false

end Thread

structure Yard where
  world : World
  threads : List Thread

namespace Yard

variable {may : World → Call → Prop}

def empty (partitions : Nat) (measured : Bool) (today : Instant) : Yard :=
  ⟨.empty partitions measured today, []⟩

inductive Step (may : World → Call → Prop) : Yard → Yard → Prop
  | flip (y : Yard) (f : World.Flip) : Step may y { y with world := y.world.flip f }
  | begin (y : Yard) (c : Call) (allowed : may y.world c) :
      Step may y { y with threads := y.threads ++ [.start c] }
  | move {w w' : World} {before after : List Thread} {t : Thread} {e : Encounter}
      {k : Job t.call.Result} (world : w.Meets e w') (job : t.job.Meets e k) :
      Step may ⟨w, before ++ t :: after⟩ ⟨w', before ++ t.push e k :: after⟩

abbrev Run (may : World → Call → Prop) : Yard → Yard → Prop := Relation.ReflTransGen (Step may)

inductive Reachable (may : World → Call → Prop) : Yard → Prop
  | empty (partitions : Nat) (measured : Bool) (today : Instant) :
      Reachable may (.empty partitions measured today)
  | step {y y' : Yard} : Reachable may y → Step may y y' → Reachable may y'

theorem Reachable.run {y y' : Yard} (h : Reachable may y) (run : Run may y y') :
    Reachable may y' := by
  induction run with
  | refl => exact h
  | tail _ step ih => exact ih.step step

theorem Reachable.mono {may' : World → Call → Prop} (imp : ∀ w c, may w c → may' w c) {y : Yard}
    (h : Reachable may y) : Reachable may' y := by
  induction h with
  | empty n b d => exact .empty n b d
  | step _ step ih =>
    cases step with
    | flip _ f => exact ih.step (.flip _ f)
    | begin _ c allowed => exact ih.step (.begin _ c (imp _ c allowed))
    | move world job => exact ih.step (.move world job)

theorem Step.grows {y y' : Yard} (h : Step may y y') : y.world.Grows y'.world := by
  cases h with
  | flip => exact World.flip_grows _ _
  | begin => exact .refl _
  | move world job => exact world.grows

theorem Run.grows {y y' : Yard} (run : Run may y y') : y.world.Grows y'.world := by
  induction run with
  | refl => exact .refl _
  | tail _ step ih => exact ih.trans step.grows

/-- After a step a call stands where it stood, or has just begun, or is the one that moved. -/
theorem Step.mem_threads {y y' : Yard} (h : Step may y y') {t : Thread} (mem : t ∈ y'.threads) :
    t ∈ y.threads ∨ (∃ c, may y.world c ∧ t = .start c) ∨
      ∃ u e k, u ∈ y.threads ∧ y.world.Meets e y'.world ∧ u.job.Meets e k ∧ t = u.push e k := by
  cases h with
  | flip => exact .inl mem
  | begin _ c allowed =>
    rcases List.mem_append.mp mem with mem | mem
    · exact .inl mem
    · exact .inr (.inl ⟨c, allowed, List.mem_singleton.mp mem⟩)
  | @move w w' before after u e k world job =>
    rcases List.mem_append.mp mem with mem | mem
    · exact .inl (List.mem_append_left _ mem)
    · rcases List.mem_cons.mp mem with rfl | mem
      · exact .inr (.inr ⟨u, e, k, by simp, world, job, rfl⟩)
      · exact .inl (List.mem_append_right _ (List.mem_cons_of_mem _ mem))

/-- A property of single calls that a beginning has and a move keeps. -/
theorem Reachable.each {P : Thread → Prop} {y : Yard} (h : Reachable may y)
    (start : ∀ w c, may w c → P (.start c))
    (move : ∀ t e k, P t → t.job.Meets e k → P (t.push e k)) : ∀ t ∈ y.threads, P t := by
  induction h with
  | empty => intro t mem; cases mem
  | step reached step ih =>
    intro t mem
    rcases step.mem_threads mem with mem | ⟨c, allowed, rfl⟩ | ⟨u, e, k, old, -, job, rfl⟩
    · exact ih t mem
    · exact start _ c allowed
    · exact move u e k (ih u old) job

theorem Reachable.coherent {y : Yard} (h : Reachable may y) :
    ∀ t ∈ y.threads, t.call.job.After t.trace t.job :=
  h.each (fun _ c _ => .here c.job) fun _ _ _ path job => path.snoc job

theorem Reachable.known {y : Yard} (h : Reachable may y) :
    ∀ t ∈ y.threads, ∀ e ∈ t.trace, e.Holds y.world := by
  induction h with
  | empty => intro t mem; cases mem
  | step reached step ih =>
    intro t mem e he
    rcases step.mem_threads mem with mem | ⟨c, -, rfl⟩ | ⟨u, e', k, old, world, -, rfl⟩
    · exact (ih t mem e he).of_grows step.grows
    · cases he
    · rcases List.mem_append.mp he with he | he
      · exact (ih u old e he).of_grows step.grows
      · obtain rfl := List.mem_singleton.mp he
        exact world.holds

/-- Every call began in some yard before, where it was allowed. -/
theorem Reachable.begun {y : Yard} (h : Reachable may y) :
    ∀ t ∈ y.threads, ∃ y₀, Reachable may y₀ ∧ Run may y₀ y ∧ may y₀.world t.call := by
  induction h with
  | empty => intro t mem; cases mem
  | @step y y' reached step ih =>
    intro t mem
    rcases step.mem_threads mem with mem | ⟨c, allowed, rfl⟩ | ⟨u, e, k, old, -, -, rfl⟩
    · obtain ⟨y₀, reached₀, run, allowed⟩ := ih t mem
      exact ⟨y₀, reached₀, run.tail step, allowed⟩
    · exact ⟨y, reached, .single step, allowed⟩
    · obtain ⟨y₀, reached₀, run, allowed⟩ := ih u old
      exact ⟨y₀, reached₀, run.tail step, allowed⟩

/-- The moment of an encounter: a yard before, in which the call had met with just what comes
earlier in its trace. -/
theorem Reachable.happened {y : Yard} (h : Reachable may y) {t : Thread} (mem : t ∈ y.threads)
    {pre post : Trace} {e : Encounter} (split : t.trace = pre ++ e :: post) :
    ∃ y₀ w t₀, Reachable may y₀ ∧ Run may y₀ y ∧ t₀ ∈ y₀.threads ∧ t₀.call = t.call ∧
      t₀.trace = pre ∧ y₀.world.Meets e w := by
  induction h generalizing t post with
  | empty => cases mem
  | @step y y' reached step ih =>
    rcases step.mem_threads mem with mem | ⟨c, -, rfl⟩ | ⟨u, e', k, old, world, -, rfl⟩
    · obtain ⟨y₀, w, t₀, reached₀, run, rest⟩ := ih mem split
      exact ⟨y₀, w, t₀, reached₀, run.tail step, rest⟩
    · simp [Thread.start] at split
    · rcases List.eq_nil_or_concat post with rfl | ⟨post, e'', rfl⟩
      · -- The last encounter is the one of this step.
        obtain ⟨rfl, same⟩ := List.append_inj' split rfl
        cases same
        exact ⟨y, _, u, reached, .single step, old, rfl, rfl, world⟩
      · have split' : u.trace ++ [e'] = (pre ++ e :: post) ++ [e''] := by
          simpa [Thread.push] using split
        obtain ⟨earlier, -⟩ := List.append_inj' split' rfl
        obtain ⟨y₀, w, t₀, reached₀, run, rest⟩ := ih old earlier
        exact ⟨y₀, w, t₀, reached₀, run.tail step, rest⟩

/-- A call that is at work stays in the yard, and its trace only becomes longer. -/
theorem Step.persists {y y' : Yard} (h : Step may y y') {t : Thread} (mem : t ∈ y.threads) :
    ∃ t' ∈ y'.threads, t'.call = t.call ∧ t.trace <+: t'.trace := by
  cases h with
  | flip => exact ⟨t, mem, rfl, List.prefix_rfl⟩
  | begin => exact ⟨t, List.mem_append_left _ mem, rfl, List.prefix_rfl⟩
  | @move w w' before after u e k world job =>
    rcases List.mem_append.mp mem with mem | mem
    · exact ⟨t, List.mem_append_left _ mem, rfl, List.prefix_rfl⟩
    · rcases List.mem_cons.mp mem with rfl | mem
      · exact ⟨t.push e k, by simp, rfl, List.prefix_append _ _⟩
      · exact ⟨t, List.mem_append_right _ (List.mem_cons_of_mem _ mem), rfl, List.prefix_rfl⟩

/-- What holds of the empty world, and is kept by every switch and every encounter. -/
theorem Reachable.always {P : World → Prop} {y : Yard} (h : Reachable may y)
    (start : ∀ n b d, P (.empty n b d)) (flips : ∀ w x, P w → P (w.flip x))
    (meets : ∀ w e w', P w → w.Meets e w' → P w') : P y.world := by
  induction h with
  | empty n b d => exact start n b d
  | step _ step ih =>
    cases step with
    | flip _ x => exact flips _ x ih
    | begin => exact ih
    | move world => exact meets _ _ _ ih world

/-- What was not so at first and is brought about by nothing but certain encounters, one of them
has brought about. -/
theorem Reachable.traced {P : World → Prop} {Q : Encounter → Prop} {y : Yard}
    (h : Reachable may y) (start : ∀ n b d, ¬ P (.empty n b d))
    (flips : ∀ w x, P (w.flip x) → P w) (meets : ∀ w e w', w.Meets e w' → P w' → P w ∨ Q e)
    (now : P y.world) : ∃ t ∈ y.threads, ∃ e ∈ t.trace, Q e := by
  induction h with
  | empty n b d => exact absurd now (start n b d)
  | step _ step ih =>
    cases step with
    | flip _ x => exact ih (flips _ x now)
    | begin _ c =>
      obtain ⟨t, mem, e, he, cause⟩ := ih now
      exact ⟨t, List.mem_append_left _ mem, e, he, cause⟩
    | @move w w' before after u e k world job =>
      rcases meets w e w' world now with earlier | cause
      · obtain ⟨t, mem, e', he, cause⟩ := ih earlier
        have step : Step may ⟨w, before ++ u :: after⟩ ⟨w', before ++ u.push e k :: after⟩ :=
          .move world job
        obtain ⟨t', mem', -, longer⟩ := step.persists mem
        exact ⟨t', mem', e', longer.subset he, cause⟩
      · exact ⟨u.push e k, by simp, e, by simp [Thread.push], cause⟩

/-- What each encounter adds to an account of the world, it adds to the sum over all calls. -/
theorem Reachable.accounts_while {M : Type} [AddCommMonoid M] {P : World → Prop} {f : World → M}
    {g : Encounter → M} {y : Yard} (h : Reachable may y)
    (start : ∀ n b d, f (.empty n b d) = 0)
    (flips : ∀ w x, P (w.flip x) → P w ∧ f (w.flip x) = f w)
    (meets : ∀ w e w', w.Meets e w' → P w' → P w ∧ f w' = f w + g e) (now : P y.world) :
    f y.world = (y.threads.map fun t => (t.trace.map g).sum).sum := by
  induction h with
  | empty n b d => simp [Yard.empty, start]
  | step _ step ih =>
    cases step with
    | flip _ x =>
      obtain ⟨before, same⟩ := flips _ x now
      exact same.trans (ih before)
    | begin _ c => simp [ih now, Thread.start]
    | @move w w' before after t e k world job =>
      obtain ⟨earlier, added⟩ := meets w e w' world now
      rw [added, ih earlier]
      simp only [List.map_append, List.map_cons, List.sum_append, List.sum_cons, Thread.push,
        List.map_nil, List.sum_nil, add_zero]
      ac_rfl

theorem Reachable.accounts {M : Type} [AddCommMonoid M] {f : World → M} {g : Encounter → M}
    {y : Yard} (h : Reachable may y) (start : ∀ n b d, f (.empty n b d) = 0)
    (flips : ∀ w x, f (w.flip x) = f w) (meets : ∀ w e w', w.Meets e w' → f w' = f w + g e) :
    f y.world = (y.threads.map fun t => (t.trace.map g).sum).sum :=
  h.accounts_while (P := fun _ => True) start (fun w x _ => ⟨trivial, flips w x⟩)
    (fun w e w' met _ => ⟨trivial, meets w e w' met⟩) trivial

end Yard
end Shipyard

import Mathlib.Algebra.BigOperators.Group.List.Basic
import Shipyard.Proofs.Delivery.Company

/-!
# Chronicles of drains

A chronicle notes down all that the polls of a consumer meet with, round by round, and how many of
them settled a record. It takes no part in what happens. A drain goes on to a further round only if
the last one settled something; so it comes to its end wherever no more than so many records can
be settled (`Chronicle.Upholds.inevitable`).
-/

namespace Shipyard
namespace Consumer

/-- Whether a poll settled a record. -/
def isSettled : Except Bus.Error Bool → Bool
  | .ok true => true
  | _ => false

theorem isSettled_iff {r : Except Bus.Error Bool} : isSettled r = true ↔ r = .ok true := by
  cases r with
  | error e => simp [isSettled]
  | ok b => cases b <;> simp [isSettled]

/-- A round without errors has settled as many records as polls say so. -/
theorem settled_of_ok {rs : List (Except Bus.Error Bool)} (ok : ∀ r ∈ rs, ∃ b, r = .ok b) :
    settled rs = .ok (rs.countP isSettled) := by
  induction rs with
  | nil => rfl
  | cons r rs ih =>
    obtain ⟨b, rfl⟩ := ok r (List.mem_cons_self ..)
    rw [settled, ih fun r mem => ok r (List.mem_cons_of_mem _ mem), List.countP_cons]
    cases b <;> rfl

theorem settled_of_error {rs : List (Except Bus.Error Bool)} {e : Bus.Error}
    (failed : .error e ∈ rs) : ∃ e, settled rs = .error e := by
  induction rs with
  | nil => cases failed
  | cons r rs ih =>
    cases r with
    | error e' => exact ⟨e', rfl⟩
    | ok b =>
      obtain ⟨e', same⟩ := ih ((List.mem_cons.mp failed).resolve_left nofun)
      exact ⟨e', by rw [settled, same, Except.map]⟩

/-- A world in which a consumer polls in rounds, with all that its polls have met with. -/
structure Chronicle where
  world : World
  /-- The polls of a partition in the rounds that are over. -/
  past : Nat → List Trace
  /-- What the poll of a partition in the present round has met with so far. -/
  now : Nat → Trace
  /-- How many polls of the rounds that are over have settled a record. -/
  settled : Nat

namespace Chronicle

variable {c : Consumer} {signal : Option Signal} {n : Nat} {x : Chronicle}
  {others : World → World → Prop}

def start (w : World) : Chronicle := ⟨w, fun _ => [], fun _ => [], 0⟩

/-- One more encounter of the poll of a partition. -/
def note (x : Chronicle) (w : World) (p : Nat) (e : Encounter) : Chronicle :=
  { x with world := w, now := Function.update x.now p (x.now p ++ [e]) }

/-- A round is over. -/
def close (x : Chronicle) (w : World) (n : Nat) : Chronicle :=
  ⟨w, fun p => x.past p ++ [x.now p], fun _ => [], x.settled + n⟩

/-- Others may do something; then the consumer makes a step, which is noted down. -/
inductive Step (others : World → World → Prop) :
    Chronicle × Worker → Chronicle × Worker → Prop
  | go {x : Chronicle} {k : Worker} {v w' : World} {round round' : Bundle (Except Bus.Error Bool)}
      {p : Nat} {j j' : Job (Except Bus.Error Bool)} {e : Encounter}
      (meanwhile : others x.world v) (stage : k.stage = .polling round)
      (replaces : round.Replaces p j j' round') (world : v.Meets e w') (job : j.Meets e j') :
      Step others (x, k) (x.note w' p e, { k with stage := .polling round' })
  | conclude {x : Chronicle} {k : Worker} {v : World} {round : Bundle (Except Bus.Error Bool)}
      {rs : List (Except Bus.Error Bool)} (meanwhile : others x.world v)
      (stage : k.stage = .polling round) (past : (round.jobs.map Prod.snd).Perm (rs.map .done)) :
      Step others (x, k) (x.close v (rs.countP isSettled), k.conclude v (Consumer.settled rs))
  | crash {x : Chronicle} {k : Worker} {v : World} {round : Bundle (Except Bus.Error Bool)}
      {p : Nat} {f : Fault} (meanwhile : others x.world v) (stage : k.stage = .polling round)
      (fault : (p, .fault f) ∈ round.jobs) :
      Step others (x, k) ({ x with world := v }, { k with stage := .crashed f })

/-- What is noted down is a step of the consumer. -/
theorem Step.worker {y z : Chronicle × Worker} (h : Step others y z) :
    ∃ v, others y.1.world v ∧ y.2.Step v z.1.world z.2 := by
  cases h with
  | go meanwhile stage replaces world job => exact ⟨_, meanwhile, .go stage replaces world job⟩
  | conclude meanwhile stage past => exact ⟨_, meanwhile, .conclude stage past⟩
  | crash meanwhile stage fault => exact ⟨_, meanwhile, .crash stage fault⟩

/-- Every step that is made in a round can be noted down. -/
theorem Step.of_worker {k k' : Worker} {round : Bundle (Except Bus.Error Bool)} {v w' : World}
    (stage : k.stage = .polling round) (meanwhile : others x.world v) (step : k.Step v w' k') :
    ∃ y : Chronicle, y.world = w' ∧ Step others (x, k) (y, k') := by
  cases step with
  | go stage replaces world job => exact ⟨_, rfl, .go meanwhile stage replaces world job⟩
  | conclude stage past => exact ⟨_, rfl, .conclude meanwhile stage past⟩
  | crash stage fault => exact ⟨_, rfl, .crash meanwhile stage fault⟩
  | stir resting => cases stage.symm.trans resting
  | rested resting => cases stage.symm.trans resting
  | stopped resting => cases stage.symm.trans resting

theorem exists_step (time : ∀ w v, w.Passes v → others w v) {k : Worker}
    {round : Bundle (Except Bus.Error Bool)} (stage : k.stage = .polling round) :
    ∃ z, Step others (x, k) z := by
  obtain ⟨⟨w', k'⟩, v, passes, step⟩ := Worker.exists_step (w := x.world) stage
  obtain ⟨y, -, noted⟩ := Step.of_worker stage (time _ v passes) step
  exact ⟨_, noted⟩

/-- All polls of a round over so many partitions have ended. -/
def Ended (c : Consumer) (signal : Option Signal) (n : Nat) (x : Chronicle)
    (results : Nat → Except Bus.Error Bool) : Prop :=
  ∀ p, p < n → (c.pollPartition signal p).After (x.now p) (.done (results p))

/-- How many of them settled a record. -/
def gain (n : Nat) (results : Nat → Except Bus.Error Bool) : Nat :=
  ((List.range n).map fun p => if isSettled (results p) then 1 else 0).sum

theorem gain_eq_countP (n : Nat) (results : Nat → Except Bus.Error Bool) :
    gain n results = ((List.range n).map results).countP isSettled := by
  rw [gain]
  induction List.range n with
  | nil => rfl
  | cons p ps ih =>
    rw [List.map_cons, List.sum_cons, List.map_cons, List.countP_cons, ih, Nat.add_comm]

/-- A consumer that drains so many partitions and is in the middle of a round. -/
structure Drains (c : Consumer) (signal : Option Signal) (n : Nat) (x : Chronicle) (k : Worker)
    (round : Bundle (Except Bus.Error Bool)) : Prop where
  consumer : k.consumer = c
  mode : k.mode = .drain
  signals : k.signal = signal
  total : k.total = x.settled
  stage : k.stage = .polling round
  numbers : (round.jobs.map Prod.fst).Perm (List.range n)
  paths : ∀ y ∈ round.jobs, (c.pollPartition signal y.1).After (x.now y.1) y.2

/-- A drain ends with the error of a poll, or if no poll has settled a record. -/
inductive Outcome (n : Nat) (results : Nat → Except Bus.Error Bool) (settled : Nat) :
    Except Bus.Error Nat → Prop
  | failed {p : Nat} (inside : p < n) {e : Bus.Error} (error : results p = .error e)
      (e' : Bus.Error) : Outcome n results settled (.error e')
  | finished (none : ∀ p, p < n → results p = .ok false) : Outcome n results settled (.ok settled)

namespace Drains

variable {k : Worker} {round round' : Bundle (Except Bus.Error Bool)}

theorem go (h : x.Drains c signal n k round) {p : Nat} {j j' : Job (Except Bus.Error Bool)}
    (replaces : round.Replaces p j j' round') {e : Encounter} (job : j.Meets e j') (w' : World) :
    p < n ∧ (c.pollPartition signal p).After (x.now p) j ∧
      (x.note w' p e).Drains c signal n { k with stage := .polling round' } round' := by
  obtain ⟨inside, mem, numbers, jobs⟩ := replaces.parts h.numbers
  refine ⟨inside, h.paths _ mem, h.consumer, h.mode, h.signals, h.total, rfl, numbers, ?_⟩
  intro y mem'
  rcases jobs y mem' with rfl | ⟨stayed, other⟩
  · show (c.pollPartition signal p).After (Function.update x.now p (x.now p ++ [e]) p) j'
    rw [Function.update_self]
    exact (h.paths _ mem).snoc job
  · show (c.pollPartition signal y.1).After (Function.update x.now p (x.now p ++ [e]) y.1) y.2
    rw [Function.update_of_ne other]
    exact h.paths y stayed

/-- The results of a round, partition by partition. -/
theorem ended (h : x.Drains c signal n k round) {rs : List (Except Bus.Error Bool)}
    (past : (round.jobs.map Prod.snd).Perm (rs.map .done)) :
    ∃ results, x.Ended c signal n results ∧ rs.Perm ((List.range n).map results) := by
  have each (p : Nat) : ∃ r, p < n → (c.pollPartition signal p).After (x.now p) (.done r) := by
    by_cases inside : p < n
    · have number := h.numbers.mem_iff.mpr (List.mem_range.mpr inside)
      obtain ⟨y, mem, rfl⟩ := List.mem_map.mp number
      obtain ⟨r, -, same⟩ := List.mem_map.mp (past.mem_iff.mp (List.mem_map_of_mem mem))
      exact ⟨r, fun _ => same ▸ h.paths y mem⟩
    · exact ⟨.ok false, fun less => absurd less inside⟩
  choose results ends using each
  refine ⟨results, ends, ?_⟩
  have jobs : round.jobs.map Prod.snd =
      (round.jobs.map Prod.fst).map fun p => Job.done (results p) := by
    rw [List.map_map]
    refine List.map_congr_left fun y mem => ?_
    have inside := List.mem_range.mp (h.numbers.mem_iff.mp (List.mem_map_of_mem mem))
    exact (h.paths y mem).unique (ends y.1 inside)
  have numbered := h.numbers.map fun p => Job.done (results p)
  rw [← jobs] at numbered
  have injective : Function.Injective (Job.done : Except Bus.Error Bool → Job _) :=
    fun r r' same => Job.done.inj same
  refine (List.map_perm_map_iff injective).mp ?_
  rw [List.map_map]
  exact past.symm.trans numbered

theorem fault (h : x.Drains c signal n k round) {p : Nat} {f : Fault}
    (fault : (p, .fault f) ∈ round.jobs) :
    p < n ∧ (c.pollPartition signal p).After (x.now p) (.fault f) :=
  ⟨List.mem_range.mp (h.numbers.mem_iff.mp (List.mem_map_of_mem fault)), h.paths _ fault⟩

/-- The first step of a round has yet to be made. -/
theorem begin {w : World} (partitions : w.bus.partitions = n) (consumer : k.consumer = c)
    (mode : k.mode = .drain) (signals : k.signal = signal) (total : k.total = x.settled)
    (fresh : ∀ p, x.now p = []) : ∃ round, x.Drains c signal n (k.begin w) round := by
  have other : ¬ (k.mode = .forever ∧ k.isRaised w) := by simp [mode]
  rw [Worker.begin, if_neg other]
  refine ⟨_, consumer, mode, signals, total, rfl, .of_eq ?_, fun y mem => ?_⟩
  · simp [Bundle.numbers_ofList, partitions]
  · obtain ⟨p, inside, rfl⟩ := List.mem_mapIdx.mp mem
    rw [List.getElem_map, List.getElem_range, consumer, signals, fresh]
    exact .here _

/-- After a round the drain has ended, or another round begins and more has been settled. -/
theorem conclude (h : x.Drains c signal n k round) {rs : List (Except Bus.Error Bool)}
    (past : (round.jobs.map Prod.snd).Perm (rs.map .done)) {v : World}
    (partitions : v.bus.partitions = n) :
    ∃ results, x.Ended c signal n results ∧ rs.countP isSettled = gain n results ∧
      ((∃ r, Outcome n results x.settled r ∧
          (k.conclude v (Consumer.settled rs)).stage = .ended r) ∨
        (∀ p, p < n → ∃ b, results p = .ok b) ∧ 0 < gain n results ∧
          ∃ round', (x.close v (gain n results)).Drains c signal n
            (k.conclude v (Consumer.settled rs)) round') := by
  obtain ⟨results, ended, perm⟩ := h.ended past
  have count : rs.countP isSettled = gain n results := by
    rw [gain_eq_countP]
    exact perm.countP_eq _
  refine ⟨results, ended, count, ?_⟩
  by_cases failed : ∃ p, p < n ∧ ∃ e, results p = .error e
  · obtain ⟨p, inside, e, error⟩ := failed
    have mem : .error e ∈ rs :=
      perm.mem_iff.mpr (error ▸ List.mem_map_of_mem (List.mem_range.mpr inside))
    obtain ⟨e', failed⟩ := settled_of_error mem
    refine .inl ⟨.error e', .failed inside error e', ?_⟩
    simp [Worker.conclude, h.mode, failed]
  · have ok : ∀ p, p < n → ∃ b, results p = .ok b := by
      intro p inside
      cases result : results p with
      | ok b => exact ⟨b, rfl⟩
      | error e => exact absurd ⟨p, inside, e, result⟩ failed
    have all : ∀ r ∈ rs, ∃ b, r = .ok b := by
      intro r mem
      obtain ⟨p, inside, rfl⟩ := List.mem_map.mp (perm.mem_iff.mp mem)
      exact ok p (List.mem_range.mp inside)
    rw [settled_of_ok all, count]
    cases some : gain n results with
    | zero =>
      refine .inl ⟨.ok x.settled, .finished fun p inside => ?_, ?_⟩
      · rw [gain_eq_countP, List.countP_eq_zero] at some
        have unsettled := some _ (List.mem_map_of_mem (List.mem_range.mpr inside))
        obtain ⟨b, result⟩ := ok p inside
        cases b with
        | false => exact result
        | true => exact absurd (isSettled_iff.mpr result) unsettled
      · simp [Worker.conclude, h.mode, h.total]
    | succ m =>
      have next : k.conclude v (.ok (m + 1)) =
          Worker.begin { k with total := k.total + (m + 1) } v := by
        simp [Worker.conclude, h.mode]
      rw [next]
      refine .inr ⟨ok, Nat.succ_pos m, ?_⟩
      exact Drains.begin partitions h.consumer h.mode h.signals (congrArg (· + (m + 1)) h.total)
        fun _ => rfl

end Drains

/-- A statement that every step of a drain keeps until another one is true, and that bounds the
number of records that are settled. -/
structure Upholds (c : Consumer) (signal : Option Signal) (n : Nat)
    (others : World → World → Prop) (I : Chronicle → Prop) (P : Chronicle × Worker → Prop)
    (most : Nat) : Prop where
  time : ∀ w v, w.Passes v → others w v
  partitions : ∀ x v, I x → others x.world v → v.bus.partitions = n
  bound : ∀ x, I x → x.settled ≤ most
  go : ∀ x v w' p j j' e, I x → others x.world v → p < n →
    (c.pollPartition signal p).After (x.now p) j → v.Meets e w' → j.Meets e j' →
    I (x.note w' p e) ∨ ∀ k, P (x.note w' p e, k)
  again : ∀ x v results, I x → others x.world v → x.Ended c signal n results →
    (∀ p, p < n → ∃ b, results p = .ok b) → I (x.close v (gain n results))
  ended : ∀ x v results r k, I x → others x.world v → x.Ended c signal n results →
    Outcome n results x.settled r → k.stage = .ended r → P (x.close v (gain n results), k)
  fault : ∀ x v p f k, I x → others x.world v → p < n →
    (c.pollPartition signal p).After (x.now p) (.fault f) → k.stage = .crashed f →
    P ({ x with world := v }, k)

/-- Whatever the order of its steps, the drain comes to its end. -/
theorem Upholds.inevitable {I : Chronicle → Prop} {P : Chronicle × Worker → Prop} {most : Nat}
    (upholds : Upholds c signal n others I P most) {k : Worker}
    {round : Bundle (Except Bus.Error Bool)} (h : x.Drains c signal n k round) (kept : I x) :
    Inevitable (Step others) P (x, k) := by
  induction room : most - x.settled using Nat.strongRecOn generalizing x k round with
  | ind left again =>
    -- Within a round, every step leaves smaller jobs.
    induction jobs : (round.jobs.map Prod.snd : Multiset (Job (Except Bus.Error Bool))) using
      (Job.wellFounded_meets _).cutExpand.induction generalizing x k round with
    | _ js ih =>
      refine .later (exists_step upholds.time h.stage) ?_
      rintro z step
      cases step with
      | @go _ _ v w' _ round' p j j' e meanwhile stage replaces world job =>
        obtain rfl := Stage.polling.inj (h.stage.symm.trans stage)
        obtain ⟨inside, path, next⟩ := h.go replaces job w'
        rcases upholds.go x v w' p j j' e kept meanwhile inside path world job with kept' | escaped
        · exact ih _ (jobs ▸ replaces.cutExpand job) next kept' room rfl
        · exact .now (escaped _)
      | @conclude _ _ v _ rs meanwhile stage past =>
        obtain rfl := Stage.polling.inj (h.stage.symm.trans stage)
        obtain ⟨results, ended, count, ⟨r, outcome, stage'⟩ | ⟨ok, some, round', next⟩⟩ :=
          h.conclude past (upholds.partitions x v kept meanwhile)
        · rw [count]
          exact .now (upholds.ended x v results r _ kept meanwhile ended outcome stage')
        · rw [count]
          have kept' := upholds.again x v results kept meanwhile ended ok
          have bound := upholds.bound _ kept'
          refine again _ ?_ next kept' rfl
          show most - (x.settled + gain n results) < left
          have bound : x.settled + gain n results ≤ most := bound
          omega
      | @crash _ _ v _ p f meanwhile stage fault =>
        obtain rfl := Stage.polling.inj (h.stage.symm.trans stage)
        obtain ⟨inside, path⟩ := h.fault fault
        exact .now (upholds.fault x v p f _ kept meanwhile inside path rfl)

/-- A drain from its beginning. -/
theorem Upholds.drain {I : Chronicle → Prop} {P : Chronicle × Worker → Prop} {most : Nat}
    {w : World} (upholds : Upholds c signal w.bus.partitions others I P most) (kept : I (start w)) :
    Inevitable (Step others) P (start w, c.start .drain signal w) := by
  obtain ⟨round, drains⟩ := Drains.begin (x := start w)
    (k := ⟨c, .drain, signal, 0, .polling (.ofList .numbered [])⟩) (w := w) rfl rfl rfl rfl rfl
    fun _ => rfl
  exact upholds.inevitable drains kept

end Chronicle

/-- A drain that is run. -/
def drained (c : Consumer) (w : World) : Turn × Pool Worker :=
  Pool.run Worker.machine 40 (.start w) (.ofList [c.start .drain none w])

end Consumer
end Shipyard

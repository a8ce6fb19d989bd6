import Mathlib.Algebra.Order.BigOperators.Group.List
import Shipyard.Proofs.Fulfilment.Shifts

/-!
# Drains come to an end

A worker that polls until nothing is left, with nobody beside it, comes to its end whatever the
order of its steps. A round ends because each of its jobs does; a round that settled something has
made the lag of the worker smaller; and a round that settled nothing has found every partition
empty, so that the worker has dealt with all records of its topic.
-/

namespace Shipyard

/-- The worker has dealt with all records of its topic. -/
def Duty.IsDone (d : Duty) (w : World) : Prop :=
  ∀ p, p < w.bus.partitions →
    (w.bus.log d.topic p).length ≤ w.bus.offset d.group d.topic p

def Duty.lag (d : Duty) (w : World) : Nat := w.bus.lag d.group d.topic

section Lag

variable {d : Duty} {w w' : World}

theorem Duty.lag_eq (d : Duty) (w : World) :
    d.lag w = ((List.range w.bus.partitions).map fun p =>
      (w.bus.log d.topic p).length - w.bus.offset d.group d.topic p).sum := rfl

theorem Duty.IsDone.lag_eq_zero (h : d.IsDone w) : d.lag w = 0 := by
  rw [Duty.lag_eq]
  refine List.sum_eq_zero fun n mem => ?_
  obtain ⟨p, inside, rfl⟩ := List.mem_map.mp mem
  have := h p (List.mem_range.mp inside)
  omega

theorem Duty.lag_congr (partitions : w'.bus.partitions = w.bus.partitions)
    (logs : ∀ p, w'.bus.log d.topic p = w.bus.log d.topic p)
    (offsets : ∀ p, w'.bus.offset d.group d.topic p = w.bus.offset d.group d.topic p) :
    d.lag w' = d.lag w := by
  rw [Duty.lag_eq, Duty.lag_eq, partitions]
  simp only [logs, offsets]

/-- A record that is settled makes the lag smaller; no other move of a worker changes it. -/
theorem Site.Move.lag {s : Site} {π π' : Place} (h : s.Move π w π' w') (sees : s.Sees w π) :
    (s.duty.lag w' = s.duty.lag w ∧ (π' = .settled → π = .settled)) ∨
      s.duty.lag w' < s.duty.lag w := by
  have confined := h.confined.1
  have logs (p : Nat) : w'.bus.log s.duty.topic p = w.bus.log s.duty.topic p := by
    refine confined.others _ p fun builder => ?_
    rw [builder]
    decide
  have alike (same : w.Alike w') : s.duty.lag w' = s.duty.lag w :=
    Duty.lag_congr confined.partitions logs fun p => by rw [same.bus]
  cases h with
  | idle same => exact .inl ⟨alike same, id⟩
  | locate same => exact .inl ⟨alike same, nofun⟩
  | take same => exact .inl ⟨alike same, nofun⟩
  | miss same => exact .inl ⟨alike same, nofun⟩
  | act does =>
    exact .inl ⟨Duty.lag_congr confined.partitions logs fun p => does.offset _ _ p, nofun⟩
  | @commit n e _ _ bus store outbox raised =>
    refine .inr ?_
    obtain ⟨offset, -, there⟩ := sees.knows
    obtain ⟨-, moved⟩ := Bus.commit_ok bus
    have inside : n < (w.bus.log s.duty.topic s.partition).length :=
      (List.getElem?_eq_some_iff.mp there).1
    have here : w.bus.offset s.duty.group s.duty.topic s.partition = n := offset
    rw [Duty.lag_eq, Duty.lag_eq, confined.partitions]
    refine List.sum_lt_sum _ _ (fun p _ => ?_) ⟨s.partition, List.mem_range.mpr sees.inside, ?_⟩
    · rw [logs p, moved, Bus.offset_commit]
      split
      · next same =>
        obtain ⟨-, -, rfl⟩ := same
        omega
      · exact Nat.le_refl _
    · rw [logs s.partition, moved, Bus.offset_commit, if_pos ⟨rfl, rfl, rfl⟩, here]
      omega
  | stop same => exact .inl ⟨alike same, nofun⟩

end Lag

namespace Consumer.Worker

/-- A worker that drains, alone and with no shutdown. -/
structure Draining (d : Duty) (w : World) (k : Worker) (pages : Pages) (places : Places) :
    Prop where
  books : Books pages w (w.handled places)
  atWork : k.AtWork d True w (places d)
  idle : ∀ d', d' ≠ d → places d' = outset
  mode : k.mode = .drain
  quiet : ∀ s, k.signal = some s → s ∉ w.raised

section Draining

variable {d : Duty} {w w' v : World} {k : Worker} {pages : Pages} {places : Places}
  {round : Bundle (Except Bus.Error Bool)}

theorem passes_kept (passes : w.Passes v) :
    v.store = w.store ∧ v.bus = w.bus ∧ v.outbox = w.outbox ∧ v.raised = w.raised := by
  obtain ⟨time, today, rfl⟩ := passes
  exact ⟨rfl, rfl, rfl, rfl⟩

/-- Time may pass at any moment of a drain. -/
theorem Draining.passes (h : Draining d w k pages places) (passes : w.Passes v) :
    Draining d v k pages places := by
  obtain ⟨store, bus, outbox, raised⟩ := passes_kept passes
  constructor
  case books =>
    rw [World.handled_of_bus bus]
    exact h.books.of_alike ⟨store, bus, outbox, raised⟩
  case atWork =>
    refine ⟨h.atWork.consumer, h.atWork.stage.stable (by rw [bus]) fun p => ?_⟩
    exact Site.untouched_of_eq bus (by rw [raised]; exact List.Subset.refl _)
  case idle => exact h.idle
  case mode => exact h.mode
  case quiet =>
    rw [raised]
    exact h.quiet

/-- A round that begins where nothing is left half done. -/
theorem Draining.anew (h : Draining d w k pages places) {k' : Worker}
    (credits : ∀ p, p < w.bus.partitions → (places d p).credit = 0)
    (atWork : k'.AtWork d True w outset) (mode : k'.mode = .drain)
    (signal : k'.signal = k.signal) : Draining d w k' pages Crew.atRest where
  books := by
    refine h.books.of_credits fun d' p inside => ?_
    by_cases same : d' = d
    · subst same
      rw [credits p inside]
      rfl
    · rw [h.idle d' same]
      rfl
  atWork := atWork
  idle _ _ := rfl
  mode := mode
  quiet := by
    rw [signal]
    exact h.quiet

theorem Draining.booked (h : Draining d w k pages Crew.atRest) : w.IsBooked := ⟨pages, h.books⟩

theorem Draining.inside_knows (h : Draining d w k pages places) (stage : k.stage = .polling round)
    {p : Nat} (inside : p < w.bus.partitions) :
    Site.Knows ⟨d, p, k.signal, True⟩ w (places d p) := by
  have isAt := h.atWork.stage
  rw [stage] at isAt
  obtain ⟨numbers, jobs⟩ := isAt
  have number : p ∈ round.jobs.map Prod.fst := numbers.mem_iff.mpr (List.mem_range.mpr inside)
  obtain ⟨x, mem, rfl⟩ := List.mem_map.mp number
  exact (jobs x mem).2

theorem Draining.sees (h : Draining d w k pages places) (stage : k.stage = .polling round)
    {p : Nat} (inside : p < w.bus.partitions) :
    Site.Sees ⟨d, p, k.signal, True⟩ w (places d p) :=
  ⟨h.books.fit, inside, h.inside_knows stage inside⟩

/-- A step of one poll of a drain. -/
theorem Draining.go (h : Draining d w k pages places) (stage : k.stage = .polling round)
    {round' : Bundle (Except Bus.Error Bool)} {i : Nat} {j j' : Job (Except Bus.Error Bool)}
    {e : Encounter} (replaces : round.Replaces i j j' round') (world : w.Meets e w')
    (job : j.Meets e j') :
    ∃ pages' π, Site.Move ⟨d, i, k.signal, True⟩ (places d i) w π w' ∧
      Draining d w' { k with stage := .polling round' } pages' (places.move d i π) ∧
      i < w.bus.partitions := by
  obtain ⟨pages', π, move, books, atWork, inside⟩ :=
    go_atWork stage replaces world job h.atWork h.books
  refine ⟨pages', π, move, ⟨books, atWork, fun d' other => ?_, h.mode, ?_⟩, inside⟩
  · funext p
    rw [places.move_other π (.inl other), h.idle d' other]
  · rw [move.confined.1.raised]
    exact h.quiet

/-- A round that settled nothing has found all partitions empty. -/
theorem Draining.isDone (h : Draining d w k pages places) (stage : k.stage = .polling round)
    (none : ∀ p, p < w.bus.partitions → (places d p).result? = some false) : d.IsDone w := by
  intro p inside
  have knows := h.inside_knows stage inside
  have place := none p inside
  cases at_ : places d p with
  | emptied n =>
    rw [at_] at knows
    obtain ⟨offset, length⟩ := knows trivial
    exact length.trans (Nat.le_of_eq offset.symm)
  | stopped =>
    rw [at_] at knows
    obtain ⟨s, own, up⟩ := knows
    exact absurd up (h.quiet s own)
  | _ =>
    rw [at_] at place
    cases place

end Draining

/-- What is the case when a drain that began in a world has ended. -/
def IsDrained (d : Duty) (w₀ : World) (x : World × Worker) : Prop :=
  (∃ total, x.2.stage = .ended (.ok total)) ∧
    x.1.IsBooked ∧ Crew.Kept [d] w₀ x.1 ∧ d.IsDone x.1

section Ends

variable {d : Duty} {w₀ w : World} {k : Worker} {pages : Pages} {places : Places}
  {round : Bundle (Except Bus.Error Bool)}

theorem conclude_fixed (k : Worker) (w : World) (r : Except Bus.Error Nat) :
    (k.conclude w r).mode = k.mode ∧ (k.conclude w r).signal = k.signal := by
  have fixed (k : Worker) : (k.begin w).mode = k.mode ∧ (k.begin w).signal = k.signal := by
    rw [begin]
    split <;> exact ⟨rfl, rfl⟩
  unfold conclude
  split
  · exact ⟨rfl, rfl⟩
  · exact ⟨rfl, rfl⟩
  · exact ⟨rfl, rfl⟩
  · exact fixed _
  · exact ⟨rfl, rfl⟩
  · exact ⟨rfl, rfl⟩
  · exact fixed k

/-- The end of a round: all is done, or another round begins, with a smaller lag. -/
theorem Draining.conclude (h : Draining d w k pages places) (stage : k.stage = .polling round)
    {rs : List (Except Bus.Error Bool)} (past : (round.jobs.map Prod.snd).Perm (rs.map .done))
    (kept : Crew.Kept [d] w₀ w) {lag : Nat}
    (less : (∃ p, p < w.bus.partitions ∧ places d p = .settled) → d.lag w < lag)
    (again : ∀ k' round', Draining d w k' pages Crew.atRest → k'.stage = .polling round' →
      d.lag w < lag → Inevitable Proceeds (IsDrained d w₀) (w, k')) :
    Inevitable Proceeds (IsDrained d w₀) (w, k.conclude w (settled rs)) := by
  have isAt := h.atWork.stage
  rw [stage] at isAt
  obtain ⟨ends, oks⟩ := results_isAt isAt past
  have all : ∀ r ∈ rs, ∃ b, r = .ok b := by
    intro r mem
    obtain ⟨p, b, -, -, ok⟩ := oks r mem
    exact ⟨b, ok⟩
  have credits (p : Nat) (inside : p < w.bus.partitions) : (places d p).credit = 0 := by
    obtain ⟨b, place, -⟩ := ends p inside
    exact Place.credit_of_result place
  obtain ⟨n, sum, none⟩ := settled_ok all
  obtain ⟨mode, signal⟩ := conclude_fixed k w (.ok n)
  have next : Draining d w (k.conclude w (.ok n)) pages Crew.atRest :=
    h.anew credits (conclude_atWork h.atWork.consumer n) (mode.trans h.mode) signal
  rw [sum]
  cases n with
  | zero =>
    have ended : (k.conclude w (.ok 0)).stage = .ended (.ok k.total) := by
      simp [Worker.conclude, h.mode]
    refine .now ⟨⟨k.total, ended⟩, next.booked, kept, h.isDone stage fun p inside => ?_⟩
    obtain ⟨b, place, mem⟩ := ends p inside
    cases b with
    | false => exact place
    | true => exact absurd mem (none.mp rfl)
  | succ n =>
    have polling : ∃ round', (k.conclude w (.ok (n + 1))).stage = .polling round' := by
      simp [Worker.conclude, begin, h.mode, Worker.round]
    obtain ⟨round', polling⟩ := polling
    refine again _ round' next polling (less ?_)
    have some : .ok true ∈ rs := by
      by_contra other
      exact absurd (none.mpr other) (Nat.succ_ne_zero n)
    obtain ⟨p, b, inside, place, ok⟩ := oks _ some
    cases ok
    exact ⟨p, inside, Place.settled_of_result place⟩

/-- A drain that is in the middle of a round comes to its end. -/
theorem Draining.inevitable (lag : Nat) : ∀ (w : World) (k : Worker) (pages : Pages)
    (places : Places) (round : Bundle (Except Bus.Error Bool)), Draining d w k pages places →
    k.stage = .polling round → Crew.Kept [d] w₀ w → d.lag w ≤ lag →
    ((∃ p, p < w.bus.partitions ∧ places d p = .settled) → d.lag w < lag) →
    Inevitable Proceeds (IsDrained d w₀) (w, k) := by
  induction lag using Nat.strongRecOn with
  | ind lag again =>
    intro w k pages places round
    -- Within a round, every step leaves smaller jobs.
    induction jobs : (round.jobs.map Prod.snd : Multiset (Job (Except Bus.Error Bool))) using
      (Job.wellFounded_meets _).cutExpand.induction generalizing w k pages places round with
    | _ js ih =>
      intro h stage kept most less
      refine .later (exists_step stage) ?_
      rintro ⟨w', k'⟩ ⟨v, passes, (step : k.Step v w' k')⟩
      obtain ⟨store, bus, -, -⟩ := passes_kept passes
      have h := h.passes passes
      have kept : Crew.Kept [d] w₀ v := kept.trans (Crew.kept_of_eq store bus)
      have same : d.lag v = d.lag w := by rw [Duty.lag_eq, Duty.lag_eq, bus]
      rw [← bus, ← same] at less
      rw [← same] at most
      cases step with
      | @go _ _ _ round' i j j' e stage₁ replaces world job =>
        obtain rfl := Stage.polling.inj (stage.symm.trans stage₁)
        obtain ⟨pages', π, move, next, inside⟩ := h.go stage replaces world job
        have lags : (d.lag w' = d.lag v ∧ (π = .settled → places d i = .settled)) ∨
            d.lag w' < d.lag v := move.lag (h.sees stage inside)
        obtain ⟨confined, -⟩ := move.confined
        refine ih _ ?_ _ _ pages' _ _ rfl next rfl
          (kept.trans (Crew.kept_of_confined (List.mem_singleton_self d) confined)) ?_ ?_
        · rw [← jobs]
          exact replaces.cutExpand job
        · omega
        · rintro ⟨p, inside', place⟩
          rw [confined.partitions] at inside'
          rcases lags with ⟨unchanged, old⟩ | smaller
          · have settled : places d p = .settled := by
              by_cases here : p = i
              · subst here
                rw [places.move_self] at place
                exact old place
              · rw [places.move_other π (.inr here)] at place
                exact place
            have := less ⟨p, inside', settled⟩
            omega
          · omega
      | conclude stage₁ past =>
        refine h.conclude stage₁ past kept less fun k' round' next polling smaller => ?_
        refine again (d.lag w') smaller w' k' pages Crew.atRest round' next polling kept
          (Nat.le_refl _) ?_
        rintro ⟨p, -, place⟩
        cases place
      | crash stage₁ fault =>
        have isAt := h.atWork.stage
        rw [stage₁] at isAt
        exact absurd fault (isAt.no_fault _ _)
      | stir stage₁ => rw [stage] at stage₁; cases stage₁
      | rested stage₁ => rw [stage] at stage₁; cases stage₁
      | stopped stage₁ => rw [stage] at stage₁; cases stage₁

end Ends

end Consumer.Worker

/-- Each of the workers drains its topic, from any world in which the books are right. -/
theorem Duty.drained (d : Duty) (build : Assembly.Config) (config : Consumer.Config) {w : World}
    (booked : w.IsBooked) :
    (d.consumer build config).Drained w fun w' =>
      w'.IsBooked ∧ Crew.Kept [d] w w' ∧ d.IsDone w' := by
  intro signal fresh
  obtain ⟨pages, books⟩ := booked
  let k := (d.consumer build config).start .drain signal w
  have draining : Consumer.Worker.Draining d w k pages Crew.atRest := by
    refine ⟨books, Consumer.Worker.begin_atWork ⟨build, config, rfl⟩, fun _ _ => rfl, ?_, ?_⟩
    · simp [k, Consumer.start, Consumer.Worker.begin]
    · simpa [k, Consumer.start, Consumer.Worker.begin] using fresh
  have polling : ∃ round, k.stage = .polling round := by
    simp [k, Consumer.start, Consumer.Worker.begin, Consumer.Worker.round]
  obtain ⟨round, polling⟩ := polling
  refine draining.inevitable (d.lag w) w k pages Crew.atRest round polling (.refl _ _)
    (Nat.le_refl _) ?_
  rintro ⟨p, -, place⟩
  cases place

end Shipyard

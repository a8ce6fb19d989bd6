import Shipyard.Proofs.Fulfilment.Causality
import Shipyard.Proofs.Fulfilment.Orders

/-!
# Completions of builds side by side

Completions of any number of builds run side by side, with order operations in between, while the
store works. A paid order can only become assembled, so a completion that comes too late finds the
order assembled; whoever has made the change, and nobody else, reports an assembled order and
counts it.
-/

namespace Shipyard

/-! ## Conditions that hold throughout -/

namespace Yard

/-- Reached by calls that may begin, while a condition on the world held all the time. -/
inductive Throughout (may : World → Call → Prop) (P : World → Prop) : Yard → Prop
  | empty (partitions : Nat) (measured : Bool) (today : Instant)
      (now : P (.empty partitions measured today)) :
      Throughout may P (.empty partitions measured today)
  | step {y y' : Yard} (before : Throughout may P y) (step : Step may y y') (now : P y'.world) :
      Throughout may P y'

namespace Throughout

variable {may : World → Call → Prop} {P : World → Prop} {y : Yard}

theorem now (h : Throughout may P y) : P y.world := by
  cases h with
  | empty _ _ _ now => exact now
  | step _ _ now => exact now

theorem reachable (h : Throughout may P y) : Reachable may y := by
  induction h with
  | empty n b d _ => exact .empty n b d
  | step _ step _ ih => exact ih.step step

/-- All that a call has met with, it met with under the condition. -/
theorem met {Q : Encounter → Prop} (h : Throughout may P y)
    (meets : ∀ w e w', P w → w.Meets e w' → Q e) : ∀ t ∈ y.threads, ∀ e ∈ t.trace, Q e := by
  induction h with
  | empty => intro t mem; cases mem
  | @step y y' before step _ ih =>
    intro t mem e he
    rcases step.mem_threads mem with mem | ⟨c, -, rfl⟩ | ⟨u, e', k, old, world, -, rfl⟩
    · exact ih t mem e he
    · cases he
    · rcases List.mem_append.mp he with he | he
      · exact ih u old e he
      · obtain rfl := List.mem_singleton.mp he
        exact meets _ _ _ before.now world

/-- A schedule under whose acts the condition is never broken. -/
theorem play (h : Throughout may P y) {acts : List Act}
    (allowed : ∀ w c, .begin c ∈ acts → may w c) (kept : ∀ z ∈ acts.scanl act y, P z.world) :
    Throughout may P (y.play acts) := by
  induction acts generalizing y with
  | nil => exact h
  | cons a acts ih =>
    rw [List.scanl_cons] at kept
    have later : ∀ z ∈ acts.scanl act (y.act a), P z.world :=
      fun z mem => kept z (List.mem_cons_of_mem _ mem)
    have first : Throughout may P (y.act a) := by
      have holds : P (y.act a).world := later _ (by cases acts <;> simp)
      rcases act_step y a fun c same => allowed y.world c (same ▸ List.mem_cons_self ..) with
        same | step
      · rw [same]
        exact h
      · exact .step h step holds
    exact ih first (fun w c mem => allowed w c (List.mem_cons_of_mem _ mem)) later

end Throughout
end Yard

/-! ## What a working store answers -/

namespace Store

def IsUp (s : Store) : Prop := s.readsDown = false ∧ s.writesDown = false

instance (s : Store) : Decidable s.IsUp := inferInstanceAs (Decidable (_ ∧ _))

/-- A working store refuses to assemble an order only if the order is missing or not paid. -/
theorem assemble_refused {s : Store} (up : s.IsUp) {id : OrderId} {now : Instant} {e : Error}
    (h : s.transition id .paid .assembled now = .error e) :
    (∃ i, e = .notFound i) ∨ ∃ i expected actual, e = .mismatch i expected actual := by
  have allowed : Order.Status.paid.canBecome .assembled = true := by decide
  rw [transition, Order.Change.target, if_neg (by simp [allowed]), if_neg (by simp [up.2])] at h
  cases found : s.orders.find? id with
  | none =>
    rw [found] at h
    exact .inl ⟨id, (Except.error.inj h).symm⟩
  | some o =>
    rw [found] at h
    by_cases paid : o.status = .paid
    · simp [paid, Order.apply, Order.Change.target, allowed] at h
    · simp only [ne_eq, paid, not_false_eq_true, if_true] at h
      exact .inr ⟨id, .paid, o.status, (Except.error.inj h).symm⟩

end Store

/-- No failure of the store, as far as a completion asks it. -/
def Encounter.IsServed : Encounter → Prop
  | .reply (.readOrder _) (.error _) => False
  | .reply (.changeOrder _ .paid .assembled) (.error e) =>
    ∃ outcome, Fulfilment.unassembled e = .ok outcome
  | _ => True

theorem Fulfilment.unassembled_ok {e : Store.Error}
    (h : (∃ i, e = .notFound i) ∨ ∃ i expected actual, e = .mismatch i expected actual) :
    ∃ outcome, unassembled e = .ok outcome := by
  rcases h with ⟨i, rfl⟩ | ⟨i, expected, actual, rfl⟩
  · exact ⟨.skipped, rfl⟩
  · cases actual with
    | assembled => exact ⟨.duplicate, rfl⟩
    | _ => exact ⟨.skipped, rfl⟩

theorem World.Meets.isServed {w w' : World} {e : Encounter} (up : w.store.IsUp)
    (h : w.Meets e w') : e.IsServed := by
  cases h with
  | answer r =>
    cases r with
    | readOrder id =>
      show Encounter.IsServed (.reply (.readOrder id) (w.store.read id))
      rw [Store.read, up.1]
      trivial
    | changeOrder id expected c =>
      simp only [World.answer, tried_map]
      cases changed : w.store.transition id expected c w.today with
      | ok x => cases expected <;> cases c <;> trivial
      | error e =>
        cases expected <;> cases c <;> try trivial
        exact Fulfilment.unassembled_ok (Store.assemble_refused up changed)
    | _ => trivial
  | _ => trivial

/-! ## What is assembled -/

namespace Order

/-- How many orders a change assembles. -/
def Change.assembles : Change → Nat
  | .paid _ _ => 0
  | .assembled => 1
  | .cancelled => 0

def isAssembled (o : Order) : Bool := o.status = .assembled

theorem apply_assembles {o o' : Order} {c : Change} {now : Instant} (h : o.apply c now = .ok o') :
    o'.isAssembled.toNat = o.isAssembled.toNat + c.assembles := by
  obtain ⟨allowed, rfl⟩ := apply_ok h
  revert allowed
  cases c <;> cases status : o.status <;>
    simp [Change.target, Change.assembles, isAssembled, status, Status.canBecome, Status.canPay,
      Status.canAssemble, Status.canCancel]

end Order

namespace Encounter

/-- How many orders are assembled by the encounter. -/
def assemblies : Encounter → Nat
  | .reply (.insertOrder o) (.ok _) => o.isAssembled.toNat
  | .reply (.changeOrder _ _ c) (.ok _) => c.assembles
  | _ => 0

/-- Whether an order is assembled by the encounter. -/
def assembles (id : OrderId) (e : Encounter) : Nat :=
  match e.write? with
  | some x => if x.id = id then e.assemblies else 0
  | none => 0

theorem assemblies_of_none {e : Encounter} (none : e.write? = none) : e.assemblies = 0 := by
  cases e with
  | woken => rfl
  | reply r x =>
    cases r with
    | insertOrder o =>
      cases x with
      | error e => rfl
      | ok => cases none
    | changeOrder id expected c =>
      cases x with
      | error e => rfl
      | ok o => cases none
    | _ => rfl

end Encounter

namespace World

def isAssembled (w : World) (id : OrderId) : Bool :=
  (w.store.orders.find? id).any Order.isAssembled

def assembledCount (w : World) : Nat := w.store.orders.values.countP Order.isAssembled

namespace Meets

variable {w w' : World} {e : Encounter}

theorem assembled (h : w.Meets e w') {x : Encounter.Write} (write : e.write? = some x) :
    x.order.isAssembled.toNat = (w.isAssembled x.id).toNat + e.assemblies := by
  obtain ⟨wrote, -⟩ := h.wrote write
  cases wrote with
  | inserted o fresh => simp [isAssembled, fresh, Encounter.assemblies]
  | changed found applied =>
    simpa [isAssembled, found, Encounter.assemblies] using Order.apply_assembles applied

theorem assembles (h : w.Meets e w') (id : OrderId) :
    (w'.isAssembled id).toNat = (w.isAssembled id).toNat + e.assembles id := by
  rw [Encounter.assembles]
  cases write : e.write? with
  | none => simp [isAssembled, h.unwritten write]
  | some x =>
    have added := h.assembled write
    by_cases same : x.id = id
    · subst same
      simp [isAssembled, (h.written write).1] at added ⊢
      exact added
    · simp [isAssembled, (h.written write).1, Table.find?_put, same]

theorem assemblies (h : w.Meets e w') :
    w'.assembledCount = w.assembledCount + e.assemblies := by
  unfold assembledCount
  cases write : e.write? with
  | none => rw [h.unwritten write, Encounter.assemblies_of_none write, Nat.add_zero]
  | some x =>
    have added := h.assembled write
    have total := Table.countP_values_put Order.isAssembled w.store.orders x.id x.order
    rw [isAssembled] at added
    rw [(h.written write).1]
    omega

end Meets
end World

namespace Yard.Reachable

variable {may : World → Call → Prop} {y : Yard}

theorem assembles (h : Reachable may y) (id : OrderId) :
    (y.world.isAssembled id).toNat =
      (y.threads.map fun t => (t.trace.map (Encounter.assembles id)).sum).sum :=
  h.accounts (f := fun w => (w.isAssembled id).toNat) (fun _ _ _ => rfl)
    (fun w x => by cases x <;> rfl) fun _ _ _ met => met.assembles id

theorem assemblies (h : Reachable may y) :
    y.world.assembledCount = (y.threads.map fun t => (t.trace.map Encounter.assemblies).sum).sum :=
  h.accounts (f := World.assembledCount) (fun _ _ _ => rfl)
    (fun w x => by cases x <;> rfl) fun _ _ _ met => met.assemblies

end Yard.Reachable

/-! ## One completion -/

namespace Fulfilment

variable {id : OrderId} {tr : Trace} {j : Job (Except HandlerError BuildOutcome)}

theorem unassembled_ne_assembled (e : Store.Error) : unassembled e ≠ .ok .assembled := by
  cases e with
  | mismatch i expected actual => cases actual <;> simp [unassembled]
  | _ => simp [unassembled]

namespace Completing

/-- With a working store a completion has not failed; until it has ended it has a request to make,
of which there are three. -/
theorem proceeds (h : Completing id tr j) (served : ∀ e ∈ tr, e.IsServed) :
    (∃ outcome, j = .done (.ok outcome)) ∨ tr.length < 3 ∧ ∃ r k, j = .ask r k := by
  cases h with
  | unread e => exact (served (.reply (.readOrder id) (.error e)) (by simp)).elim
  | refused o paid e =>
    obtain ⟨outcome, answer⟩ :=
      served (.reply (.changeOrder id .paid .assembled) (.error e)) (by simp)
    exact .inl ⟨outcome, by rw [answer]⟩
  | begun k => exact .inr ⟨by simp, _, k, rfl⟩
  | paid o paid k => exact .inr ⟨by simp, _, k, rfl⟩
  | changed o paid o' k => exact .inr ⟨by simp, _, k, rfl⟩
  | _ => exact .inl ⟨_, rfl⟩

/-- A change that was refused came after the order was read as paid. -/
theorem late (h : Completing id tr j) {e : Store.Error}
    (mem : .reply (.changeOrder id .paid .assembled) (.error e) ∈ tr) :
    ∃ o, o.status = .paid ∧ tr = [.reply (.readOrder id) (.ok (some o))] ++
      .reply (.changeOrder id .paid .assembled) (.error e) :: [] := by
  cases h with
  | refused o paid e' =>
    obtain rfl : e = e' := by simpa using mem
    exact ⟨o, paid, rfl⟩
  | _ => simp at mem

variable {outcome : BuildOutcome}
  (settled : ∀ e, .reply (.changeOrder id .paid .assembled) (.error e) ∈ tr →
    Encounter.FindsSettled id (.reply (.changeOrder id .paid .assembled) (.error e)))

include settled in
/-- An order that was read as paid is not skipped. -/
theorem of_paid (h : Completing id tr (.done (.ok outcome))) {o : Order}
    (read : .reply (.readOrder id) (.ok (some o)) ∈ tr) (paid : o.status = .paid) :
    outcome = .assembled ∨ outcome = .duplicate := by
  generalize ended : (Job.done (.ok outcome) : Job (Except HandlerError BuildOutcome)) = j at h
  cases h with
  | absent => simp at read
  | duplicate o' _ =>
    cases ended
    exact .inr rfl
  | unsettled o' unsettled =>
    obtain rfl : o = o' := by simpa using read
    rw [paid] at unsettled
    cases unsettled
  | refused o' _ e =>
    have answer : unassembled e = .ok outcome := (Job.done.inj ended).symm
    have kept := change_settled (settled e (by simp))
    rw [answer] at kept
    cases outcome with
    | assembled => exact .inl rfl
    | duplicate => exact .inr rfl
    | skipped => exact absurd rfl kept
  | assembled =>
    cases ended
    exact .inl rfl
  | _ => cases ended

include settled in
/-- An order that was skipped was read, as one that is not paid, and nothing more. -/
theorem of_skipped (h : Completing id tr (.done (.ok .skipped))) :
    ∃ x : Option Order, tr = [.reply (.readOrder id) (.ok x)] ∧
      ∀ o, x = some o → o.status = .pendingPayment ∨ o.status = .cancelled := by
  generalize ended : (Job.done (.ok .skipped) : Job (Except HandlerError BuildOutcome)) = j at h
  cases h with
  | absent => exact ⟨none, rfl, fun o same => by cases same⟩
  | unsettled o unsettled =>
    refine ⟨some o, rfl, fun o' same => ?_⟩
    cases same
    cases status : o.status with
    | pendingPayment => exact .inl rfl
    | cancelled => exact .inr rfl
    | paid => simp [status, Order.Status.isSettled] at unsettled
    | assembled => simp [status, Order.Status.isSettled] at unsettled
  | refused o paid e =>
    have answer : unassembled e = .ok .skipped := (Job.done.inj ended).symm
    exact absurd answer (change_settled (settled e (by simp)))
  | _ => cases ended

end Completing
end Fulfilment

/-! ## All completions -/

namespace Encounter

/-- An encounter by which no order is assembled and no assembled order counted. -/
structure IsAside (e : Encounter) : Prop where
  assembles : ∀ id, e.assembles id = 0
  assemblies : e.assemblies = 0
  counts : e.counts (.orders .assembled) = 0

theorem isAside_of {e : Encounter} (assemblies : e.assemblies = 0)
    (counts : e.counts (.orders .assembled) = 0) : e.IsAside := by
  refine ⟨fun id => ?_, assemblies, counts⟩
  unfold assembles
  split
  · rw [assemblies, ite_self]
  · rfl

end Encounter

/-- The order operations assemble nothing. -/
theorem Call.IsOrdering.aside {c : Call} (h : c.IsOrdering) {tr : Trace} {j : Job c.Result}
    (path : c.job.After tr j) : ∀ e ∈ tr, e.IsAside := by
  intro e mem
  cases h with
  | create deadline user parts method =>
    cases e with
    | woken => exact Encounter.isAside_of rfl rfl
    | reply r x =>
      have taking := (Fulfilment.create_taking deadline user parts method).of_mem path mem
      cases r with
      | insertOrder o =>
        have pending : o.status = .pendingPayment ∧ o.transaction = none := by
          simpa [Request.isTaking] using taking
        refine Encounter.isAside_of ?_ rfl
        cases x with
        | error e => rfl
        | ok => simp [Encounter.assemblies, Order.isAssembled, pending.1]
      | count c n =>
        refine Encounter.isAside_of rfl ?_
        cases c with
        | orders m =>
          cases m with
          | created => rfl
          | _ => cases taking
        | _ => cases taking
      | changeOrder => cases taking
      | _ => exact Encounter.isAside_of rfl rfl
  | pay deadline id method =>
    -- All encounters of a payment are listed by its course.
    have aside : e.assemblies = 0 ∧ e.counts (.orders .assembled) = 0 := by
      revert e
      cases Fulfilment.pay_course path with
      | won o now u o' rest =>
        cases rest <;>
          simp [Fulfilment.toCharge, Encounter.assemblies, Encounter.counts, Order.Change.assembles]
      | _ => simp [Fulfilment.toCharge, Encounter.assemblies, Encounter.counts]
    exact Encounter.isAside_of aside.1 aside.2
  | cancel id =>
    have aside : e.assemblies = 0 ∧ e.counts (.orders .assembled) = 0 := by
      revert e
      cases Fulfilment.cancel_course path <;>
        simp [Encounter.assemblies, Encounter.counts, Order.Change.assembles]
    exact Encounter.isAside_of aside.1 aside.2

namespace Thread

/-- The completion of a build, returned with an order that it has assembled. -/
def isBuilt : Thread → Bool
  | ⟨.complete _, _, .done (.ok .assembled)⟩ => true
  | _ => false

/-- The completion of a build of an order, returned with the order assembled by it. -/
def hasBuilt (id : OrderId) : Thread → Bool
  | ⟨.complete b, _, .done (.ok .assembled)⟩ => b.order = id
  | _ => false

/-- The completion of a build that has assembled an order and not counted it yet. -/
def isCounting : Thread → Bool
  | ⟨.complete _, _, .ask (.count _ _) _⟩ => true
  | _ => false

/-- An order is assembled by one completion, which then counts it. -/
theorem balance_of_completing {b : BuildCompleted} {tr : Trace}
    {j : Job (Except HandlerError Fulfilment.BuildOutcome)}
    (h : Fulfilment.Completing b.order tr j) :
    (tr.map Encounter.assemblies).sum =
        (isBuilt ⟨.complete b, tr, j⟩).toNat + (isCounting ⟨.complete b, tr, j⟩).toNat ∧
      (tr.map (Encounter.counts (.orders .assembled))).sum =
        (isBuilt ⟨.complete b, tr, j⟩).toNat ∧
      ∀ id, (hasBuilt id ⟨.complete b, tr, j⟩).toNat ≤ (tr.map (Encounter.assembles id)).sum := by
  cases h with
  | refused o paid e =>
    have other := Fulfilment.unassembled_ne_assembled e
    cases answer : Fulfilment.unassembled e with
    | error x =>
      simp [isBuilt, isCounting, hasBuilt, Encounter.assemblies, Encounter.counts]
    | ok outcome =>
      cases outcome with
      | assembled => exact absurd answer other
      | _ => simp [isBuilt, isCounting, hasBuilt, Encounter.assemblies, Encounter.counts]
  | assembled o paid o' =>
    refine ⟨rfl, rfl, fun id => ?_⟩
    by_cases same : b.order = id <;>
      simp [hasBuilt, Encounter.assembles, Encounter.write?, Encounter.assemblies,
        Order.Change.assembles, same]
  | _ =>
    simp [isBuilt, isCounting, hasBuilt, Encounter.assemblies, Encounter.counts,
      Order.Change.assembles]

end Thread

namespace Yard

/-- Order operations and completions of builds may begin at any time. -/
abbrev Building : World → Call → Prop := fun _ c => c.IsOrdering ∨ ∃ b, c = .complete b

/-- Reached by order operations and completions of builds, while the store was never down. -/
abbrev Steady : Yard → Prop := Throughout Building fun w => w.store.IsUp

variable {y : Yard}

namespace Reachable

theorem completing (h : Reachable Building y) {b : BuildCompleted} {tr : Trace}
    {j : Job (Except HandlerError Fulfilment.BuildOutcome)}
    (mem : ⟨.complete b, tr, j⟩ ∈ y.threads) : Fulfilment.Completing b.order tr j :=
  Fulfilment.complete_course (h.coherent _ mem)

/-- A call is a completion, or it assembles nothing. -/
theorem completes_or_aside (h : Reachable Building y) {t : Thread} (mem : t ∈ y.threads) :
    (∃ b tr j, t = ⟨.complete b, tr, j⟩ ∧ Fulfilment.Completing b.order tr j) ∨
      t.call.IsOrdering ∧ ∀ e ∈ t.trace, e.IsAside := by
  obtain ⟨_, _, _, ordering | ⟨b, same⟩⟩ := h.begun t mem
  · exact .inr ⟨ordering, ordering.aside (h.coherent t mem)⟩
  · obtain ⟨call, tr, j⟩ := t
    dsimp only at same
    subst same
    exact .inl ⟨b, tr, j, rfl, h.completing mem⟩

theorem building_balance (h : Reachable Building y) {t : Thread} (mem : t ∈ y.threads) :
    (t.trace.map Encounter.assemblies).sum = t.isBuilt.toNat + t.isCounting.toNat ∧
      (t.trace.map (Encounter.counts (.orders .assembled))).sum = t.isBuilt.toNat ∧
      ∀ id, (t.hasBuilt id).toNat ≤ (t.trace.map (Encounter.assembles id)).sum := by
  rcases h.completes_or_aside mem with ⟨b, tr, j, rfl, path⟩ | ⟨ordering, aside⟩
  · exact Thread.balance_of_completing path
  · have none : (t.trace.map Encounter.assemblies).sum = 0 :=
      Trace.sum_eq_zero fun e he => (aside e he).assemblies
    have uncounted : (t.trace.map (Encounter.counts (.orders .assembled))).sum = 0 :=
      Trace.sum_eq_zero fun e he => (aside e he).counts
    have flags : t.isBuilt = false ∧ t.isCounting = false ∧ ∀ id, t.hasBuilt id = false := by
      obtain ⟨call, tr, j⟩ := t
      cases ordering <;> exact ⟨rfl, rfl, fun _ => rfl⟩
    refine ⟨?_, ?_, fun id => ?_⟩
    · rw [none, flags.1, flags.2.1]
      rfl
    · rw [uncounted, flags.1]
      rfl
    · rw [flags.2.2 id]
      exact Nat.zero_le _

/-- The assembled orders are those that a completion has assembled. -/
theorem assembled_balance (h : Reachable Building y) :
    y.world.assembledCount =
      y.threads.countP Thread.isBuilt + y.threads.countP Thread.isCounting := by
  rw [h.assemblies, ← sum_toNat, ← sum_toNat, ← List.sum_map_add]
  exact congrArg List.sum (List.map_congr_left fun t mem => (h.building_balance mem).1)

/-- The counter of assembled orders shows the completions that have returned with one. -/
theorem assembled_counted (h : Reachable Building y) (on : y.world.meter.enabled = true) :
    y.world.meter.count (.orders .assembled) =
      y.threads.countP Thread.isBuilt % 0x10000000000000000 := by
  have same : (y.threads.map fun t =>
        (t.trace.map (Encounter.counts (.orders .assembled))).sum).sum =
      y.threads.countP Thread.isBuilt := by
    rw [← sum_toNat]
    exact congrArg List.sum (List.map_congr_left fun t mem => (h.building_balance mem).2.1)
  rw [h.counts _ on, same]

/-- An order is assembled once. -/
theorem built_le_assembled (h : Reachable Building y) (id : OrderId) :
    y.threads.countP (Thread.hasBuilt id) ≤ (y.world.isAssembled id).toNat := by
  rw [h.assembles, ← sum_toNat]
  exact List.sum_le_sum fun t mem => (h.building_balance mem).2.2 id

/-- A completion that comes too late finds the order paid, as it has read it, or assembled. -/
theorem late_settled (h : Reachable Building y) {b : BuildCompleted} {tr : Trace}
    {j : Job (Except HandlerError Fulfilment.BuildOutcome)}
    (mem : ⟨.complete b, tr, j⟩ ∈ y.threads) {e : Store.Error}
    (refused : .reply (.changeOrder b.order .paid .assembled) (.error e) ∈ tr) :
    Encounter.FindsSettled b.order
      (.reply (.changeOrder b.order .paid .assembled) (.error e)) := by
  obtain ⟨o, paid, trace⟩ := (h.completing mem).late refused
  -- The change is looked at when it was refused: the order had been read before, and was known.
  obtain ⟨y₀, w, t, reached, -, there, -, before, met⟩ := h.happened mem trace
  have read : .reply (.readOrder b.order) (.ok (some o)) ∈ t.trace := by simp [before]
  obtain ⟨o', found, older⟩ := reached.known t there _ read
  have settled : o.status.isSettled = true := by
    rw [paid]
    rfl
  exact ⟨y₀.world, w, o', met, found, Order.Status.isSettled_of_leadsTo older.status settled⟩

/-- A completion that was left out had looked at an order that was not paid then. -/
theorem skipped (h : Reachable Building y) {b : BuildCompleted} {tr : Trace}
    (mem : ⟨.complete b, tr, .done (.ok .skipped)⟩ ∈ y.threads) :
    ∃ y₀, Reachable Building y₀ ∧ Run Building y₀ y ∧
      (∃ t ∈ y₀.threads, t.call = .complete b ∧ t.trace = []) ∧
      tr = [.reply (.readOrder b.order) (.ok (y₀.world.store.orders.find? b.order))] ∧
      ∀ o, y₀.world.store.orders.find? b.order = some o →
        o.status = .pendingPayment ∨ o.status = .cancelled := by
  obtain ⟨x, rfl, unpaid⟩ :=
    (h.completing mem).of_skipped fun e refused => h.late_settled mem refused
  have only : ([.reply (.readOrder b.order) (.ok x)] : Trace) =
      [] ++ .reply (.readOrder b.order) (.ok x) :: [] := rfl
  obtain ⟨y₀, w, t, reached, run, there, call, before, met⟩ := h.happened mem only
  have told : .ok x = y₀.world.store.read b.order := met.reply (by simp)
  have same : x = y₀.world.store.orders.find? b.order := by
    rw [Store.read] at told
    split at told
    · cases told
    · exact Except.ok.inj told
  refine ⟨y₀, reached, run, ⟨t, there, call, before⟩, by rw [same], fun o found => ?_⟩
  exact unpaid o (same.trans found)

end Reachable

/-- Completions of builds that run side by side assemble each paid order once, whichever of them
comes first, and tell what they have done. -/
theorem builds_assemble_once (h : Steady y) :
    (∀ b tr j, ⟨.complete b, tr, j⟩ ∈ y.threads →
      (∃ outcome, j = .done (.ok outcome)) ∨ tr.length < 3 ∧ ∃ r k, j = .ask r k) ∧
    (∀ id, y.threads.countP (Thread.hasBuilt id) ≤ 1) ∧
    (∀ b tr outcome o, ⟨.complete b, tr, .done (.ok outcome)⟩ ∈ y.threads →
      .reply (.readOrder b.order) (.ok (some o)) ∈ tr → o.status = .paid →
      outcome = .assembled ∨ outcome = .duplicate) ∧
    (∀ b tr, ⟨.complete b, tr, .done (.ok .skipped)⟩ ∈ y.threads →
      ∃ y₀, Reachable Building y₀ ∧ Run Building y₀ y ∧
        (∃ t ∈ y₀.threads, t.call = .complete b ∧ t.trace = []) ∧
        tr = [.reply (.readOrder b.order) (.ok (y₀.world.store.orders.find? b.order))] ∧
        ∀ o, y₀.world.store.orders.find? b.order = some o →
          o.status = .pendingPayment ∨ o.status = .cancelled) ∧
    (∀ b tr, ⟨.complete b, tr, .done (.ok .duplicate)⟩ ∈ y.threads →
      ∃ o, y.world.store.orders.find? b.order = some o ∧ o.status = .assembled) ∧
    (y.world.meter.enabled = true → y.world.meter.count (.orders .assembled) =
      y.threads.countP Thread.isBuilt % 0x10000000000000000) ∧
    y.world.assembledCount =
      y.threads.countP Thread.isBuilt + y.threads.countP Thread.isCounting ∧
    ((∀ t ∈ y.threads, ∀ b, t.call = .complete b → t.isOver = true) →
      y.world.assembledCount = y.threads.countP Thread.isBuilt) := by
  have reached := h.reachable
  have served := h.met fun w e w' up met => met.isServed up
  refine ⟨?_, ?_, ?_, ?_, ?_, reached.assembled_counted, reached.assembled_balance, ?_⟩
  · intro b tr j mem
    exact (reached.completing mem).proceeds (served _ mem)
  · intro id
    exact (reached.built_le_assembled id).trans (Bool.toNat_le _)
  · intro b tr outcome o mem read paid
    have late := fun e refused => reached.late_settled mem (e := e) refused
    exact (reached.completing mem).of_paid late read paid
  · intro b tr mem
    exact reached.skipped mem
  · intro b tr mem
    exact (reached.completing mem).assembles (by simp) (reached.known _ mem)
  · intro finished
    have none : y.threads.countP Thread.isCounting = 0 := by
      rw [List.countP_eq_zero]
      intro t mem counting
      unfold Thread.isCounting at counting
      split at counting
      · have ended := finished _ mem _ rfl
        cases ended
      · cases counting
    rw [reached.assembled_balance, none, Nat.add_zero]

/-- The news that the ship of an order was built. -/
def built (id : OrderId) : BuildCompleted :=
  { event := ⟨⟨0⟩⟩, order := id, user := ⟨"u"⟩, seconds := 7 }

/-- One paid order is read by two completions before either of them writes; another completion is
about an order that nobody has made. -/
def racingBuilds : List Act :=
  takingOneOrder ++ [.begin (.pay (.ofSeconds 5) firstOrder .card)] ++
    List.replicate 9 (.move 1) ++
    [.begin (.complete (built firstOrder)), .begin (.complete (built firstOrder)),
      .begin (.complete (built secondOrder)), .move 2, .move 3, .move 3, .move 2, .move 4, .move 3]

theorem builds_assemble_once_racing :
    let y := (Yard.empty 1 true ⟨0, 0, 0⟩).play racingBuilds
    y.threads.length = 5 ∧ (∀ t ∈ y.threads, t.isOver = true) ∧
      y.threads.countP Thread.isBuilt = 1 ∧ y.world.assembledCount = 1 ∧
      y.world.meter.count (.orders .assembled) = 1 := by
  intro y
  have steady : Steady y := by
    refine Throughout.play (.empty 1 true ⟨0, 0, 0⟩ (by decide)) (fun w c mem => ?_) ?_
    · simp only [racingBuilds, takingOneOrder, List.mem_append, List.mem_cons, List.mem_replicate,
        Act.begin.injEq, reduceCtorEq, List.not_mem_nil, and_false, false_or, or_false] at mem
      rcases mem with (rfl | rfl) | rfl | rfl | rfl
      · exact .inl (.create _ _ _ _)
      · exact .inl (.pay _ _ _)
      · exact .inr ⟨_, rfl⟩
      · exact .inr ⟨_, rfl⟩
      · exact .inr ⟨_, rfl⟩
    · decide +kernel
  obtain ⟨-, -, -, -, -, counted, -, assembled⟩ := builds_assemble_once steady
  have finished : ∀ t ∈ y.threads, t.isOver = true := by decide +kernel
  have one : y.threads.countP Thread.isBuilt = 1 := by decide +kernel
  have all := assembled fun t mem _ _ => finished t mem
  have shown := counted (by decide +kernel)
  rw [one] at all shown
  exact ⟨by decide +kernel, finished, one, all, shown⟩

end Yard
end Shipyard

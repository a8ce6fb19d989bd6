import Shipyard.Proofs.Fulfilment.Course
import Shipyard.Proofs.Schedule
import Shipyard.Proofs.Service

/-!
# Payment safety

Of all payments of an order at most one succeeds, and none if the order was cancelled. What was
charged for an order is accounted for at every moment: one charge made it a paid one, and every
other charge belongs to a payment that failed after it, or that has yet to mark the order.
-/

namespace Shipyard

namespace Thread

/-- The payment of an order, returned without an error. -/
def isPaid (id : OrderId) : Thread → Bool
  | ⟨.pay _ i _, _, .done (.ok _)⟩ => i = id
  | _ => false

/-- The cancellation of an order, returned without an error. -/
def isCancelled (id : OrderId) : Thread → Bool
  | ⟨.cancel i, _, .done (.ok _)⟩ => i = id
  | _ => false

/-- The payment of an order, returned with an error after its charge was made. -/
def isChargedInVain (id : OrderId) : Thread → Bool
  | ⟨.pay _ i _, tr, .done (.error _)⟩ => i = id && tr.any fun e => e.charge?.isSome
  | _ => false

/-- The payment of an order, between its charge and the answer to its conditional change. A payment
that broke off there stays there. -/
def isBetween (id : OrderId) : Thread → Bool
  | ⟨.pay _ i _, tr, _⟩ =>
    i = id && (tr.any fun e => e.charge?.isSome) && !(tr.any fun e => e.isChange)
  | _ => false

end Thread

/-- A trace in which nothing was charged and nothing written. -/
def Trace.Calm (tr : Trace) : Prop := ∀ e ∈ tr, e.charge? = none ∧ e.write? = none

namespace Trace.Calm

variable {tr : Trace}

theorem charges (h : Calm tr) (id : OrderId) : (tr.map (Encounter.charges id)).sum = 0 :=
  sum_eq_zero fun e he => Encounter.charges_of_none (h e he).1 id

theorem settles (h : Calm tr) (id : OrderId) : (tr.map (Encounter.settles id)).sum = 0 :=
  sum_eq_zero fun e he => Encounter.settles_of_none (h e he).2 id

theorem uncharged (h : Calm tr) : (tr.any fun e => e.charge?.isSome) = false := by
  rw [List.any_eq_false]
  intro e he
  simp [(h e he).1]

end Trace.Calm

namespace Fulfilment

/-- An announcement neither charges nor writes, and does not fail. -/
theorem Announcing.calm {method : PaymentMethod} {t : TransactionId} {o : Order} {tr : Trace}
    {j : Job (Except Error TransactionId)} (h : Announcing method t o tr j) :
    Trace.Calm tr ∧ ∀ x, j ≠ .done (.error x) := by
  cases h <;> simp [Trace.Calm, Encounter.charge?, Encounter.write?]

/-- A payment succeeds only after it has marked its order. -/
theorem Paying.marked {id : OrderId} {method : PaymentMethod} {tr : Trace} {t : TransactionId}
    (h : Paying id method tr (.done (.ok t))) :
    ∃ o, .reply (.changeOrder id .pendingPayment (.paid t method)) (.ok o) ∈ tr := by
  generalize ended : (Job.done (.ok t) : Job (Except Error TransactionId)) = j at h
  cases h with
  | won o now u o' rest =>
    cases rest with
    | announced v p =>
      cases ended
      exact ⟨o', by simp⟩
    | unannounced v e =>
      cases ended
      exact ⟨o', by simp⟩
    | _ => cases ended
  | _ => cases ended

/-- What a payment charges is what it has read. -/
theorem Paying.charge_of_mem {id : OrderId} {method : PaymentMethod} {tr : Trace}
    {j : Job (Except Error TransactionId)} (h : Paying id method tr j) {c : Charge}
    (mem : .reply (.charge c) (.ok ()) ∈ tr) :
    ∃ o u, .reply (.readOrder id) (.ok (some o)) ∈ tr ∧ c = chargeOf o u method := by
  cases h with
  | aborted o now u f unspeakable =>
    exact ⟨o, u, by simp [toCharge], by simpa [toCharge] using mem⟩
  | charged o now u k => exact ⟨o, u, by simp [toCharge], by simpa [toCharge] using mem⟩
  | lost o now u e => exact ⟨o, u, by simp [toCharge], by simpa [toCharge] using mem⟩
  | @won o now u o' tr _ rest =>
    have later : .reply (.charge c) (.ok ()) ∉ tr := by
      intro later
      have none := (rest.calm.1 _ later).1
      simp [Encounter.charge?] at none
    exact ⟨o, u, by simp [toCharge], by simpa [toCharge, later] using mem⟩
  | _ => simp at mem

/-- Up to its charge a payment has charged its order once, and not marked it. -/
theorem toCharge_sums {i : OrderId} (id : OrderId) (method : PaymentMethod) {o : Order} (now : Nat)
    (u : Uuid) (named : o.id = i) :
    ((toCharge i method o now u).map (Encounter.charges id)).sum = (if i = id then 1 else 0) ∧
      ((toCharge i method o now u).map (Encounter.settles id)).sum = 0 := by
  subst named
  constructor
  · by_cases same : o.id = id <;>
      simp [toCharge, chargeOf, Encounter.charges, Encounter.charge?, same]
  · simp [toCharge, Encounter.settles, Encounter.write?]

end Fulfilment

namespace Thread

open Fulfilment

variable {id i : OrderId} {deadline : Span} {method : PaymentMethod} {tr : Trace}
  {j : Job (Except Fulfilment.Error TransactionId)}

theorem balance_of_calm (calm : Trace.Calm tr) :
    (tr.map (Encounter.charges id)).sum = (tr.map (Encounter.settles id)).sum +
      (isChargedInVain id ⟨.pay deadline i method, tr, j⟩).toNat +
      (isBetween id ⟨.pay deadline i method, tr, j⟩).toNat := by
  have vain : isChargedInVain id ⟨.pay deadline i method, tr, j⟩ = false := by
    cases j with
    | done x => cases x <;> simp [isChargedInVain, calm.uncharged]
    | _ => rfl
  have between : isBetween id ⟨.pay deadline i method, tr, j⟩ = false := by
    simp [isBetween, calm.uncharged]
  rw [calm.charges, calm.settles, vain, between]
  rfl

/-- Every charge of a payment has marked its order, or was in vain, or has yet to mark it. -/
theorem balance_of_paying (h : Paying i method tr j)
    (named : ∀ o, .reply (.readOrder i) (.ok (some o)) ∈ tr → o.id = i) :
    (tr.map (Encounter.charges id)).sum = (tr.map (Encounter.settles id)).sum +
      (isChargedInVain id ⟨.pay deadline i method, tr, j⟩).toNat +
      (isBetween id ⟨.pay deadline i method, tr, j⟩).toNat := by
  cases h with
  | begun k => exact balance_of_calm (by simp [Trace.Calm])
  | refused x e => exact balance_of_calm (by simp [Trace.Calm, Encounter.charge?, Encounter.write?])
  | found o k => exact balance_of_calm (by simp [Trace.Calm, Encounter.charge?, Encounter.write?])
  | timed o now k =>
    exact balance_of_calm (by simp [Trace.Calm, Encounter.charge?, Encounter.write?])
  | named o now u k =>
    exact balance_of_calm (by simp [Trace.Calm, Encounter.charge?, Encounter.write?])
  | declined o now u e e' =>
    exact balance_of_calm (by simp [Trace.Calm, Encounter.charge?, Encounter.write?])
  | aborted o now u f unspeakable =>
    obtain ⟨charges, settles⟩ := toCharge_sums id method now u
      (named o (by simp [toCharge]))
    rw [charges, settles]
    by_cases same : i = id <;>
      simp [isChargedInVain, isBetween, same, toCharge, Encounter.charge?, Encounter.isChange]
  | charged o now u k =>
    obtain ⟨charges, settles⟩ := toCharge_sums id method now u
      (named o (by simp [toCharge]))
    rw [charges, settles]
    by_cases same : i = id <;>
      simp [isChargedInVain, isBetween, same, toCharge, Encounter.charge?, Encounter.isChange]
  | lost o now u e =>
    obtain ⟨charges, settles⟩ := toCharge_sums id method now u
      (named o (by simp [toCharge]))
    rw [List.map_append, List.map_append, List.sum_append, List.sum_append, charges, settles]
    by_cases same : i = id <;>
      simp [isChargedInVain, isBetween, same, toCharge, Encounter.charges, Encounter.charge?,
        Encounter.settles, Encounter.write?, Encounter.isChange]
  | @won o now u o' tr j rest =>
    obtain ⟨charges, settles⟩ := toCharge_sums id method now u
      (named o (by simp [toCharge]))
    obtain ⟨calm, succeeds⟩ := rest.calm
    simp only [List.map_append, List.map_cons, List.sum_append, List.sum_cons, charges, settles,
      calm.charges, calm.settles]
    cases j with
    | done x =>
      cases x with
      | error e => exact absurd rfl (succeeds e)
      | ok t =>
        simp [isChargedInVain, isBetween, Encounter.charges, Encounter.charge?, Encounter.settles,
          Encounter.write?, Order.Change.settles, Encounter.isChange]
    | _ =>
      simp [isChargedInVain, isBetween, Encounter.charges, Encounter.charge?, Encounter.settles,
        Encounter.write?, Order.Change.settles, Encounter.isChange]

end Thread

namespace Yard

variable {y : Yard}

theorem Reachable.served (h : Reachable Serving y) : ∀ t ∈ y.threads, t.call.OfService := by
  intro t mem
  obtain ⟨_, _, _, service⟩ := h.begun t mem
  exact service

theorem Reachable.paying (h : Reachable Serving y) {deadline : Span} {id : OrderId}
    {method : PaymentMethod} {tr : Trace} {j : Job (Except Fulfilment.Error TransactionId)}
    (mem : ⟨.pay deadline id method, tr, j⟩ ∈ y.threads) : Fulfilment.Paying id method tr j :=
  Fulfilment.pay_course (h.coherent _ mem)

/-- An order that was read has the identifier that was asked for. -/
theorem Reachable.read_named (h : Reachable Serving y) {t : Thread} (mem : t ∈ y.threads)
    {id : OrderId} {o : Order} (read : .reply (.readOrder id) (.ok (some o)) ∈ t.trace) :
    o.id = id := by
  obtain ⟨o', found, older⟩ := h.known t mem _ read
  rw [← older.id]
  exact h.named id o' found

/-- A call is a payment, or it adds to no account of payments. -/
theorem Reachable.pays_or_spares (h : Reachable Serving y) {t : Thread} (mem : t ∈ y.threads) :
    (∃ deadline id method tr j, t = ⟨.pay deadline id method, tr, j⟩ ∧
      Fulfilment.Paying id method tr j) ∨
    ((∀ deadline id method, t.call ≠ .pay deadline id method) ∧ ∀ e ∈ t.trace, e.Spares) := by
  by_cases pays : ∃ deadline id method, t.call = .pay deadline id method
  · obtain ⟨deadline, id, method, same⟩ := pays
    obtain ⟨call, tr, j⟩ := t
    dsimp only at same
    subst same
    exact .inl ⟨deadline, id, method, tr, j, rfl, h.paying mem⟩
  · have other : ∀ deadline id method, t.call ≠ .pay deadline id method :=
      fun deadline id method same => pays ⟨deadline, id, method, same⟩
    exact .inr ⟨other, (h.served t mem).spares other (h.coherent t mem)⟩

theorem Reachable.balance (h : Reachable Serving y) (id : OrderId) {t : Thread}
    (mem : t ∈ y.threads) :
    (t.trace.map (Encounter.charges id)).sum = (t.trace.map (Encounter.settles id)).sum +
      (t.isChargedInVain id).toNat + (t.isBetween id).toNat := by
  rcases h.pays_or_spares mem with ⟨deadline, i, method, tr, j, rfl, path⟩ | ⟨other, spares⟩
  · exact Thread.balance_of_paying path fun o read => h.read_named mem read
  · have charges : (t.trace.map (Encounter.charges id)).sum = 0 :=
      Trace.sum_eq_zero fun e he => (spares e he).charges id
    have settles : (t.trace.map (Encounter.settles id)).sum = 0 :=
      Trace.sum_eq_zero fun e he => (spares e he).settles id
    have flags : t.isChargedInVain id = false ∧ t.isBetween id = false := by
      obtain ⟨call, tr, j⟩ := t
      cases call with
      | pay deadline i method => exact absurd rfl (other deadline i method)
      | _ => exact ⟨rfl, rfl⟩
    rw [charges, settles, flags.1, flags.2]
    rfl

/-- The sum of what calls did is the number of calls that did it. -/
theorem sum_toNat {α : Type} (P : α → Bool) (ts : List α) :
    (ts.map fun t => (P t).toNat).sum = ts.countP P := by
  induction ts with
  | nil => rfl
  | cons t ts ih => cases h : P t <;> simp [h, ih, Nat.add_comm]

theorem Reachable.ledger_balance (h : Reachable Serving y) (id : OrderId) :
    (y.world.ledger.chargesFor id).length = (y.world.isSettled id).toNat +
      y.threads.countP (Thread.isChargedInVain id) + y.threads.countP (Thread.isBetween id) := by
  rw [h.charges, h.settles, ← sum_toNat, ← sum_toNat, ← List.sum_map_add, ← List.sum_map_add]
  exact congrArg List.sum (List.map_congr_left fun t mem => h.balance id mem)

theorem Reachable.marked (h : Reachable Serving y) {t : Thread} (mem : t ∈ y.threads)
    {id : OrderId} (paid : t.isPaid id = true) :
    ∃ x m o, .reply (.changeOrder id .pendingPayment (.paid x m)) (.ok o) ∈ t.trace := by
  unfold Thread.isPaid at paid
  split at paid
  · next deadline i m tr x =>
    obtain rfl : i = id := by simpa using paid
    obtain ⟨o, marked⟩ := (h.paying mem).marked
    exact ⟨x, m, o, marked⟩
  · cases paid

/-- A payment that has marked an order has settled it. -/
theorem one_le_settles {tr : Trace} {id : OrderId} {x : TransactionId} {m : PaymentMethod}
    {o : Order} (marked : .reply (.changeOrder id .pendingPayment (.paid x m)) (.ok o) ∈ tr) :
    1 ≤ (tr.map (Encounter.settles id)).sum := by
  have one : Encounter.settles id
      (.reply (.changeOrder id .pendingPayment (.paid x m)) (.ok o)) = 1 := by
    simp [Encounter.settles, Encounter.write?, Order.Change.settles]
  rw [← one]
  exact List.le_sum_of_mem (List.mem_map_of_mem marked)

/-- The marks of an order, of which there is at most one. -/
theorem Reachable.paid_le_settled (h : Reachable Serving y) (id : OrderId) :
    y.threads.countP (Thread.isPaid id) ≤ (y.world.isSettled id).toNat := by
  rw [h.settles, ← sum_toNat]
  refine List.sum_le_sum fun t mem => ?_
  cases paid : t.isPaid id with
  | false => exact Nat.zero_le _
  | true =>
    obtain ⟨x, m, o, marked⟩ := h.marked mem paid
    exact one_le_settles marked

theorem Reachable.cancelled (h : Reachable Serving y) {id : OrderId} {t : Thread}
    (mem : t ∈ y.threads) (cancelled : t.isCancelled id = true) :
    ∃ o, y.world.store.orders.find? id = some o ∧ o.status = .cancelled := by
  unfold Thread.isCancelled at cancelled
  split at cancelled
  · next i tr x =>
    obtain rfl : i = id := by simpa using cancelled
    have path := Fulfilment.cancel_course (h.coherent _ mem)
    generalize ended : (Job.done (.ok x) : Job (Except Fulfilment.Error Unit)) = j at path
    cases path with
    | cancelled o =>
      obtain ⟨status, -, o', found, older⟩ := h.known _ mem
        (.reply (.changeOrder i .pendingPayment .cancelled) (.ok o)) (by simp)
      exact ⟨o', found, older.cancelled status⟩
    | _ => cases ended
  · cases cancelled

/-- What a payment has written is in the store for good. -/
theorem Reachable.mark_lasts (h : Reachable Serving y) {t : Thread} (mem : t ∈ y.threads)
    {id : OrderId} {x : TransactionId} {m : PaymentMethod} {o : Order}
    (marked : .reply (.changeOrder id .pendingPayment (.paid x m)) (.ok o) ∈ t.trace) :
    ∃ o', y.world.store.orders.find? id = some o' ∧ o'.status.isSettled = true ∧
      o'.transaction = some x ∧ o'.method = some m := by
  obtain ⟨status, settled, o', found, older⟩ := h.known t mem _ marked
  have paid : o.status.isSettled = true := by
    rw [status]
    rfl
  obtain ⟨transaction, method⟩ := older.payment paid
  refine ⟨o', found, Order.Status.isSettled_of_leadsTo older.status paid, ?_, ?_⟩
  · rw [transaction, ← settled]
    rfl
  · rw [method, ← settled]
    rfl

theorem Reachable.charge_fits (h : Reachable Serving y) {c : Charge}
    (recorded : c ∈ y.world.ledger.charges) :
    ∃ o, y.world.store.orders.find? c.order = some o ∧ c.amount = o.total ∧ c.user = o.user := by
  obtain ⟨t, mem, charge⟩ := h.charged recorded
  rcases h.pays_or_spares mem with ⟨deadline, i, method, tr, j, rfl, path⟩ | ⟨-, spares⟩
  · obtain ⟨o, u, read, rfl⟩ := path.charge_of_mem charge
    obtain ⟨o', found, older⟩ := h.known _ mem (.reply (.readOrder i) (.ok (some o))) read
    have named : (Fulfilment.chargeOf o u method).order = i := h.read_named mem read
    rw [named]
    exact ⟨o', found, older.total.symm, older.user.symm⟩
  · have none := (spares _ charge).charges c.order
    simp [Encounter.charges, Encounter.charge?] at none

/-- Payments of one order that run side by side, with cancellations, the workers and any failures
in between. -/
theorem payment_safety (h : Reachable Serving y) (id : OrderId) :
    y.threads.countP (Thread.isPaid id) ≤ 1 ∧
    (y.threads.any (Thread.isCancelled id) = true → ∀ y', Run Serving y y' →
      y'.threads.any (Thread.isPaid id) = false) ∧
    (∀ deadline m tr x, ⟨.pay deadline id m, tr, .done (.ok x)⟩ ∈ y.threads →
      ∃ o, .reply (.changeOrder id .pendingPayment (.paid x m)) (.ok o) ∈ tr) ∧
    (∀ t ∈ y.threads, ∀ x m o,
      .reply (.changeOrder id .pendingPayment (.paid x m)) (.ok o) ∈ t.trace →
      ∃ o', y.world.store.orders.find? id = some o' ∧ o'.status.isSettled = true ∧
        o'.transaction = some x ∧ o'.method = some m) ∧
    (y.world.ledger.chargesFor id).length = (y.world.isSettled id).toNat +
      y.threads.countP (Thread.isChargedInVain id) + y.threads.countP (Thread.isBetween id) ∧
    (∀ c ∈ y.world.ledger.chargesFor id, ∃ o, y.world.store.orders.find? id = some o ∧
      c.amount = o.total ∧ c.user = o.user) := by
  refine ⟨?_, ?_, ?_, ?_, h.ledger_balance id, ?_⟩
  · exact (h.paid_le_settled id).trans (Bool.toNat_le _)
  · intro any y' run
    obtain ⟨t, mem, cancelled⟩ := List.any_eq_true.mp any
    obtain ⟨o, found, status⟩ := h.cancelled mem cancelled
    obtain ⟨o', found', older⟩ := run.grows.orders id o found
    have unsettled : y'.world.isSettled id = false := by
      simp [World.isSettled, found', older.cancelled status, Order.Status.isSettled]
    have none := (h.run run).paid_le_settled id
    rw [unsettled, Bool.toNat_false, Nat.le_zero, List.countP_eq_zero] at none
    rw [List.any_eq_false]
    exact none
  · intro deadline m tr x mem
    exact (h.paying mem).marked
  · intro t mem x m o marked
    exact h.mark_lasts mem marked
  · intro c mem
    obtain ⟨charged, order⟩ := List.mem_filter.mp mem
    obtain rfl : c.order = id := by simpa using order
    exact h.charge_fits charged

/-- The first identifier that is given out. -/
def firstOrder : OrderId := ⟨World.mintedUuid 1⟩

/-- A part comes into stock, and one is ordered. -/
def takingOneOrder : List Act :=
  let bolt : Part := ⟨⟨"bolt"⟩, "Bolt", ⟨250, by decide⟩, 3⟩
  [.flip (.stock { Stock.empty with parts := Table.empty.put bolt.id bolt }),
    .begin (.create (.ofSeconds 5) ⟨"u"⟩ [bolt.id] none)] ++ List.replicate 6 (.move 0)

/-- All three are charged; the first one marks the order, the second one is too late, and the third
one has not tried yet. -/
def threePayments : List Act :=
  takingOneOrder ++
    [.begin (.pay (.ofSeconds 5) firstOrder .card), .begin (.pay (.ofSeconds 5) firstOrder .sbp),
      .begin (.pay (.ofSeconds 5) firstOrder .card)] ++
    List.replicate 4 (.move 1) ++ List.replicate 4 (.move 2) ++ List.replicate 4 (.move 3) ++
    List.replicate 5 (.move 1) ++ [.move 2]

theorem payment_safety_three_payments :
    let y := (Yard.empty 1 false ⟨0, 0, 0⟩).play threePayments
    y.threads.countP (Thread.isPaid firstOrder) = 1 ∧
      y.threads.countP (Thread.isChargedInVain firstOrder) = 1 ∧
      y.threads.countP (Thread.isBetween firstOrder) = 1 ∧
      (y.world.ledger.chargesFor firstOrder).length = 3 := by
  intro y
  have reached : Reachable Serving y := by
    refine Reachable.play (.empty 1 false ⟨0, 0, 0⟩) fun w c mem => ?_
    simp only [threePayments, takingOneOrder, List.mem_append, List.mem_cons, List.mem_replicate,
      Act.begin.injEq, reduceCtorEq, List.not_mem_nil, and_false, false_or, or_false] at mem
    rcases mem with rfl | rfl | rfl | rfl
    · exact .create _ _ _ _
    · exact .pay _ _ _
    · exact .pay _ _ _
    · exact .pay _ _ _
  obtain ⟨-, -, -, -, balance, -⟩ := payment_safety reached firstOrder
  have vain : y.threads.countP (Thread.isChargedInVain firstOrder) = 1 := by decide +kernel
  have between : y.threads.countP (Thread.isBetween firstOrder) = 1 := by decide +kernel
  have settled : y.world.isSettled firstOrder = true := by decide +kernel
  rw [vain, between, settled] at balance
  exact ⟨by decide +kernel, vain, between, balance⟩

end Yard
end Shipyard

import Shipyard.Proofs.Fulfilment.Safety

/-!
# Histories of orders

Whatever the calls of the service do side by side, an order has a transaction exactly if it was
paid, and two states of it differ by steps along the edges of its life and by nothing that an
order keeps. An operation of the store that is refused leaves the store as it is.
-/

namespace Shipyard

namespace Order

/-- The steps of an order's life. -/
inductive Status.Edge : Status → Status → Prop
  | pay : Edge .pendingPayment .paid
  | assemble : Edge .paid .assembled
  | cancel : Edge .pendingPayment .cancelled

theorem Status.edges_of_leadsTo {s t : Status} (h : s.leadsTo t = true) :
    Relation.ReflTransGen Edge s t := by
  have toPaid : Relation.ReflTransGen Edge .pendingPayment .paid := .single .pay
  cases s <;> cases t
  case pendingPayment.pendingPayment => exact .refl
  case pendingPayment.paid => exact toPaid
  case pendingPayment.assembled => exact toPaid.tail .assemble
  case pendingPayment.cancelled => exact .single .cancel
  case paid.paid => exact .refl
  case paid.assembled => exact .single .assemble
  case assembled.assembled => exact .refl
  case cancelled.cancelled => exact .refl
  all_goals simp [leadsTo] at h

theorem Status.isSettled_iff {s : Status} :
    s.isSettled = true ↔ s = .paid ∨ s = .assembled := by
  simp [isSettled]

/-- What is known of a payment fits the status. -/
structure IsBooked (o : Order) : Prop where
  transaction : o.transaction.isSome = o.status.isSettled
  method : o.status.isSettled = true → o.method.isSome = true

theorem isBooked_of_unpaid {o : Order} (pending : o.status = .pendingPayment)
    (free : o.transaction = none) : o.IsBooked := by
  constructor
  · rw [pending, free]
    rfl
  · intro settled
    rw [pending] at settled
    cases settled

theorem IsBooked.apply {o o' : Order} {c : Change} {now : Instant} (booked : o.IsBooked)
    (h : o.apply c now = .ok o') : o'.IsBooked := by
  obtain ⟨allowed, rfl⟩ := apply_ok h
  cases c with
  | paid t m => exact ⟨rfl, fun _ => rfl⟩
  | assembled =>
    have paid : o.status = .paid := by
      simpa [Change.target, Status.canBecome, Status.canAssemble] using allowed
    have settled : o.status.isSettled = true := by
      rw [paid]
      rfl
    exact ⟨booked.transaction.trans settled, fun _ => booked.method settled⟩
  | cancelled =>
    have pending : o.status = .pendingPayment := by
      simpa [Change.target, Status.canBecome, Status.canCancel] using allowed
    have free := booked.transaction
    rw [pending] at free
    exact ⟨free, fun settled => by cases settled⟩

end Order

namespace Encounter

/-- An operation of the store that gave an error. -/
def IsStoreRefusal : Encounter → Prop
  | .reply (.readOrder _) (.error _) => True
  | .reply (.insertOrder _) (.error _) => True
  | .reply (.changeOrder _ _ _) (.error _) => True
  | _ => False

end Encounter

namespace World.Meets

variable {w w' : World} {e : Encounter}

theorem store_of_refusal (h : w.Meets e w') (refusal : e.IsStoreRefusal) :
    w'.store = w.store := by
  cases h.alters with
  | insertOrder => cases refusal
  | changeOrder => cases refusal
  | setWritesDown => cases refusal
  | _ => rfl

/-- An order of the store was there before, or was put there, or is what a change made of it. -/
theorem order_origin (h : w.Meets e w') {id : OrderId} {o' : Order}
    (found : w'.store.orders.find? id = some o') :
    w.store.orders.find? id = some o' ∨ e = .reply (.insertOrder o') (.ok ()) ∨
      ∃ o c now, w.store.orders.find? id = some o ∧ o.apply c now = .ok o' := by
  cases write : e.write? with
  | none =>
    rw [h.unwritten write] at found
    exact .inl found
  | some x =>
    obtain ⟨wrote, orders⟩ := h.wrote write
    rw [orders, Table.find?_put] at found
    split at found
    · next here =>
      cases found
      subst here
      cases wrote with
      | inserted => exact .inr (.inl rfl)
      | changed there applied => exact .inr (.inr ⟨_, _, _, there, applied⟩)
    · exact .inl found

end World.Meets

/-- A call that stores an order stores an unpaid one. -/
theorem Call.OfService.inserted {c : Call} (service : c.OfService) {tr : Trace}
    {j : Job c.Result} (path : c.job.After tr j) {o : Order}
    {x : (Request.insertOrder o).Reply} (mem : .reply (.insertOrder o) x ∈ tr) :
    o.status = .pendingPayment ∧ o.transaction = none := by
  have unpaid (quiet : (Request.insertOrder o).isQuiet = true) :
      o.status = .pendingPayment ∧ o.transaction = none := by
    simpa [Request.isQuiet] using quiet
  cases service with
  | create deadline user parts method =>
    exact unpaid ((Fulfilment.create_quiet deadline user parts method).of_mem path mem)
  | pay deadline id method =>
    cases Fulfilment.pay_course path with
    | won o now u o' rest => cases rest <;> simp [Fulfilment.toCharge] at mem
    | _ => simp [Fulfilment.toCharge] at mem
  | cancel id => exact unpaid ((Fulfilment.cancel_quiet id).of_mem path mem)
  | complete b => exact unpaid ((Fulfilment.completeBuild_quiet b).of_mem path mem)
  | poll worker signal p =>
    rcases Workers.poll_mem worker path mem with same | ⟨i, same⟩ | ⟨i, m, -, own | quiet | asked⟩
    · cases same
    · cases same
    · cases own
    · exact unpaid quiet
    · obtain ⟨e, -, -, u, elapsed, same⟩ := asked
      cases same

namespace Yard

variable {y : Yard}

theorem Reachable.booked (h : Reachable Serving y) :
    ∀ id o, y.world.store.orders.find? id = some o → o.IsBooked := by
  induction h with
  | empty n b d =>
    intro id o found
    simp [Yard.empty, World.empty, Store.empty] at found
  | step reached step ih =>
    cases step with
    | flip _ f => cases f <;> exact ih
    | begin => exact ih
    | @move w w' before after t e k world job =>
      intro id o found
      have mem : t ∈ before ++ t :: after := by simp
      rcases world.order_origin found with earlier | rfl | ⟨p, c, now, earlier, applied⟩
      · exact ih id o earlier
      · have path := (reached.coherent t mem).snoc job
        have inserted : .reply (.insertOrder o) (.ok ()) ∈
            t.trace ++ [.reply (.insertOrder o) (.ok ())] := by simp
        obtain ⟨pending, free⟩ := (reached.served t mem).inserted path inserted
        exact Order.isBooked_of_unpaid pending free
      · exact (ih id p earlier).apply applied

/-- An order has a transaction exactly while it is paid or assembled. From any state on, no order
is lost, it keeps what it was ordered as and how it was paid, and its status moves along the edges
only; an operation of the store that is refused changes nothing. -/
theorem orders_keep_course (h : Reachable Serving y) :
    (∀ id o, y.world.store.orders.find? id = some o →
      (o.transaction.isSome = true ↔ o.status = .paid ∨ o.status = .assembled) ∧
      (o.status = .paid ∨ o.status = .assembled → o.method.isSome = true)) ∧
    (∀ y', Run Serving y y' → ∀ id o, y.world.store.orders.find? id = some o →
      ∃ o', y'.world.store.orders.find? id = some o' ∧ o'.id = o.id ∧ o'.user = o.user ∧
        o'.parts = o.parts ∧ o'.total = o.total ∧ o'.createdAt = o.createdAt ∧
        Relation.ReflTransGen Order.Status.Edge o.status o'.status ∧
        (o.status = .paid ∨ o.status = .assembled →
          o'.transaction = o.transaction ∧ o'.method = o.method)) ∧
    (∀ e w, y.world.Meets e w → e.IsStoreRefusal → w.store = y.world.store) := by
  refine ⟨fun id o found => ?_, fun y' run id o found => ?_,
    fun e w met refusal => met.store_of_refusal refusal⟩
  · have booked := h.booked id o found
    rw [booked.transaction, ← Order.Status.isSettled_iff]
    exact ⟨Iff.rfl, booked.method⟩
  · obtain ⟨o', found', older⟩ := run.grows.orders id o found
    exact ⟨o', found', older.id, older.user, older.parts, older.total, older.createdAt,
      Order.Status.edges_of_leadsTo older.status,
      fun settled => older.payment (Order.Status.isSettled_iff.mpr settled)⟩

/-- One order is paid and another one is not. -/
def paidAndUnpaid : List Act :=
  takingOneOrder ++ [.begin (.create (.ofSeconds 5) ⟨"u"⟩ [⟨"bolt"⟩] none)] ++
    List.replicate 6 (.move 1) ++ [.begin (.pay (.ofSeconds 5) firstOrder .card)] ++
    List.replicate 9 (.move 2)

/-- The build of the paid order is completed. -/
def paidCompleted : List Act :=
  .begin (.complete ⟨⟨World.mintedUuid 9⟩, firstOrder, ⟨"u"⟩, 0, by decide⟩) ::
    List.replicate 3 (.move 3)

theorem orders_keep_course_two_orders :
    let y := (Yard.empty 1 false ⟨0, 0, 0⟩).play paidAndUnpaid
    let y' := y.play paidCompleted
    let cancelled := y.world.answer (.changeOrder firstOrder .pendingPayment .cancelled)
    ∃ o o', y.world.store.orders.find? firstOrder = some o ∧ o.status = .paid ∧
      o.transaction.isSome = true ∧ o.method.isSome = true ∧
      y'.world.store.orders.find? firstOrder = some o' ∧ o'.status = .assembled ∧
      o'.transaction = o.transaction ∧ o'.method = o.method ∧
      cancelled.2.store = y.world.store := by
  intro y y' cancelled
  have reached : Reachable Serving y := by
    refine Reachable.play (.empty 1 false ⟨0, 0, 0⟩) fun w c mem => ?_
    simp only [paidAndUnpaid, takingOneOrder, List.mem_append, List.mem_cons, List.mem_replicate,
      Act.begin.injEq, reduceCtorEq, List.not_mem_nil, and_false, false_or, or_false] at mem
    rcases mem with (rfl | rfl) | rfl
    · exact .create _ _ _ _
    · exact .create _ _ _ _
    · exact .pay _ _ _
  have run : Run Serving y y' := by
    refine play_run y fun w c mem => ?_
    simp only [paidCompleted, List.mem_cons, List.mem_replicate, Act.begin.injEq, reduceCtorEq,
      and_false, or_false] at mem
    subst mem
    exact .complete _
  obtain ⟨booked, onward, refused⟩ := orders_keep_course reached
  obtain ⟨status, status', mismatch⟩ :
      (y.world.store.orders.find? firstOrder).map Order.status = some .paid ∧
        (y'.world.store.orders.find? firstOrder).map Order.status = some .assembled ∧
        cancelled.1 = .error (.mismatch firstOrder .pendingPayment .paid) := by
    decide +kernel
  obtain ⟨o, found, paid⟩ := Option.map_eq_some_iff.mp status
  obtain ⟨o', found', -, -, -, -, -, -, payment⟩ := onward y' run firstOrder o found
  obtain ⟨o'', again, assembled⟩ := Option.map_eq_some_iff.mp status'
  obtain rfl : o' = o'' := Option.some.inj (found'.symm.trans again)
  have refusal : Encounter.IsStoreRefusal
      (.reply (.changeOrder firstOrder .pendingPayment .cancelled) cancelled.1) := by
    rw [mismatch]
    trivial
  exact ⟨o, o', found, paid, (booked _ o found).1.mpr (.inl paid),
    (booked _ o found).2 (.inl paid), found', assembled, (payment (.inl paid)).1,
    (payment (.inl paid)).2, refused _ _ (.answer _) refusal⟩

end Yard
end Shipyard

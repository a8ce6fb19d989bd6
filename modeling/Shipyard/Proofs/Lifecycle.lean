import Shipyard.Store

/-!
# The way of an order through the store

Two states of one order are compared by `Order.Precedes`; every change that the store accepts
leads from an earlier state to a later one. For each store operation there is one statement of
what its success or refusal tells.
-/

namespace Shipyard

namespace Order

/-- Whether a status comes before another, or is it. -/
def Status.leadsTo (s t : Status) : Bool :=
  s = t || s = .pendingPayment || (s = .paid && t = .assembled)

theorem Status.leadsTo_refl (s : Status) : s.leadsTo s = true := by
  cases s <;> rfl

theorem Status.leadsTo_trans {s t u : Status} (h : s.leadsTo t = true) (h' : t.leadsTo u = true) :
    s.leadsTo u = true := by
  cases s <;> cases t <;> cases u <;> simp_all [leadsTo]

theorem Status.leadsTo_of_canBecome {s t : Status} (h : s.canBecome t = true) :
    s.leadsTo t = true := by
  cases s <;> cases t <;> simp_all [leadsTo, canBecome, canPay, canAssemble, canCancel]

/-- Whether a payment was made. -/
def Status.isSettled (s : Status) : Bool := s = .paid || s = .assembled

theorem Status.isSettled_of_leadsTo {s t : Status} (h : s.leadsTo t = true)
    (settled : s.isSettled = true) : t.isSettled = true := by
  cases s <;> cases t <;> simp_all [leadsTo, isSettled]

theorem Status.assembled_of_leadsTo {s : Status} (h : assembled.leadsTo s = true) :
    s = .assembled := by
  cases s <;> simp_all [leadsTo]

/-- Two states of one order, the earlier one first. -/
structure Precedes (o o' : Order) : Prop where
  id : o'.id = o.id
  user : o'.user = o.user
  parts : o'.parts = o.parts
  total : o'.total = o.total
  createdAt : o'.createdAt = o.createdAt
  status : o.status.leadsTo o'.status = true
  /-- A payment that was made is not made again. -/
  payment : o.status.isSettled = true →
    o'.transaction = o.transaction ∧ o'.method = o.method

theorem Precedes.refl (o : Order) : o.Precedes o :=
  ⟨rfl, rfl, rfl, rfl, rfl, o.status.leadsTo_refl, fun _ => ⟨rfl, rfl⟩⟩

theorem Precedes.trans {o p q : Order} (h : o.Precedes p) (h' : p.Precedes q) : o.Precedes q where
  id := h'.id.trans h.id
  user := h'.user.trans h.user
  parts := h'.parts.trans h.parts
  total := h'.total.trans h.total
  createdAt := h'.createdAt.trans h.createdAt
  status := Status.leadsTo_trans h.status h'.status
  payment settled := by
    obtain ⟨ht, hm⟩ := h.payment settled
    obtain ⟨ht', hm'⟩ := h'.payment (Status.isSettled_of_leadsTo h.status settled)
    exact ⟨ht'.trans ht, hm'.trans hm⟩

/-- A cancelled order stays so. -/
theorem Precedes.cancelled {o o' : Order} (h : o.Precedes o') (cancelled : o.status = .cancelled) :
    o'.status = .cancelled := by
  have leads := h.status
  rw [cancelled] at leads
  revert leads
  cases o'.status <;> simp [Status.leadsTo]

/-- What a change that was allowed makes of an order. -/
theorem apply_ok {o o' : Order} {c : Change} {now : Instant} (h : o.apply c now = .ok o') :
    o.status.canBecome c.target = true ∧
      o' = { o.settle c with status := c.target, updatedAt := now } := by
  unfold apply at h
  split at h
  · next allowed => exact ⟨allowed, (Except.ok.inj h).symm⟩
  · cases h

theorem precedes_of_apply {o o' : Order} {c : Change} {now : Instant}
    (h : o.apply c now = .ok o') : o.Precedes o' := by
  obtain ⟨allowed, rfl⟩ := apply_ok h
  have status := Status.leadsTo_of_canBecome allowed
  cases c with
  | paid t m =>
    -- Only an order that awaits its payment can be paid.
    refine ⟨rfl, rfl, rfl, rfl, rfl, status, fun settled => ?_⟩
    revert allowed settled
    cases o.status <;> simp [Change.target, Status.canBecome, Status.canPay, Status.isSettled]
  | assembled => exact ⟨rfl, rfl, rfl, rfl, rfl, status, fun _ => ⟨rfl, rfl⟩⟩
  | cancelled => exact ⟨rfl, rfl, rfl, rfl, rfl, status, fun _ => ⟨rfl, rfl⟩⟩

end Order

namespace Store

theorem insert_ok {s s' : Store} {o : Order} (h : s.insert o = .ok s') :
    s.orders.find? o.id = none ∧ s' = { s with orders := s.orders.put o.id o } := by
  rw [insert] at h
  split at h
  · cases h
  · split at h
    · cases h
    · next fresh => exact ⟨by simpa using fresh, (Except.ok.inj h).symm⟩

theorem transition_ok {s s' : Store} {id : OrderId} {expected : Order.Status} {c : Order.Change}
    {now : Instant} {o' : Order} (h : s.transition id expected c now = .ok (o', s')) :
    ∃ o, s.orders.find? id = some o ∧ o.status = expected ∧ o.apply c now = .ok o' ∧
      s' = { s with orders := s.orders.put id o' } := by
  rw [transition] at h
  split at h
  · cases h
  · split at h
    · cases h
    · split at h
      · cases h
      · next o found =>
        split at h
        · cases h
        · next same =>
          split at h
          · cases h
          · next o'' applied =>
            cases h
            exact ⟨o, found, by simpa using same, applied, rfl⟩

/-- A mismatch names the status that the order has. -/
theorem transition_mismatch {s : Store} {id i : OrderId} {expected e actual : Order.Status}
    {c : Order.Change} {now : Instant}
    (h : s.transition id expected c now = .error (.mismatch i e actual)) :
    ∃ o, s.orders.find? id = some o ∧ o.status = actual ∧ actual ≠ expected := by
  rw [transition] at h
  split at h
  · cases h
  · split at h
    · cases h
    · split at h
      · cases h
      · next o found =>
        split at h
        · next other =>
          cases h
          exact ⟨o, found, rfl, other⟩
        · split at h
          · cases h
          · cases h

theorem transition_notFound {s : Store} {id i : OrderId} {expected : Order.Status}
    {c : Order.Change} {now : Instant}
    (h : s.transition id expected c now = .error (.notFound i)) :
    s.orders.find? id = none := by
  rw [transition] at h
  split at h
  · cases h
  · split at h
    · cases h
    · split at h
      · next missing => exact missing
      · split at h
        · cases h
        · split at h
          · cases h
          · cases h

end Store

end Shipyard

import Shipyard.Proofs.Growth

/-!
# What one encounter changes

The views `charge?`, `write?`, `publication?` and `measured` tell from an encounter alone what it
has changed in the ledger, in the store, on the bus and in the meter. For each of them it is stated
what the world became; what a view does not show has left its part of the world as it was.
-/

namespace Shipyard

namespace Order

/-- How many orders a change makes paid ones. -/
def Change.settles : Change → Nat
  | .paid _ _ => 1
  | .assembled => 0
  | .cancelled => 0

theorem apply_settles {o o' : Order} {c : Change} {now : Instant} (h : o.apply c now = .ok o') :
    o'.status.isSettled.toNat = o.status.isSettled.toNat + c.settles := by
  obtain ⟨allowed, rfl⟩ := apply_ok h
  revert allowed
  cases c <;> cases o.status <;>
    simp [Change.target, Change.settles, Status.canBecome, Status.canPay, Status.canAssemble,
      Status.canCancel, Status.isSettled]

end Order

namespace Meter

variable (m : Meter) (c c' : Counter) (n : Nat) (s : Span) (succeeded : Bool)

theorem count_add : (m.add c n).count c' =
    if c = c' ∧ m.enabled then (m.count c' + n) % 0x10000000000000000 else m.count c' := by
  rw [add]
  by_cases on : m.enabled
  · by_cases same : c = c'
    · subst same
      simp [on, count]
    · simp [on, count, Table.find?_put, same]
  · simp [on]

theorem enabled_add : (m.add c n).enabled = m.enabled := by
  rw [add]
  split <;> rfl

theorem count_time : (m.time s succeeded).count c = m.count c := by
  rw [time]
  split <;> rfl

theorem enabled_time : (m.time s succeeded).enabled = m.enabled := by
  rw [time]
  split <;> rfl

variable {m c c' n}

theorem count_add_lt (lt : m.count c' < 0x10000000000000000) :
    (m.add c n).count c' < 0x10000000000000000 := by
  rw [count_add]
  split
  · exact Nat.mod_lt _ (by decide)
  · exact lt

end Meter

namespace Encounter

/-- An order that was written, under an identifier. -/
structure Write where
  id : OrderId
  order : Order
  /-- Whether the order was unpaid before and is paid now. -/
  settles : Nat

/-- A record that was put at a place of a topic. -/
structure Publication where
  topic : Topic
  position : Bus.Position
  record : Bus.Record

def charge? : Encounter → Option Charge
  | .reply (.charge c) (.ok _) => some c
  | _ => none

def write? : Encounter → Option Write
  | .reply (.insertOrder o) (.ok _) => some ⟨o.id, o, o.status.isSettled.toNat⟩
  | .reply (.changeOrder id _ c) (.ok o) => some ⟨id, o, c.settles⟩
  | _ => none

def publication? : Encounter → Option Publication
  | .reply (.publish t key payload) (.ok p) => some ⟨t, p, ⟨key, payload⟩⟩
  | _ => none

/-- The answer to a conditional change, whichever it is. -/
def isChange : Encounter → Bool
  | .reply (.changeOrder _ _ _) _ => true
  | _ => false

def measured (m : Meter) : Encounter → Meter
  | .reply (.count c n) _ => m.add c n
  | .reply (.time s succeeded) _ => m.time s succeeded
  | _ => m

theorem charge?_eq_some_iff {e : Encounter} {c : Charge} :
    e.charge? = some c ↔ e = .reply (.charge c) (.ok ()) := by
  constructor
  · unfold charge?
    split
    · rintro ⟨⟩
      rfl
    · rintro ⟨⟩
  · rintro rfl
    rfl

theorem publication?_eq_some_iff {e : Encounter} {t : Topic} {p : Bus.Position} {r : Bus.Record} :
    e.publication? = some ⟨t, p, r⟩ ↔ e = .reply (.publish t r.key r.payload) (.ok p) := by
  constructor
  · unfold publication?
    split
    · rintro ⟨⟩
      rfl
    · rintro ⟨⟩
  · rintro rfl
    rfl

end Encounter

namespace World

def isSettled (w : World) (id : OrderId) : Bool :=
  (w.store.orders.find? id).any fun o => o.status.isSettled

/-- What a write is: an order that is new to the store, or a change of one that the store has. -/
inductive Wrote (w : World) : Encounter → Encounter.Write → Prop
  | inserted (o : Order) (fresh : w.store.orders.find? o.id = none) :
      Wrote w (.reply (.insertOrder o) (.ok ())) ⟨o.id, o, o.status.isSettled.toNat⟩
  | changed {id : OrderId} {expected : Order.Status} {c : Order.Change} {o o' : Order}
      (found : w.store.orders.find? id = some o) (applied : o.apply c w.today = .ok o') :
      Wrote w (.reply (.changeOrder id expected c) (.ok o')) ⟨id, o', c.settles⟩

/-- Every order is found under its own identifier. -/
def Named (w : World) : Prop := ∀ id o, w.store.orders.find? id = some o → o.id = id

namespace Meets

variable {w w' : World} {e : Encounter}

theorem ledger (h : w.Meets e w') :
    w'.ledger.charges = w.ledger.charges ++ e.charge?.toList := by
  cases h.alters with
  | idle drill idle =>
    have none : e.charge? = none := by
      unfold Encounter.charge?
      split
      · cases idle
      · rfl
    simp [none]
  | charge done =>
    obtain rfl := Ledger.charge_ok done
    rfl
  | _ => simp [Encounter.charge?, World.deliver]

theorem unwritten (h : w.Meets e w') (none : e.write? = none) :
    w'.store.orders = w.store.orders := by
  cases h.alters with
  | insertOrder done => cases none
  | changeOrder done => cases none
  | _ => rfl

theorem wrote (h : w.Meets e w') {x : Encounter.Write} (some : e.write? = some x) :
    w.Wrote e x ∧ w'.store.orders = w.store.orders.put x.id x.order := by
  cases h.alters with
  | idle drill idle =>
    unfold Encounter.write? at some
    split at some
    · cases idle
    · cases idle
    · cases some
  | insertOrder done =>
    cases some
    obtain ⟨fresh, rfl⟩ := Store.insert_ok done
    exact ⟨.inserted _ fresh, rfl⟩
  | changeOrder done =>
    cases some
    obtain ⟨o, found, -, applied, rfl⟩ := Store.transition_ok done
    exact ⟨.changed found applied, rfl⟩
  | _ => cases some

theorem written (h : w.Meets e w') {x : Encounter.Write} (some : e.write? = some x) :
    w'.store.orders = w.store.orders.put x.id x.order ∧
      x.order.status.isSettled.toNat = (w.isSettled x.id).toNat + x.settles ∧
      (w.Named → x.order.id = x.id) := by
  obtain ⟨wrote, orders⟩ := h.wrote some
  cases wrote with
  | inserted o fresh => exact ⟨orders, by simp [isSettled, fresh], fun _ => rfl⟩
  | @changed id expected c o o' found applied =>
    refine ⟨orders, ?_, fun named => ?_⟩
    · simpa [isSettled, found] using Order.apply_settles applied
    · exact (Order.precedes_of_apply applied).id.trans (named id o found)

theorem named (h : w.Meets e w') (named : w.Named) : w'.Named := by
  cases write : e.write? with
  | none =>
    intro id o found
    rw [h.unwritten write] at found
    exact named id o found
  | some x =>
    obtain ⟨orders, -, same⟩ := h.written write
    intro id o found
    rw [orders, Table.find?_put] at found
    split at found
    · next here =>
      cases found
      exact (same named).trans here
    · exact named id o found

theorem unpublished (h : w.Meets e w') (none : e.publication? = none) :
    w'.bus.logs = w.bus.logs ∧ w'.bus.partitions = w.bus.partitions := by
  cases h.alters with
  | publish done => cases none
  | commit done =>
    obtain ⟨-, rfl⟩ := Bus.commit_ok done
    exact ⟨rfl, rfl⟩
  | _ => exact ⟨rfl, rfl⟩

theorem published (h : w.Meets e w') {t : Topic} {p : Bus.Position} {r : Bus.Record}
    (some : e.publication? = some ⟨t, p, r⟩) :
    w'.bus = w.bus.append t p.partition r ∧
      p.partition = Bus.partitionOf r.key w.bus.partitions ∧
      p.offset = (w.bus.log t p.partition).length := by
  obtain rfl := Encounter.publication?_eq_some_iff.mp some
  cases h.alters with
  | idle drill idle => cases idle
  | publish done =>
    obtain ⟨rfl, rfl⟩ := Bus.publish_ok done
    exact ⟨rfl, rfl, rfl⟩

/-- An offset stays as it is unless it is moved. -/
theorem offset (h : w.Meets e w') (g : String) (t : Topic) (p : Nat) :
    w'.bus.offset g t p = w.bus.offset g t p ∨
      ∃ n x, e = .reply (.commit g t p n) x ∧ w'.bus.offset g t p = n := by
  cases h.alters with
  | @commit g' t' p' n bus done =>
    obtain ⟨-, rfl⟩ := Bus.commit_ok done
    simp only [Bus.offset_commit]
    by_cases same : g' = g ∧ t' = t ∧ p' = p
    · obtain ⟨rfl, rfl, rfl⟩ := same
      exact .inr ⟨n, .ok (), rfl, by simp⟩
    · exact .inl (by simp [same])
  | publish done =>
    obtain ⟨-, rfl⟩ := Bus.publish_ok done
    exact .inl (Bus.offset_append ..)
  | _ => exact .inl rfl

theorem meter (h : w.Meets e w') : w'.meter = e.measured w.meter := by
  cases h.alters with
  | idle drill idle =>
    unfold Encounter.measured
    split
    · cases idle
    · cases idle
    · rfl
  | _ => rfl

end Meets
end World
end Shipyard

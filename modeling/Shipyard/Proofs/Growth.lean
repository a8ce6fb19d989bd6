import Shipyard.Proofs.Lifecycle
import Shipyard.Proofs.Log
import Shipyard.Proofs.Trace

/-!
# What never goes back

Orders move forward, logs and the ledger are appended to, and offsets do not decrease, whatever
request is answered. So a reply tells something that stays true: `Encounter.Holds` says what, and
`Encounter.Holds.of_grows` that it lasts.
-/

namespace Shipyard

namespace Encounter

/-- The end of a wait, a question, or a refusal. -/
def isIdle : Encounter → Bool
  | .reply .mint _ => false
  | .reply (.raise _) _ => false
  | .reply (.insertOrder _) (.ok _) => false
  | .reply (.changeOrder _ _ _) (.ok _) => false
  | .reply (.setWritesDown _) _ => false
  | .reply (.charge _) (.ok _) => false
  | .reply (.publish _ _ _) (.ok _) => false
  | .reply (.commit _ _ _ _) (.ok _) => false
  | .reply (.deliver _ _) _ => false
  | .reply (.count _ _) _ => false
  | .reply (.time _ _) _ => false
  | .reply (.send _) (.ok _) => false
  | _ => true

end Encounter

theorem Ledger.charge_ok {l l' : Ledger} {c : Charge} (h : l.charge c = .ok l') :
    l' = { l with charges := l.charges ++ [c] } := by
  rw [Ledger.charge] at h
  split at h
  · cases h
  split at h
  · cases h
  · exact (Except.ok.inj h).symm

namespace World

/-- The clock may go on, a switch may be thrown, a shutdown may come, at any moment. -/
inductive Flip
  | tick (time : Nat)
  | date (today : Instant)
  | raise (signal : Signal)
  | reads (down : Bool)
  | writes (down : Bool)
  | charges (declines : Bool)
  | bus (down : Bool)
  | channel (down : Bool)
  | stock (s : Stock)

def flip (w : World) : Flip → World
  | .tick time => w.advance time
  | .date today => { w with today }
  | .raise s => { w with raised := s :: w.raised }
  | .reads down => { w with store := { w.store with readsDown := down } }
  | .writes down => { w with store := { w.store with writesDown := down } }
  | .charges declines => { w with ledger := { w.ledger with declines } }
  | .bus down => { w with bus := w.bus.setDown down }
  | .channel down => { w with outbox := { w.outbox with down } }
  | .stock stock => { w with stock }

/-- What a job meets with in a world, and the world after it. An identifier that is given out may
be any. A wait may last longer than it has to; a signal may win against a time that has come. -/
inductive Meets (w : World) : Encounter → World → Prop
  | answer (r : Request) : Meets w (.reply r (w.answer r).1) (w.answer r).2
  | mint (u : Uuid) : Meets w (.reply .mint u) { w with minted := w.minted + 1 }
  | elapsed {wake : Nat} {signal : Option Signal} (due : wake ≤ w.clock) :
      Meets w (.woken wake signal .elapsed) w
  | raised {wake : Nat} {signal : Signal} (up : signal ∈ w.raised) :
      Meets w (.woken wake (some signal) .raised) w

/-- A reply is the answer of the world, but for the identifiers that are given out. -/
theorem Meets.reply {w w' : World} {r : Request} {x : r.Reply} (h : w.Meets (.reply r x) w')
    (known : r ≠ .mint) : x = (w.answer r).1 := by
  cases h with
  | answer => rfl
  | mint u => exact absurd rfl known

theorem Meets.woken_eq {w w' : World} {wake : Nat} {signal : Option Signal} {x : Wakeup}
    (h : w.Meets (.woken wake signal x) w') : w' = w := by
  cases h <;> rfl

/-- A change that may be refused, by its two outcomes. -/
theorem tried_map {ε α β : Type} (w : World) (r : Except ε β) (f : β → α × World) :
    w.tried (r.map f) =
      match r with
      | .ok b => (.ok (f b).1, (f b).2)
      | .error e => (.error e, w) := by
  cases r <;> rfl

/-- What an encounter makes of a world: one part of it changes, or nothing but the plan of a
drill. -/
inductive Alters (w : World) : Encounter → World → Prop
  | idle {e : Encounter} (drill : Drill) (idle : e.isIdle = true) : Alters w e { w with drill }
  | mint (u : Uuid) : Alters w (.reply .mint u) { w with minted := w.minted + 1 }
  | raise (s : Signal) : Alters w (.reply (.raise s) ()) { w with raised := s :: w.raised }
  | insertOrder {o : Order} {store : Store} (done : w.store.insert o = .ok store) :
      Alters w (.reply (.insertOrder o) (.ok ())) { w with store }
  | changeOrder {id : OrderId} {expected : Order.Status} {c : Order.Change} {o : Order}
      {store : Store} (done : w.store.transition id expected c w.today = .ok (o, store)) :
      Alters w (.reply (.changeOrder id expected c) (.ok o)) { w with store }
  | setWritesDown (down : Bool) : Alters w (.reply (.setWritesDown down) ())
      { w with store := { w.store with writesDown := down } }
  | charge {c : Charge} {ledger : Ledger} (done : w.ledger.charge c = .ok ledger) :
      Alters w (.reply (.charge c) (.ok ())) { w with ledger }
  | publish {t : Topic} {key : String} {payload : Bytes} {p : Bus.Position} {bus : Bus}
      (done : w.bus.publish t key payload = .ok (p, bus)) :
      Alters w (.reply (.publish t key payload) (.ok p)) { w with bus }
  | commit {g : String} {t : Topic} {p n : Nat} {bus : Bus}
      (done : w.bus.commit g t p n = .ok bus) :
      Alters w (.reply (.commit g t p n) (.ok ())) { w with bus }
  | deliver (g : String) (m : Bus.Message) (history : List Delivery) :
      Alters w (.reply (.deliver g m) history) (w.deliver g m)
  | count (c : Meter.Counter) (n : Nat) :
      Alters w (.reply (.count c n) ()) { w with meter := w.meter.add c n }
  | time (s : Span) (succeeded : Bool) :
      Alters w (.reply (.time s succeeded) ()) { w with meter := w.meter.time s succeeded }
  | send {text : String} {outbox : Outbox} (done : w.outbox.send text = .ok outbox) :
      Alters w (.reply (.send text) (.ok ())) { w with outbox }

theorem Meets.alters {w w' : World} {e : Encounter} (h : w.Meets e w') : w.Alters e w' := by
  cases h with
  | answer r =>
    cases r with
    | mint => exact .mint _
    | raise s => exact .raise s
    | setWritesDown down => exact .setWritesDown down
    | deliver g m => exact .deliver g m _
    | count c n => exact .count c n
    | time s succeeded => exact .time s succeeded
    | insertOrder o =>
      simp only [World.answer, tried_map]
      cases done : w.store.insert o with
      | error e => exact .idle _ rfl
      | ok store => exact .insertOrder done
    | changeOrder id expected c =>
      simp only [World.answer, tried_map]
      cases done : w.store.transition id expected c w.today with
      | error e => exact .idle _ rfl
      | ok x => exact .changeOrder done
    | charge c =>
      simp only [World.answer, tried_map]
      cases done : w.ledger.charge c with
      | error e => exact .idle _ rfl
      | ok ledger => exact .charge done
    | publish t key payload =>
      simp only [World.answer, tried_map]
      cases done : w.bus.publish t key payload with
      | error e => exact .idle _ rfl
      | ok x => exact .publish done
    | commit g t p n =>
      simp only [World.answer, tried_map]
      cases done : w.bus.commit g t p n with
      | error e => exact .idle _ rfl
      | ok bus => exact .commit done
    | send text =>
      simp only [World.answer, tried_map]
      cases done : w.outbox.send text with
      | error e => exact .idle _ rfl
      | ok outbox => exact .send done
    | _ => exact .idle _ rfl
  | mint u => exact .mint u
  | elapsed => exact .idle _ rfl
  | raised => exact .idle _ rfl

structure Grows (w w' : World) : Prop where
  orders : ∀ id o, w.store.orders.find? id = some o →
    ∃ o', w'.store.orders.find? id = some o' ∧ o.Precedes o'
  logs : ∀ t p, w.bus.log t p <+: w'.bus.log t p
  offsets : ∀ g t p, w.bus.offset g t p ≤ w'.bus.offset g t p
  charges : w.ledger.charges <+: w'.ledger.charges
  partitions : w'.bus.partitions = w.bus.partitions

namespace Grows

theorem of_eq {w w' : World} (orders : w'.store.orders = w.store.orders)
    (logs : w'.bus.logs = w.bus.logs) (offsets : w'.bus.offsets = w.bus.offsets)
    (charges : w'.ledger.charges = w.ledger.charges)
    (partitions : w'.bus.partitions = w.bus.partitions) : w.Grows w' where
  orders id o found := ⟨o, by rw [orders, found], .refl o⟩
  logs t p := by simp [Bus.log, logs]
  offsets g t p := by simp [Bus.offset, offsets]
  charges := by simp [charges]
  partitions := partitions

theorem refl (w : World) : w.Grows w := .of_eq rfl rfl rfl rfl rfl

theorem trans {w v u : World} (h : w.Grows v) (h' : v.Grows u) : w.Grows u where
  orders id o found := by
    obtain ⟨o', found', older⟩ := h.orders id o found
    obtain ⟨o'', found'', older'⟩ := h'.orders id o' found'
    exact ⟨o'', found'', older.trans older'⟩
  logs t p := (h.logs t p).trans (h'.logs t p)
  offsets g t p := Nat.le_trans (h.offsets g t p) (h'.offsets g t p)
  charges := h.charges.trans h'.charges
  partitions := h'.partitions.trans h.partitions

/-- A record stays where it was put. -/
theorem record {w w' : World} (h : w.Grows w') {t : Topic} {p i : Nat} {r : Bus.Record}
    (there : (w.bus.log t p)[i]? = some r) : (w'.bus.log t p)[i]? = some r := by
  obtain ⟨tail, same⟩ := h.logs t p
  have inside : i < (w.bus.log t p).length := (List.getElem?_eq_some_iff.mp there).1
  rw [← same, List.getElem?_append_left inside, there]

end Grows

theorem flip_grows (w : World) (f : Flip) : w.Grows (w.flip f) := by
  cases f <;> exact .of_eq rfl rfl rfl rfl rfl

theorem grows_of_insert {w : World} {o : Order} {s : Store} (h : w.store.insert o = .ok s) :
    w.Grows { w with store := s } := by
  obtain ⟨fresh, rfl⟩ := Store.insert_ok h
  refine ⟨fun id p found => ?_, fun _ _ => List.prefix_rfl, fun _ _ _ => Nat.le_refl _,
    List.prefix_rfl, rfl⟩
  have other : o.id ≠ id := by
    rintro rfl
    simp [fresh] at found
  exact ⟨p, by simp [Table.find?_put, other, found], .refl p⟩

theorem grows_of_transition {w : World} {id : OrderId} {expected : Order.Status}
    {c : Order.Change} {now : Instant} {o : Order} {s : Store}
    (h : w.store.transition id expected c now = .ok (o, s)) : w.Grows { w with store := s } := by
  obtain ⟨p, found, -, applied, rfl⟩ := Store.transition_ok h
  refine ⟨fun i q there => ?_, fun _ _ => List.prefix_rfl, fun _ _ _ => Nat.le_refl _,
    List.prefix_rfl, rfl⟩
  by_cases same : id = i
  · subst same
    have : p = q := Option.some.inj (found.symm.trans there)
    subst this
    exact ⟨o, by simp, Order.precedes_of_apply applied⟩
  · exact ⟨q, by simp [Table.find?_put, same, there], .refl q⟩

theorem grows_of_publish {w : World} {t : Topic} {key : String} {payload : Bytes}
    {p : Bus.Position} {b : Bus} (h : w.bus.publish t key payload = .ok (p, b)) :
    w.Grows { w with bus := b } := by
  obtain ⟨-, rfl⟩ := Bus.publish_ok h
  refine ⟨fun id o found => ⟨o, found, .refl o⟩, fun t' p' => ?_, fun _ _ _ => Nat.le_refl _,
    List.prefix_rfl, rfl⟩
  show _ <+: (w.bus.append _ _ _).log t' p'
  rw [Bus.log_append]
  split
  · exact List.prefix_append _ _
  · exact List.prefix_rfl

theorem grows_of_commit {w : World} {g : String} {t : Topic} {p n : Nat} {b : Bus}
    (h : w.bus.commit g t p n = .ok b) : w.Grows { w with bus := b } := by
  obtain ⟨le, rfl⟩ := Bus.commit_ok h
  refine ⟨fun id o found => ⟨o, found, .refl o⟩, fun _ _ => List.prefix_rfl, fun g' t' p' => ?_,
    List.prefix_rfl, rfl⟩
  show _ ≤ Bus.offset { w.bus with offsets := _ } g' t' p'
  rw [Bus.offset_commit]
  split
  · next same =>
    obtain ⟨rfl, rfl, rfl⟩ := same
    exact le
  · exact Nat.le_refl _

theorem grows_of_charge {w : World} {c : Charge} {l : Ledger} (h : w.ledger.charge c = .ok l) :
    w.Grows { w with ledger := l } := by
  obtain rfl := Ledger.charge_ok h
  exact ⟨fun id o found => ⟨o, found, .refl o⟩, fun _ _ => List.prefix_rfl,
    fun _ _ _ => Nat.le_refl _, List.prefix_append _ _, rfl⟩

theorem Meets.grows {w w' : World} {e : Encounter} (h : w.Meets e w') : w.Grows w' := by
  cases h.alters with
  | insertOrder done => exact grows_of_insert done
  | changeOrder done => exact grows_of_transition done
  | charge done => exact grows_of_charge done
  | publish done => exact grows_of_publish done
  | commit done => exact grows_of_commit done
  | _ => exact .of_eq rfl rfl rfl rfl rfl

end World

namespace Encounter

/-- What an encounter tells about the world, of the kind that lasts. -/
def Holds (w : World) : Encounter → Prop
  | .reply (.readOrder id) (.ok (some o)) =>
    ∃ o', w.store.orders.find? id = some o' ∧ o.Precedes o'
  | .reply (.changeOrder id _ c) (.ok o) =>
    o.status = c.target ∧ o.settle c = o ∧
      ∃ o', w.store.orders.find? id = some o' ∧ o.Precedes o'
  | .reply (.changeOrder id _ _) (.error (.mismatch _ _ actual)) =>
    ∃ o', w.store.orders.find? id = some o' ∧ actual.leadsTo o'.status = true
  | .reply (.publish t key payload) (.ok p) =>
    p.partition < w.bus.partitions ∧ (w.bus.log t p.partition)[p.offset]? = some ⟨key, payload⟩
  | .reply (.fetch t p i) (.ok (some m)) =>
    ∃ r, (w.bus.log t p)[i]? = some r ∧ m = Bus.delivered t p i r
  | .reply (.committed g t p) (.ok n) => n ≤ w.bus.offset g t p
  | _ => True

theorem Holds.of_grows {w w' : World} {e : Encounter} (h : e.Holds w) (grown : w.Grows w') :
    e.Holds w' := by
  unfold Holds at h ⊢
  split at h
  · obtain ⟨o, found, older⟩ := h
    obtain ⟨o', found', older'⟩ := grown.orders _ _ found
    exact ⟨o', found', older.trans older'⟩
  · obtain ⟨status, settled, o, found, older⟩ := h
    obtain ⟨o', found', older'⟩ := grown.orders _ _ found
    exact ⟨status, settled, o', found', older.trans older'⟩
  · obtain ⟨o, found, older⟩ := h
    obtain ⟨o', found', older'⟩ := grown.orders _ _ found
    exact ⟨o', found', Order.Status.leadsTo_trans older older'.status⟩
  · exact ⟨grown.partitions ▸ h.1, grown.record h.2⟩
  · obtain ⟨r, there, same⟩ := h
    exact ⟨r, grown.record there, same⟩
  · exact Nat.le_trans h (grown.offsets _ _ _)
  · trivial

end Encounter

namespace World

theorem holds_read {w : World} {id : OrderId} :
    (Encounter.reply (.readOrder id) (w.answer (.readOrder id)).1).Holds w := by
  show Encounter.Holds w (.reply (.readOrder id) (w.store.read id))
  rw [Store.read]
  split
  · trivial
  · cases found : w.store.orders.find? id with
    | none => trivial
    | some o => exact ⟨o, found, .refl o⟩

theorem holds_change {w : World} {id : OrderId} {expected : Order.Status} {c : Order.Change} :
    (Encounter.reply (.changeOrder id expected c) (w.answer (.changeOrder id expected c)).1).Holds
      (w.answer (.changeOrder id expected c)).2 := by
  simp only [answer, tried_map]
  cases changed : w.store.transition id expected c w.today with
  | ok x =>
    obtain ⟨o, s⟩ := x
    obtain ⟨p, -, -, applied, rfl⟩ := Store.transition_ok changed
    obtain ⟨-, rfl⟩ := Order.apply_ok applied
    exact ⟨rfl, by cases c <;> rfl, _, by simp, .refl _⟩
  | error e =>
    cases e with
    | mismatch i j actual =>
      obtain ⟨o, found, rfl, -⟩ := Store.transition_mismatch changed
      exact ⟨o, found, Order.Status.leadsTo_refl _⟩
    | _ => trivial

theorem holds_publish {w : World} {t : Topic} {key : String} {payload : Bytes} :
    (Encounter.reply (.publish t key payload) (w.answer (.publish t key payload)).1).Holds
      (w.answer (.publish t key payload)).2 := by
  simp only [answer, tried_map]
  cases published : w.bus.publish t key payload with
  | ok x =>
    obtain ⟨p, b⟩ := x
    obtain ⟨rfl, rfl⟩ := Bus.publish_ok published
    refine ⟨Bus.partitionOf_lt _ _ w.bus.positive, ?_⟩
    simp [Bus.log_append]
  | error e => trivial

theorem holds_fetch {w : World} {t : Topic} {p i : Nat} :
    (Encounter.reply (.fetch t p i) (w.answer (.fetch t p i)).1).Holds w := by
  show Encounter.Holds w (.reply (.fetch t p i) (w.bus.fetch t p i))
  cases fetched : w.bus.fetch t p i with
  | error e => trivial
  | ok m =>
    cases m with
    | none => trivial
    | some m => exact Bus.fetch_ok fetched

theorem holds_committed {w : World} {g : String} {t : Topic} {p : Nat} :
    (Encounter.reply (.committed g t p) (w.answer (.committed g t p)).1).Holds w := by
  show Encounter.Holds w (.reply (.committed g t p) (w.bus.committed g t p))
  cases read : w.bus.committed g t p with
  | error e => trivial
  | ok n => exact Nat.le_of_eq (Bus.committed_ok read)

theorem Meets.holds {w w' : World} {e : Encounter} (h : w.Meets e w') : e.Holds w' := by
  cases h with
  | answer r =>
    cases r with
    | readOrder id => exact holds_read
    | changeOrder id expected c => exact holds_change
    | publish t key payload => exact holds_publish
    | fetch t p i => exact holds_fetch
    | committed g t p => exact holds_committed
    | _ => trivial
  | mint => trivial
  | elapsed => trivial
  | raised => trivial

end World
end Shipyard

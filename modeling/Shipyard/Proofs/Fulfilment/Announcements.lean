import Shipyard.Proofs.Fulfilment.Safety
import Shipyard.Proofs.Json.Events

/-!
# What is announced

Every record about a payment was put there by the payment that marked the order, every record
about a build by a worker that had read a record about the payment. The orders that are paid and
the records about payments differ by the announcements that failed and those that are to come.
-/

namespace Shipyard

namespace Fulfilment

variable {id : OrderId} {method : PaymentMethod} {tr : Trace}
  {j : Job (Except Error TransactionId)} {topic : Topic} {key : String} {payload : Bytes}
  {position : Bus.Position}

/-- A payment that has announced itself. -/
def announcement (method : PaymentMethod) (t : TransactionId) (o : Order) (u : Uuid)
    (position : Bus.Position) : Trace :=
  [.reply (.count (.orders .paid) 1) (), .reply (.count (.revenue method) (revenue o.total)) (),
    .reply .mint u,
    .reply (.publish .paid o.id.text (Event.payment (payment u o method t)).encode) (.ok position)]

theorem Announcing.publish_of_mem {t : TransactionId} {o : Order}
    (h : Announcing method t o tr j)
    (mem : .reply (.publish topic key payload) (.ok position) ∈ tr) :
    ∃ u, topic = .paid ∧ key = o.id.text ∧
      payload = (Event.payment (payment u o method t)).encode ∧
      tr = announcement method t o u position := by
  cases h with
  | announced u p =>
    simp only [List.mem_cons, reduceCtorEq, Encounter.reply.injEq, List.not_mem_nil, or_false,
      false_or, false_and, Request.publish.injEq] at mem
    obtain ⟨⟨topic, key, payload⟩, same⟩ := mem
    cases eq_of_heq same
    exact ⟨u, topic, key, payload, rfl⟩
  | _ => simp at mem

/-- The trace of a payment that has marked its order, and announced that at a place. -/
def Announces (id : OrderId) (method : PaymentMethod) (t : TransactionId) (o : Order) (u : Uuid)
    (position : Bus.Position) (tr : Trace) : Prop :=
  ∃ o₀ now, tr = toCharge id method o₀ now t.uuid ++
    .reply (.changeOrder id .pendingPayment (.paid t method)) (.ok o) ::
      announcement method t o u position

/-- A payment publishes once, and only after it has marked its order. -/
theorem Paying.publish_of_mem (h : Paying id method tr j)
    (mem : .reply (.publish topic key payload) (.ok position) ∈ tr) :
    ∃ t o u, topic = .paid ∧ key = o.id.text ∧
      payload = (Event.payment (payment u o method t)).encode ∧
      Announces id method t o u position tr := by
  cases h with
  | @won o now v o' tr j rest =>
    have later : .reply (.publish topic key payload) (.ok position) ∈ tr := by
      simpa [toCharge] using mem
    obtain ⟨u, topic, key, payload, rfl⟩ := rest.publish_of_mem later
    exact ⟨⟨v⟩, o', u, topic, key, payload, o, now, rfl⟩
  | _ => simp [toCharge] at mem

namespace Announces

variable {t : TransactionId} {o : Order} {u : Uuid}

theorem marked (h : Announces id method t o u position tr) :
    .reply (.changeOrder id .pendingPayment (.paid t method)) (.ok o) ∈ tr := by
  obtain ⟨o₀, now, rfl⟩ := h
  simp

theorem place (h : Announces id method t o u position tr) {id' : OrderId}
    {method' : PaymentMethod} {t' : TransactionId} {o' : Order} {u' : Uuid}
    {position' : Bus.Position} (h' : Announces id' method' t' o' u' position' tr) :
    position = position' := by
  obtain ⟨o₀, now, rfl⟩ := h
  obtain ⟨o₁, now', same⟩ := h'
  obtain ⟨-, rest⟩ := List.append_inj same rfl
  simp only [announcement, List.cons.injEq, Encounter.reply.injEq] at rest
  obtain ⟨-, -, -, -, ⟨-, last⟩, -⟩ := rest
  simpa using last

end Announces

end Fulfilment

namespace Encounter

/-- A failed publication on a topic is counted. -/
def isFailure (topic : Topic) : Encounter → Bool
  | .reply (.count (.publishFailures t) _) _ => t = topic
  | _ => false

end Encounter

namespace Thread

open Fulfilment

/-- A payment whose announcement failed, which it has counted. -/
def isUnannounced : Thread → Bool
  | ⟨.pay _ _ _, tr, _⟩ => tr.any fun e => e.isFailure .paid
  | _ => false

/-- A payment at work that has marked its order, before it has announced that or counted a
failure. -/
def isAnnouncing (t : Thread) : Bool :=
  !t.isOver &&
    match t with
    | ⟨.pay _ _ _, tr, _⟩ =>
      (tr.any fun e => e.write?.isSome) &&
        !(tr.any fun e => e.publication?.isSome || e.isFailure .paid)
    | _ => false

variable {i : OrderId} {deadline : Span} {method : PaymentMethod} {tr : Trace}
  {j : Job (Except Fulfilment.Error TransactionId)}

/-- A mark that was made is announced, or a failure is counted, or either is to come. -/
theorem announcements_of_paying (h : Paying i method tr j) :
    (tr.map Encounter.settlements).sum = (tr.map (Encounter.records .paid)).sum +
        (isUnannounced ⟨.pay deadline i method, tr, j⟩).toNat +
        (isAnnouncing ⟨.pay deadline i method, tr, j⟩).toNat ∧
      (tr.map (Encounter.counts (.publishFailures .paid))).sum =
        (isUnannounced ⟨.pay deadline i method, tr, j⟩).toNat := by
  cases h with
  | won o now u o' rest =>
    cases rest <;>
      simp [toCharge, isUnannounced, isAnnouncing, isOver, Encounter.isFailure,
        Encounter.settlements, Encounter.write?, Encounter.records, Encounter.publication?,
        Encounter.counts, Order.Change.settles]
  | _ =>
    simp [toCharge, isUnannounced, isAnnouncing, Encounter.isFailure, Encounter.settlements,
      Encounter.write?, Encounter.records, Encounter.publication?, Encounter.counts]

end Thread

namespace Yard

variable {y : Yard}

theorem Reachable.announcements (h : Reachable Serving y) {t : Thread} (mem : t ∈ y.threads) :
    (t.trace.map Encounter.settlements).sum = (t.trace.map (Encounter.records .paid)).sum +
        t.isUnannounced.toNat + t.isAnnouncing.toNat ∧
      (t.trace.map (Encounter.counts (.publishFailures .paid))).sum = t.isUnannounced.toNat := by
  rcases h.pays_or_spares mem with ⟨deadline, i, method, tr, j, rfl, path⟩ | ⟨other, spares⟩
  · exact Thread.announcements_of_paying path
  · have settlements : (t.trace.map Encounter.settlements).sum = 0 :=
      Trace.sum_eq_zero fun e he => (spares e he).settlements
    have records : (t.trace.map (Encounter.records .paid)).sum = 0 :=
      Trace.sum_eq_zero fun e he => (spares e he).records
    have counts : (t.trace.map (Encounter.counts (.publishFailures .paid))).sum = 0 :=
      Trace.sum_eq_zero fun e he => (spares e he).counts
    have flags : t.isUnannounced = false ∧ t.isAnnouncing = false := by
      obtain ⟨call, tr, j⟩ := t
      cases call with
      | pay deadline i method => exact absurd rfl (other deadline i method)
      | _ => exact ⟨rfl, Bool.and_false _⟩
    rw [settlements, records, counts, flags.1, flags.2]
    exact ⟨rfl, rfl⟩

theorem Reachable.paid_balance (h : Reachable Serving y) :
    y.world.settledCount = y.world.bus.count .paid + y.threads.countP Thread.isUnannounced +
      y.threads.countP Thread.isAnnouncing := by
  rw [h.settlements, h.records, ← sum_toNat, ← sum_toNat, ← List.sum_map_add, ← List.sum_map_add]
  exact congrArg List.sum (List.map_congr_left fun t mem => (h.announcements mem).1)

theorem Reachable.failure_count (h : Reachable Serving y) (on : y.world.meter.enabled = true) :
    y.world.meter.count (.publishFailures .paid) =
      y.threads.countP Thread.isUnannounced % 0x10000000000000000 := by
  rw [h.counts _ on, ← sum_toNat]
  have each : (y.threads.map fun t =>
        (t.trace.map (Encounter.counts (.publishFailures .paid))).sum) =
      y.threads.map fun t => t.isUnannounced.toNat :=
    List.map_congr_left fun t mem => (h.announcements mem).2
  rw [each]

/-- A record about a payment was made by a payment, after its mark. -/
theorem Reachable.paid_record (h : Reachable Serving y) {p i : Nat} {r : Bus.Record}
    (there : (y.world.bus.log .paid p)[i]? = some r) :
    ∃ t ∈ y.threads, ∃ id method x o u, Fulfilment.Announces id method x o u ⟨p, i⟩ t.trace ∧
      r.key = id.text ∧ r.payload = (Event.payment (Fulfilment.payment u o method x)).encode ∧
      o.id = id := by
  obtain ⟨t, mem, published⟩ := h.published there
  rcases h.pays_or_spares mem with ⟨deadline, id, method, tr, j, rfl, path⟩ | ⟨-, spares⟩
  · obtain ⟨x, o, u, -, key, payload, announces⟩ := path.publish_of_mem published
    obtain ⟨-, -, stored, found, older⟩ := h.known _ mem _ announces.marked
    have named : o.id = id := older.id.symm.trans (h.named id stored found)
    exact ⟨_, mem, id, method, x, o, u, announces, by rw [key, named], payload, named⟩
  · have none := (spares _ published).records
    simp [Encounter.records, Encounter.publication?] at none

theorem add_le_sum {f : Thread → Nat} {ts : List Thread} {t u : Thread} (mem : t ∈ ts)
    (mem' : u ∈ ts) (other : t ≠ u) : f t + f u ≤ (ts.map f).sum := by
  induction ts with
  | nil => cases mem
  | cons v ts ih =>
    rw [List.map_cons, List.sum_cons]
    rcases List.mem_cons.mp mem with rfl | before
    · rcases List.mem_cons.mp mem' with rfl | later
      · exact absurd rfl other
      · have le := List.le_sum_of_mem (List.mem_map_of_mem (f := f) later)
        omega
    · rcases List.mem_cons.mp mem' with rfl | later
      · have le := List.le_sum_of_mem (List.mem_map_of_mem (f := f) before)
        omega
      · have le := ih before later
        omega

/-- No two calls mark one order. -/
theorem Reachable.mark_unique (h : Reachable Serving y) {t u : Thread} (mem : t ∈ y.threads)
    (mem' : u ∈ y.threads) {id : OrderId} {x x' : TransactionId} {m m' : PaymentMethod}
    {o o' : Order}
    (marked : .reply (.changeOrder id .pendingPayment (.paid x m)) (.ok o) ∈ t.trace)
    (marked' : .reply (.changeOrder id .pendingPayment (.paid x' m')) (.ok o') ∈ u.trace) :
    t = u := by
  by_contra other
  have total := h.settles id
  have both := add_le_sum (f := fun t => (t.trace.map (Encounter.settles id)).sum) mem mem' other
  have once := one_le_settles marked
  have again := one_le_settles marked'
  have bound := Bool.toNat_le (y.world.isSettled id)
  omega

/-- Records about payments with one key are at one place. -/
theorem Reachable.paid_record_unique (h : Reachable Serving y) {p i q k : Nat} {r s : Bus.Record}
    (there : (y.world.bus.log .paid p)[i]? = some r)
    (there' : (y.world.bus.log .paid q)[k]? = some s) (same : r.key = s.key) :
    p = q ∧ i = k := by
  obtain ⟨t, mem, id, _, _, _, _, announces, key, -⟩ := h.paid_record there
  obtain ⟨t', mem', id', _, _, _, _, announces', key', -⟩ := h.paid_record there'
  obtain rfl : id = id' := OrderId.text_injective (key.symm.trans (same.trans key'))
  obtain rfl : t = t' := h.mark_unique mem mem' announces.marked announces'.marked
  have place := announces.place announces'
  exact ⟨congrArg Bus.Position.partition place, congrArg Bus.Position.offset place⟩

/-- A record about a payment tells what is stored of it. -/
theorem Reachable.paid_record_true (h : Reachable Serving y) {p i : Nat} {r : Bus.Record}
    (there : (y.world.bus.log .paid p)[i]? = some r) :
    ∃ e o, PaymentCompleted.decode .paid r.payload = .ok e ∧ r.key = e.order.text ∧
      y.world.store.orders.find? e.order = some o ∧ o.status.isSettled = true ∧
      o.user = e.user ∧ o.method = some e.method ∧ o.transaction = some e.transaction := by
  obtain ⟨t, mem, id, method, x, o, u, announces, key, payload, rfl⟩ := h.paid_record there
  obtain ⟨stored, found, settled, transaction, paidBy⟩ := h.mark_lasts mem announces.marked
  obtain ⟨-, -, stored', found', older⟩ := h.known _ mem _ announces.marked
  obtain rfl : stored = stored' := Option.some.inj (found.symm.trans found')
  have decoded := (Fulfilment.payment u o method x).decode_encode
  rw [← payload] at decoded
  exact ⟨_, stored, decoded, key, found, settled, older.user, paidBy, transaction⟩

/-- Builds are announced by nothing but polls, about payments that they have read. -/
theorem Reachable.announces_build (h : Reachable Serving y) {t : Thread} (mem : t ∈ y.threads)
    {key : String} {payload : Bytes} {position : Bus.Position}
    (published : .reply (.publish .assembled key payload) (.ok position) ∈ t.trace) :
    ∃ p i m e, .reply (.fetch .paid p i) (.ok (some m)) ∈ t.trace ∧
      PaymentCompleted.decode m.topic m.payload = .ok e ∧
      Assembly.Announces e (.publish .assembled key payload) := by
  have path := h.coherent t mem
  have service := h.served t mem
  obtain ⟨call, tr, j⟩ := t
  dsimp only at path service published
  cases service with
  | create deadline user parts method =>
    cases (Fulfilment.create_quiet deadline user parts method).of_mem path published
  | pay deadline id method =>
    obtain ⟨_, _, _, other, -⟩ := (h.paying mem).publish_of_mem published
    cases other
  | cancel id => cases (Fulfilment.cancel_quiet id).of_mem path published
  | complete b => cases (Fulfilment.completeBuild_quiet b).of_mem path published
  | @poll build channel config c worker signal p =>
    rcases Workers.poll_mem worker path published with same | ⟨i, same⟩ | ⟨i, m, fetched, asked⟩
    · cases same
    · cases same
    rcases asked with own | quiet | ⟨e, topic, decoded, announces⟩
    · generalize same : Request.publish .assembled key payload = r at own
      cases own with
      | bury =>
        injection same with topic
        exact absurd topic.symm (Consumer.deadLetters_ne_assembled _)
      | _ => cases same
    · cases quiet
    · exact ⟨p, i, m, e, topic ▸ fetched, decoded, announces⟩

/-- A record about a build has a record about a payment before it. -/
theorem Reachable.assembled_record (h : Reachable Serving y) {p i : Nat} {r : Bus.Record}
    (there : (y.world.bus.log .assembled p)[i]? = some r) :
    ∃ (b : BuildCompleted) (q k : Nat) (e : PaymentCompleted) (s : Bus.Record),
      BuildCompleted.decode .assembled r.payload = .ok b ∧ r.key = b.order.text ∧
      (y.world.bus.log .paid q)[k]? = some s ∧
      PaymentCompleted.decode .paid s.payload = .ok e ∧ e.order = b.order ∧ e.user = b.user := by
  obtain ⟨t, mem, published⟩ := h.published there
  obtain ⟨q, k, m, e, fetched, decoded, u, elapsed, same⟩ := h.announces_build mem published
  obtain ⟨s, there', rfl⟩ := h.known t mem _ fetched
  injection same with _ key payload
  have built := (Assembly.completion u e elapsed).decode_encode
  rw [← payload] at built
  exact ⟨_, q, k, e, s, built, key, there', decoded, rfl, rfl⟩

end Yard
end Shipyard

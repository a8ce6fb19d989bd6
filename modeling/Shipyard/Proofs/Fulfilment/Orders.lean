import Shipyard.Proofs.Fulfilment.Announcements
import Shipyard.Proofs.Fulfilment.History
import Shipyard.Proofs.Fulfilment.Shifts

/-!
# Order operations before the workers begin

A yard is orderly if nothing but order operations ever began in it and no failure switch was thrown;
the operations may run side by side. When all of them have ended, every order that was paid has one
record about its payment, nothing else was put on the bus, and so the books are right.
-/

namespace Shipyard

/-- What an order operation may ask: it publishes nothing but payments, and does none of the work
of the workers. -/
def Request.isOrdering : Request → Bool
  | .publish t _ _ => t = .paid
  | .commit _ _ _ _ => false
  | .send _ => false
  | .changeOrder _ _ .assembled => false
  | .setWritesDown _ => false
  | _ => true

def Encounter.isOrdering : Encounter → Bool
  | .reply r _ => r.isOrdering
  | .woken _ _ _ => true

/-- The order operations. -/
inductive Call.IsOrdering : Call → Prop
  | create (deadline : Span) (user : UserId) (parts : List PartId) (method : Option PaymentMethod) :
      IsOrdering (.create deadline user parts method)
  | pay (deadline : Span) (id : OrderId) (method : PaymentMethod) :
      IsOrdering (.pay deadline id method)
  | cancel (id : OrderId) : IsOrdering (.cancel id)

namespace Call.IsOrdering

theorem service {c : Call} (h : c.IsOrdering) : c.OfService := by
  cases h with
  | create deadline user parts method => exact .create deadline user parts method
  | pay deadline id method => exact .pay deadline id method
  | cancel id => exact .cancel id

theorem create_ordering (deadline : Span) (user : UserId) (parts : List PartId)
    (method : Option PaymentMethod) :
    (Fulfilment.create .direct deadline user parts method).Asks fun r => r.isOrdering = true := by
  refine (Fulfilment.create_taking deadline user parts method).mono fun r taking => ?_
  cases r with
  | publish => cases taking
  | commit => cases taking
  | send => cases taking
  | changeOrder => cases taking
  | setWritesDown => cases taking
  | _ => rfl

theorem cancel_ordering (id : OrderId) :
    (Fulfilment.cancel .direct id).Asks fun r => r.isOrdering = true := by
  refine ⟨rfl, fun x => ?_⟩
  cases x with
  | error e => trivial
  | ok o => exact ⟨rfl, fun _ => trivial⟩

theorem pay_ordering {id : OrderId} {method : PaymentMethod} {tr : Trace}
    {j : Job (Except Fulfilment.Error TransactionId)} (h : Fulfilment.Paying id method tr j) :
    ∀ e ∈ tr, e.isOrdering = true := by
  cases h with
  | won o now u o' rest =>
    cases rest <;> simp [Fulfilment.toCharge, Encounter.isOrdering, Request.isOrdering]
  | _ => simp [Fulfilment.toCharge, Encounter.isOrdering, Request.isOrdering]

theorem asked {c : Call} (h : c.IsOrdering) {tr : Trace} {j : Job c.Result}
    (path : c.job.After tr j) : ∀ e ∈ tr, e.isOrdering = true := by
  intro e mem
  cases h with
  | pay deadline id method => exact pay_ordering (Fulfilment.pay_course path) e mem
  | create deadline user parts method =>
    cases e with
    | woken => rfl
    | reply r x => exact (create_ordering deadline user parts method).of_mem path mem
  | cancel id =>
    cases e with
    | woken => rfl
    | reply r x => exact (cancel_ordering id).of_mem path mem

end Call.IsOrdering

/-- No failure switch is thrown. -/
structure World.IsUp (w : World) : Prop where
  reads : w.store.readsDown = false
  writes : w.store.writesDown = false
  bus : w.bus.down = false
  channel : w.outbox.down = false

theorem World.Meets.sent {w w' : World} {e : Encounter} (h : w.Meets e w') :
    w'.outbox.sent = w.outbox.sent ∨ ∃ text x, e = .reply (.send text) x := by
  cases h.alters with
  | @send text outbox done => exact .inr ⟨text, _, rfl⟩
  | _ => exact .inl rfl

/-- Order operations throw no failure switch. -/
theorem World.Meets.isUp {w w' : World} {e : Encounter} (h : w.Meets e w')
    (ordering : e.isOrdering = true) (up : w.IsUp) : w'.IsUp := by
  obtain ⟨reads, writes, bus, channel⟩ := up
  cases h.alters with
  | insertOrder done =>
    obtain ⟨-, rfl⟩ := Store.insert_ok done
    exact ⟨reads, writes, bus, channel⟩
  | changeOrder done =>
    obtain ⟨-, -, -, -, rfl⟩ := Store.transition_ok done
    exact ⟨reads, writes, bus, channel⟩
  | publish done =>
    obtain ⟨-, rfl⟩ := Bus.publish_ok done
    exact ⟨reads, writes, bus, channel⟩
  | setWritesDown => cases ordering
  | commit => cases ordering
  | send => cases ordering
  | _ => exact ⟨reads, writes, bus, channel⟩

theorem World.Meets.not_unavailable {w w' : World} (up : w.bus.down = false) {t : Topic}
    {key : String} {payload : Bytes} {e : Bus.Error} :
    ¬ w.Meets (.reply (.publish t key payload) (.error e)) w' := by
  intro h
  have refused := h.reply (by simp)
  rw [World.answer, World.tried_map, Bus.publish, up] at refused
  cases refused

namespace Yard

variable {y : Yard}

/-- Reached by order operations, with no failure switch ever thrown. -/
inductive Orderly : Yard → Prop
  | empty (partitions : Nat) (measured : Bool) (today : Instant) :
      Orderly (.empty partitions measured today)
  | step {y y' : Yard} (before : Orderly y) (step : Step (fun _ c => c.IsOrdering) y y')
      (up : y'.world.IsUp) : Orderly y'

namespace Orderly

theorem up (h : Orderly y) : y.world.IsUp := by
  cases h with
  | empty => exact ⟨rfl, rfl, rfl, rfl⟩
  | step _ _ up => exact up

theorem reachable (h : Orderly y) : Reachable (fun _ c => c.IsOrdering) y := by
  induction h with
  | empty n b d => exact .empty n b d
  | step _ step _ ih => exact ih.step step

theorem serving (h : Orderly y) : Reachable Serving y :=
  h.reachable.mono fun _ _ ordering => ordering.service

theorem asked (h : Orderly y) {t : Thread} (mem : t ∈ y.threads) :
    ∀ e ∈ t.trace, e.isOrdering = true := by
  obtain ⟨_, _, _, ordering⟩ := h.reachable.begun t mem
  exact ordering.asked (h.reachable.coherent t mem)

theorem advance (h : Orderly y) (i : Nat) : Orderly (y.advance i) := by
  obtain same | ⟨before, t, after, e, k, w, parts, world, job, moved, -⟩ := advance_cases y i
  · rw [same]
    exact h
  · have mem : t ∈ y.threads := by simp [parts]
    have ordering : e.isOrdering = true := by
      obtain ⟨_, _, _, ordering⟩ := h.reachable.begun t mem
      exact ordering.asked ((h.reachable.coherent t mem).snoc job) e (by simp)
    have step : Step (fun _ c => c.IsOrdering) ⟨y.world, before ++ t :: after⟩
        ⟨w, before ++ t.push e k :: after⟩ := .move world job
    rw [← parts] at step
    rw [moved]
    exact .step h step (world.isUp ordering h.up)

/-- A schedule of order operations with no failure switch. -/
theorem play (h : Orderly y) {acts : List Act} (begins : ∀ c, .begin c ∈ acts → c.IsOrdering)
    (smooth : ∀ f, .flip f ∈ acts → f.isSwitch = false) : Orderly (y.play acts) := by
  induction acts generalizing y with
  | nil => exact h
  | cons a acts ih =>
    have first : Orderly (y.act a) := by
      cases a with
      | flip f =>
        obtain ⟨store, bus, outbox, -⟩ := World.flip_kept (w := y.world)
          (smooth f (List.mem_cons_self ..))
        obtain ⟨reads, writes, up, channel⟩ := h.up
        refine .step h (.flip y f) ⟨?_, ?_, ?_, ?_⟩
        · exact store ▸ reads
        · exact store ▸ writes
        · exact bus ▸ up
        · exact outbox ▸ channel
      | begin c => exact .step h (.begin y c (begins c (List.mem_cons_self ..))) h.up
      | move i => exact h.advance i
    exact ih first (fun c mem => begins c (List.mem_cons_of_mem _ mem))
      fun f mem => smooth f (List.mem_cons_of_mem _ mem)

/-- No publication of an orderly yard was refused. -/
theorem published (h : Orderly y) {t : Thread} (mem : t ∈ y.threads) {topic : Topic}
    {key : String} {payload : Bytes} {e : Bus.Error} :
    .reply (.publish topic key payload) (.error e) ∉ t.trace := by
  intro refused
  induction h generalizing t with
  | empty => cases mem
  | @step y y' before step _ ih =>
    rcases step.mem_threads mem with mem | ⟨c, -, rfl⟩ | ⟨u, e', k, old, world, -, rfl⟩
    · exact ih mem refused
    · cases refused
    · rcases List.mem_append.mp refused with earlier | now
      · exact ih old earlier
      · obtain rfl := List.mem_singleton.mp now
        exact World.Meets.not_unavailable before.up.bus world

theorem offset_eq (h : Orderly y) (g : String) (t : Topic) (p : Nat) :
    y.world.bus.offset g t p = 0 := by
  by_contra moved
  obtain ⟨u, mem, e, he, n, x, rfl⟩ := h.reachable.traced (P := fun w => w.bus.offset g t p ≠ 0)
    (Q := fun e => ∃ n x, e = .reply (.commit g t p n) x)
    (fun _ _ _ => by simp [World.empty, Bus.empty, Bus.offset])
    (fun w x moved => by cases x <;> exact moved)
    (fun w e w' met moved => by
      rcases met.offset g t p with same | ⟨n, x, rfl, -⟩
      · exact .inl (same ▸ moved)
      · exact .inr ⟨n, x, rfl⟩) moved
  cases h.asked mem _ he

theorem sent_eq (h : Orderly y) : y.world.outbox.sent = [] := by
  by_contra some
  obtain ⟨u, mem, e, he, text, x, rfl⟩ := h.reachable.traced (P := fun w => w.outbox.sent ≠ [])
    (Q := fun e => ∃ text x, e = .reply (.send text) x)
    (fun _ _ _ => by simp [World.empty, Outbox.empty])
    (fun w x some => by cases x <;> exact some)
    (fun w e w' met some => by
      rcases met.sent with same | sent
      · exact .inl (same ▸ some)
      · exact .inr sent) some
  cases h.asked mem _ he

theorem log_eq (h : Orderly y) {t : Topic} (other : t ≠ .paid) (p : Nat) :
    y.world.bus.log t p = [] := by
  by_contra some
  obtain ⟨r, rest, log⟩ := List.exists_cons_of_ne_nil some
  have there : (y.world.bus.log t p)[0]? = Option.some r := by simp [log]
  obtain ⟨u, mem, published⟩ := h.reachable.published there
  have paid := h.asked mem _ published
  exact other (by simpa [Encounter.isOrdering, Request.isOrdering] using paid)

/-- No order is assembled yet. -/
theorem unassembled (h : Orderly y) {id : OrderId} {o : Order}
    (found : y.world.store.orders.find? id = some o) : o.status ≠ .assembled := by
  intro assembled
  obtain ⟨u, mem, e, he, x, write, status⟩ := h.reachable.traced
    (P := fun w => ∃ o, w.store.orders.find? id = some o ∧ o.status = .assembled)
    (Q := fun e => ∃ x, e.write? = some x ∧ x.order.status = .assembled)
    (fun _ _ _ => by simp [World.empty, Store.empty])
    (fun w x some => by cases x <;> exact some)
    (fun w e w' met some => by
      obtain ⟨o, found, status⟩ := some
      cases write : e.write? with
      | none => exact .inl ⟨o, met.unwritten write ▸ found, status⟩
      | some x =>
        rw [(met.written write).1, Table.find?_put] at found
        split at found
        · exact .inr ⟨x, rfl, Option.some.inj found ▸ status⟩
        · exact .inl ⟨o, found, status⟩) ⟨o, found, assembled⟩
  have asked := h.asked mem e he
  unfold Encounter.write? at write
  split at write
  · next o _ =>
    cases write
    obtain ⟨pending, -⟩ := (h.serving.served u mem).inserted (h.reachable.coherent u mem) he
    rw [pending] at status
    cases status
  · next i expected c o =>
    cases write
    obtain ⟨target, -⟩ := h.reachable.known u mem _ he
    cases c with
    | assembled => cases asked
    | paid t m => rw [status] at target; cases target
    | cancelled => rw [status] at target; cases target
  · cases write

end Orderly
end Yard

namespace Fulfilment

variable {i id : OrderId} {method : PaymentMethod} {t : TransactionId} {o : Order} {u : Uuid}
  {position : Bus.Position} {tr : Trace} {j : Job (Except Error TransactionId)}

theorem Announces.published (h : Announces id method t o u position tr) :
    .reply (.publish .paid o.id.text (Event.payment (payment u o method t)).encode)
      (.ok position) ∈ tr := by
  obtain ⟨o₀, now, rfl⟩ := h
  simp [announcement]

/-- A payment that has marked an order and has ended without a failure has announced itself. -/
theorem Paying.announces_of_over (h : Paying i method tr j)
    (marked : (tr.map (Encounter.settles id)).sum ≠ 0)
    {deadline : Span} (past : Thread.isOver ⟨.pay deadline i method, tr, j⟩ = true)
    (accepted : ∀ topic key payload e, .reply (.publish topic key payload) (.error e) ∉ tr) :
    i = id ∧ ∃ t o u position, Announces i method t o u position tr := by
  cases h with
  | won o now v o' rest =>
    have same : i = id := by
      by_contra other
      cases rest <;>
        simp [toCharge, Encounter.settles, Encounter.write?, other] at marked
    cases rest with
    | announced u p => exact ⟨same, ⟨v⟩, o', u, p, o, now, rfl⟩
    | unannounced u e =>
      exact absurd (by simp)
        (accepted .paid o'.id.text (Event.payment (payment u o' method ⟨v⟩)).encode e)
    | _ => cases past
  | _ => simp [toCharge, Encounter.settles, Encounter.write?] at marked

end Fulfilment

namespace Pages

variable {qs : Nat → List PaymentCompleted}

/-- The pages of a bus that has nothing on it but payments. -/
def ofPayments (qs : Nat → List PaymentCompleted) : Pages :=
  fun t p => if t = .paid then (qs p).map .payment else []

theorem topic_of_mem_ofPayments {t : Topic} {p : Nat} {e : Event} (mem : e ∈ ofPayments qs t p) :
    e.topic = t := by
  unfold ofPayments at mem
  split at mem
  · next paid =>
    obtain ⟨q, -, rfl⟩ := List.mem_map.mp mem
    exact paid.symm
  · cases mem

theorem orders_ofPayments (n : Nat) : (gather n (ofPayments qs .paid)).map Event.order =
    gather n fun p => (qs p).map PaymentCompleted.order := by
  simp [gather, ofPayments, List.map_flatMap, Function.comp_def, Event.order]

theorem gather_finished_zero (pages : Pages) (n : Nat) (d : Duty) :
    gather n (pages.finished (fun _ _ => 0) d) = [] := by
  simp [gather, finished]

end Pages

/-- What is nowhere twice in the lists is not twice in all of them. -/
theorem nodup_gather {α : Type} {n : Nat} {f : Nat → List α}
    (unique : ∀ (p q i k : Nat) (x : α), (f p)[i]? = some x → (f q)[k]? = some x →
      p = q ∧ i = k) :
    (gather n f).Nodup := by
  rw [gather, List.nodup_flatMap]
  constructor
  · intro p _
    rw [List.nodup_iff_getElem?_ne_getElem?]
    intro i k less inside same
    have there : (f p)[k]? = some (f p)[k] := List.getElem?_eq_getElem inside
    obtain ⟨-, place⟩ := unique p p i k _ (same.trans there) there
    omega
  · refine List.nodup_range.imp fun {p q} other x mem mem' => ?_
    obtain ⟨i, there⟩ := List.mem_iff_getElem?.mp mem
    obtain ⟨k, there'⟩ := List.mem_iff_getElem?.mp mem'
    exact other (unique p q i k x there there').1

namespace Yard

variable {y : Yard}

/-- A record about a payment, read as such. -/
theorem Reachable.paid_record_eq (h : Reachable Serving y) {p i : Nat} {r : Bus.Record}
    (there : (y.world.bus.log .paid p)[i]? = some r) :
    ∃ q : PaymentCompleted, r = (Event.payment q).record := by
  obtain ⟨-, -, id, method, x, o, u, -, key, payload, rfl⟩ := h.paid_record there
  exact ⟨Fulfilment.payment u o method x, Event.record_eq key payload⟩

/-- A record about a payment agrees with the store. -/
theorem Reachable.payment_true (h : Reachable Serving y) {p i : Nat} {q : PaymentCompleted}
    (there : (y.world.bus.log .paid p)[i]? = some (Event.payment q).record) :
    ∃ o, y.world.store.orders.find? q.order = some o ∧ o.status.isSettled = true ∧
      o.user = q.user ∧ o.method = some q.method ∧ o.transaction = some q.transaction := by
  obtain ⟨e, o, decoded, -, found, settled, user, method, transaction⟩ := h.paid_record_true there
  rw [q.decode_record] at decoded
  obtain rfl := Except.ok.inj decoded
  exact ⟨o, found, settled, user, method, transaction⟩

namespace Orderly

theorem record_of_settled (h : Orderly y) (past : ∀ t ∈ y.threads, t.isOver = true) {id : OrderId}
    (settled : y.world.isSettled id = true) :
    ∃ (p i : Nat) (q : PaymentCompleted), p < y.world.bus.partitions ∧ q.order = id ∧
      (y.world.bus.log .paid p)[i]? = some (Event.payment q).record := by
  have total := h.serving.settles id
  rw [settled] at total
  obtain ⟨t, mem, marked⟩ : ∃ t ∈ y.threads, (t.trace.map (Encounter.settles id)).sum ≠ 0 := by
    by_contra none
    push Not at none
    have zero := List.sum_eq_zero fun n mem => by
      obtain ⟨t, there, rfl⟩ := List.mem_map.mp mem
      exact none t there
    rw [zero] at total
    cases total
  rcases h.serving.pays_or_spares mem with ⟨deadline, i, method, tr, j, rfl, path⟩ | ⟨-, spares⟩
  · obtain ⟨rfl, x, o, u, position, announces⟩ :=
      path.announces_of_over marked (past _ mem) fun _ _ _ _ => h.published mem
    obtain ⟨inside, there⟩ := h.reachable.known _ mem _ announces.published
    obtain ⟨-, -, stored, found, older⟩ := h.reachable.known _ mem _ announces.marked
    have named : o.id = i := older.id.symm.trans (h.reachable.named i stored found)
    exact ⟨position.partition, position.offset, Fulfilment.payment u o method x, inside, named,
      there⟩
  · exact absurd (Trace.sum_eq_zero fun e he => (spares e he).settles id) marked

section Payments

variable {qs : Nat → List PaymentCompleted}

/-- All that is on the bus are payments. -/
theorem exists_payments (h : Orderly y) : ∃ qs : Nat → List PaymentCompleted,
    ∀ t p, y.world.bus.log t p = (Pages.ofPayments qs t p).map Event.record := by
  have logs (p : Nat) : ∃ qs : List PaymentCompleted,
      y.world.bus.log .paid p = qs.map fun q => (Event.payment q).record := by
    refine exists_map_eq fun r mem => ?_
    obtain ⟨i, there⟩ := List.mem_iff_getElem?.mp mem
    exact h.serving.paid_record_eq there
  choose qs log using logs
  refine ⟨qs, fun t p => ?_⟩
  by_cases paid : t = .paid
  · subst paid
    simp [Pages.ofPayments, log, Function.comp_def]
  · simp [Pages.ofPayments, paid, h.log_eq paid]

variable (logs : ∀ t p, y.world.bus.log t p = (Pages.ofPayments qs t p).map Event.record)

include logs in
theorem payment_there {p i : Nat} {q : PaymentCompleted} (there : (qs p)[i]? = some q) :
    (y.world.bus.log .paid p)[i]? = some (Event.payment q).record := by
  rw [logs, List.getElem?_map, Pages.ofPayments, if_pos rfl, List.getElem?_map, there]
  rfl

include logs in
theorem nodup_payments (h : Orderly y) :
    (gather y.world.bus.partitions fun p => (qs p).map PaymentCompleted.order).Nodup := by
  refine nodup_gather fun p q i k id there there' => ?_
  rw [List.getElem?_map, Option.map_eq_some_iff] at there there'
  obtain ⟨x, there, order⟩ := there
  obtain ⟨x', there', order'⟩ := there'
  refine h.serving.paid_record_unique (payment_there logs there) (payment_there logs there') ?_
  exact congrArg OrderId.text (order.trans order'.symm)

include logs in
/-- Once every call has ended, each order that was paid has one payment. -/
theorem count_payments (h : Orderly y) (past : ∀ t ∈ y.threads, t.isOver = true) (id : OrderId) :
    (gather y.world.bus.partitions fun p => (qs p).map PaymentCompleted.order).count id =
      (y.world.isSettled id).toNat := by
  cases settled : y.world.isSettled id with
  | true =>
    obtain ⟨p, i, q, inside, order, there⟩ := h.record_of_settled past settled
    have mem : .payment q ∈ Pages.ofPayments qs .paid p := by
      rw [logs, List.getElem?_map, Option.map_eq_some_iff] at there
      obtain ⟨e, there, same⟩ := there
      have mem := List.mem_of_getElem? there
      obtain ⟨q', -, rfl⟩ := List.mem_map.mp mem
      have same : Event.payment q' = .payment q := Event.record_inj rfl same
      exact same ▸ mem
    obtain ⟨q', member, same⟩ := List.mem_map.mp mem
    cases same
    refine List.count_eq_one_of_mem (h.nodup_payments logs) (mem_gather.mpr ⟨p, inside, ?_⟩)
    exact List.mem_map.mpr ⟨q, member, order⟩
  | false =>
    rw [Bool.toNat_false, List.count_eq_zero]
    intro mem
    obtain ⟨p, -, mem⟩ := mem_gather.mp mem
    obtain ⟨q, member, rfl⟩ := List.mem_map.mp mem
    obtain ⟨i, there⟩ := List.mem_iff_getElem?.mp member
    obtain ⟨o, found, paid, -⟩ := h.serving.payment_true (payment_there logs there)
    rw [World.isSettled, found, Option.any_some, paid] at settled
    cases settled

end Payments

/-- The books of an orderly yard in which every call has ended. -/
theorem booked (h : Orderly y) (past : ∀ t ∈ y.threads, t.isOver = true) : y.world.IsBooked := by
  obtain ⟨qs, logs⟩ := h.exists_payments
  refine ⟨.ofPayments qs, ?_⟩
  have offsets : (fun (d : Duty) p => y.world.bus.offset d.group d.topic p) = fun _ _ => 0 := by
    funext d p
    exact h.offset_eq _ _ _
  rw [offsets]
  constructor
  case reads => exact h.up.reads
  case writes => exact h.up.writes
  case bus => exact h.up.bus
  case channel => exact h.up.channel
  case logs => exact logs
  case kinds => exact fun t p e => Pages.topic_of_mem_ofPayments
  case bound => exact fun d p _ => Nat.zero_le _
  case counted =>
    intro id
    rw [Pages.orders_ofPayments]
    exact h.count_payments logs past id
  case agreed =>
    intro p q _ mem
    obtain ⟨q', mem, same⟩ := List.mem_map.mp mem
    cases same
    obtain ⟨i, there⟩ := List.mem_iff_getElem?.mp mem
    exact h.serving.payment_true (payment_there logs there)
  case built =>
    rw [Pages.gather_finished_zero]
    simp [gather, Pages.ofPayments]
  case told =>
    rw [Pages.gather_finished_zero, Pages.gather_finished_zero, h.sent_eq]
    exact .refl _
  case completed =>
    intro p _ e mem
    simp [Pages.finished] at mem

end Orderly
end Yard
end Shipyard

import Shipyard.Proofs.Delivery.Running
import Shipyard.Proofs.Fulfilment.Drains
import Shipyard.Proofs.Fulfilment.Orders

/-!
# Fulfilment is complete

Whatever order operations were made, and however many shifts of the workers were cut short by
shutdowns, one drain of each worker brings all to its end: each order that was paid is assembled,
has one record about its build and two texts, and nothing else has happened.
-/

namespace Shipyard

namespace Table

variable {κ ν : Type} [DecidableEq κ] {t : Table κ ν} {k : κ} {v : ν}

theorem keys_put (t : Table κ ν) (k : κ) (v : ν) :
    (t.put k v).keys = if k ∈ t.keys then t.keys else t.keys ++ [k] := by
  obtain ⟨es⟩ := t
  induction es with
  | nil => rfl
  | cons e es ih =>
    obtain ⟨k', v'⟩ := e
    simp only [put, keys, putIn, List.map_cons, List.mem_cons] at ih ⊢
    by_cases same : k' = k
    · simp [same]
    · by_cases mem : k ∈ es.map Prod.fst <;> simp [same, Ne.symm same, ih, mem]

theorem nodup_keys_put (h : t.keys.Nodup) : (t.put k v).keys.Nodup := by
  rw [keys_put]
  split
  · exact h
  · next fresh =>
    refine List.nodup_append.mpr ⟨h, List.nodup_singleton k, fun k' mem j single => ?_⟩
    rw [List.mem_singleton.mp single]
    exact fun same => fresh (same ▸ mem)

theorem mem_entries_iff (h : t.keys.Nodup) : (k, v) ∈ t.entries ↔ t.find? k = some v := by
  obtain ⟨es⟩ := t
  induction es with
  | nil => simp [find?, findIn]
  | cons e es ih =>
    obtain ⟨k', v'⟩ := e
    obtain ⟨fresh, rest⟩ := List.nodup_cons.mp h
    have ih := ih rest
    simp only [find?, findIn, List.mem_cons, Prod.mk.injEq] at ih ⊢
    by_cases same : k' = k
    · subst same
      have absent : (k', v) ∉ es := fun mem => fresh (List.mem_map.mpr ⟨_, mem, rfl⟩)
      simp [absent, eq_comm]
    · simp [same, Ne.symm same, ih]

end Table

namespace World

/-- The orders that are paid and not assembled yet. -/
def paidOrders (w : World) : List Order :=
  w.store.orders.values.filter fun o => o.status = .paid

/-- Every order is there once, under its own identifier, and none is assembled yet. -/
structure IsOrdered (w : World) : Prop where
  named : w.Named
  keyed : w.store.orders.keys.Nodup
  unassembled : ∀ id o, w.store.orders.find? id = some o → o.status ≠ .assembled

variable {w : World}

theorem IsOrdered.mem_paidOrders (h : w.IsOrdered) {o : Order} :
    o ∈ w.paidOrders ↔ w.store.orders.find? o.id = some o ∧ o.status = .paid := by
  rw [paidOrders, List.mem_filter, Table.values, List.mem_map, decide_eq_true_iff]
  refine and_congr_left fun _ => ⟨?_, fun found => ?_⟩
  · rintro ⟨⟨id, o⟩, mem, rfl⟩
    have found := (Table.mem_entries_iff h.keyed).mp mem
    rw [h.named id o found]
    exact found
  · exact ⟨(o.id, o), (Table.mem_entries_iff h.keyed).mpr found, rfl⟩

theorem IsOrdered.nodup_paidOrders (h : w.IsOrdered) : (w.paidOrders.map Order.id).Nodup := by
  have ids : w.store.orders.values.map Order.id = w.store.orders.keys := by
    rw [Table.values, Table.keys, List.map_map]
    refine List.map_congr_left fun e mem => ?_
    exact h.named e.1 e.2 ((Table.mem_entries_iff h.keyed).mp mem)
  have among : (w.paidOrders.map Order.id).Sublist (w.store.orders.values.map Order.id) :=
    List.filter_sublist.map _
  rw [ids] at among
  exact among.nodup h.keyed

end World

theorem Yard.Reachable.keyed {may : World → Call → Prop} {y : Yard} (h : Reachable may y) :
    y.world.store.orders.keys.Nodup := by
  refine h.always (P := fun w => w.store.orders.keys.Nodup) (fun _ _ _ => List.nodup_nil)
    (fun w x keyed => by cases x <;> exact keyed) fun w e w' keyed met => ?_
  cases write : e.write? with
  | none =>
    rw [met.unwritten write]
    exact keyed
  | some x =>
    rw [(met.written write).1]
    exact Table.nodup_keys_put keyed

theorem Yard.Orderly.isOrdered {y : Yard} (h : Orderly y) : y.world.IsOrdered :=
  ⟨h.reachable.named, h.reachable.keyed, fun _ _ found => h.unassembled found⟩

/-- What an order and the announcement of its payment have in common. -/
def Order.terms (o : Order) : OrderId × UserId × Option PaymentMethod × Option TransactionId :=
  (o.id, o.user, o.method, o.transaction)

def PaymentCompleted.terms (q : PaymentCompleted) :
    OrderId × UserId × Option PaymentMethod × Option TransactionId :=
  (q.order, q.user, some q.method, some q.transaction)

theorem Store.Advances.exists_paid {s s' : Store} (h : s.Advances s') {id : OrderId} {o' : Order}
    (found : s'.orders.find? id = some o') (settled : o'.status.isSettled = true)
    (unassembled : ∀ o, s.orders.find? id = some o → o.status ≠ .assembled) :
    ∃ o, s.orders.find? id = some o ∧ o.status = .paid ∧ o'.terms = o.terms := by
  rcases h id with same | ⟨o, now, before, paid, assembled⟩
  · rw [same] at found
    rcases Order.Status.isSettled_iff.mp settled with paid | assembled
    · exact ⟨o', found, paid, rfl⟩
    · exact absurd assembled (unassembled o' found)
  · rw [assembled] at found
    cases found
    exact ⟨o, before, paid, rfl⟩

theorem World.isSettled_of_paid {w w' : World} (orders : w.store.Advances w'.store) {id : OrderId}
    {o : Order} (found : w.store.orders.find? id = some o) (paid : o.status = .paid) :
    w'.isSettled id = true := by
  rw [isSettled_of_advances orders, isSettled_iff]
  exact ⟨o, found, .inl paid⟩

theorem Event.claim_fst (e : Event) : e.claim.1 = e.order := by
  cases e <;> rfl

/-- What has become of a world when all is done. -/
structure World.Fulfilled (w₀ w : World) : Prop where
  assembled : ∀ id o, w₀.store.orders.find? id = some o → o.status = .paid →
    ∃ now, w.store.orders.find? id = some { o with status := .assembled, updatedAt := now }
  others : ∀ id, (∀ o, w₀.store.orders.find? id = some o → o.status ≠ .paid) →
    w.store.orders.find? id = w₀.store.orders.find? id
  /-- One build and two texts for each order that was paid, and no others. -/
  announced : ∃ (payments : List PaymentCompleted) (builds : List BuildCompleted),
    (payments.map PaymentCompleted.terms).Perm (w₀.paidOrders.map Order.terms) ∧
    (builds.map fun b => (b.order, b.user)).Perm (w₀.paidOrders.map fun o => (o.id, o.user)) ∧
    (w.bus.messages .assembled).map (fun m => BuildCompleted.decode m.topic m.payload) =
      builds.map .ok ∧
    w.outbox.sent.Perm (payments.map Notice.orderPaid ++ builds.map Notice.orderAssembled)
  lag : ∀ d : Duty, w.bus.lag d.group d.topic = 0
  deadLetters : ∀ t : Topic, w.bus.messages t.deadLetters = []

/-- The payloads of a topic, read partition by partition. -/
theorem Bus.map_messages {α : Type} (f : Topic → Bytes → α) (b : Bus) (t : Topic) :
    ((b.messages t).map fun m => f m.topic m.payload) =
      gather b.partitions fun p => (b.log t p).map fun r => f t r.payload := by
  rw [messages, gather, List.map_flatMap]
  congr 1
  funext p
  refine List.ext_getElem? fun i => ?_
  simp [List.getElem?_mapIdx, Function.comp_def, delivered]

namespace Books

variable {pages : Pages} {w : World}

/-- What the workers have dealt with once they are done. -/
theorem gather_finished_of_done
    (books : Books pages w fun d p => w.bus.offset d.group d.topic p) {d : Duty}
    (done : d.IsDone w) :
    gather w.bus.partitions (pages.finished (fun d p => w.bus.offset d.group d.topic p) d) =
      gather w.bus.partitions (pages d.topic) := by
  refine gather_congr fun p inside => ?_
  have dealt := done p inside
  rw [books.logs, List.length_map] at dealt
  exact List.take_of_length_le dealt

theorem exists_payments {done : Duty → Nat → Nat} (books : Books pages w done) :
    ∃ qs : List PaymentCompleted, gather w.bus.partitions (pages .paid) = qs.map .payment := by
  refine exists_map_eq fun e mem => ?_
  obtain ⟨p, -, mem⟩ := mem_gather.mp mem
  exact Event.eq_payment (books.kinds .paid p e mem)

theorem exists_builds {done : Duty → Nat → Nat} (books : Books pages w done) :
    ∃ bs : List BuildCompleted, gather w.bus.partitions (pages .assembled) = bs.map .build := by
  refine exists_map_eq fun e mem => ?_
  obtain ⟨p, -, mem⟩ := mem_gather.mp mem
  exact Event.eq_build (books.kinds .assembled p e mem)

section Payments

variable {w₀ : World} {done : Duty → Nat → Nat} {qs : List PaymentCompleted}

theorem exists_paidOrder (books : Books pages w done) (ordered : w₀.IsOrdered)
    (orders : w₀.store.Advances w.store) {q : PaymentCompleted}
    (mem : .payment q ∈ gather w.bus.partitions (pages .paid)) :
    ∃ o ∈ w₀.paidOrders, o.terms = q.terms := by
  obtain ⟨p, inside, mem⟩ := mem_gather.mp mem
  obtain ⟨o', found', settled, user, method, transaction⟩ := books.agreed p q inside mem
  obtain ⟨o, found, paid, terms⟩ :=
    orders.exists_paid found' settled fun o => ordered.unassembled q.order o
  have name : o.id = q.order := ordered.named q.order o found
  have name' : o'.id = q.order := (congrArg Prod.fst terms).trans name
  refine ⟨o, ordered.mem_paidOrders.mpr ⟨name ▸ found, paid⟩, ?_⟩
  rw [← terms, Order.terms, PaymentCompleted.terms, name', user, method, transaction]

/-- The payments that were announced are those of the orders that were paid. -/
theorem payments_perm (books : Books pages w done) (ordered : w₀.IsOrdered)
    (orders : w₀.store.Advances w.store)
    (all : gather w.bus.partitions (pages .paid) = qs.map .payment) :
    (qs.map PaymentCompleted.terms).Perm (w₀.paidOrders.map Order.terms) := by
  have ids : (gather w.bus.partitions (pages .paid)).map Event.order =
      (qs.map PaymentCompleted.terms).map Prod.fst := by
    simp [all, Function.comp_def, Event.order, PaymentCompleted.terms]
  have counted := books.counted
  rw [ids] at counted
  have distinct : (qs.map PaymentCompleted.terms).Nodup := by
    refine List.Nodup.of_map Prod.fst (List.nodup_iff_count_le_one.mpr fun id => ?_)
    rw [counted]
    exact Bool.toNat_le _
  have distinct' : (w₀.paidOrders.map Order.terms).Nodup := by
    refine List.Nodup.of_map Prod.fst ?_
    rw [List.map_map]
    exact ordered.nodup_paidOrders
  have paid (q : PaymentCompleted) (mem : q ∈ qs) : ∃ o ∈ w₀.paidOrders, o.terms = q.terms :=
    books.exists_paidOrder ordered orders (all ▸ List.mem_map_of_mem mem)
  refine (List.perm_ext_iff_of_nodup distinct distinct').mpr fun terms => ?_
  constructor <;> intro mem
  · obtain ⟨q, member, rfl⟩ := List.mem_map.mp mem
    exact List.mem_map.mpr (paid q member)
  · obtain ⟨o, member, rfl⟩ := List.mem_map.mp mem
    obtain ⟨found, status⟩ := ordered.mem_paidOrders.mp member
    have settled := World.isSettled_of_paid orders found status
    have there : o.id ∈ (qs.map PaymentCompleted.terms).map Prod.fst := by
      rw [← List.count_pos_iff, counted, settled]
      exact Nat.one_pos
    rw [List.map_map] at there
    obtain ⟨q, announced, same⟩ := List.mem_map.mp there
    obtain ⟨o', member', terms⟩ := paid q announced
    obtain ⟨found', -⟩ := ordered.mem_paidOrders.mp member'
    have ids : o'.id = o.id := (congrArg Prod.fst terms).trans same
    rw [ids, found] at found'
    cases found'
    rw [terms]
    exact List.mem_map_of_mem announced

end Payments

/-- Every order that was paid is assembled once the workers are done. -/
theorem assembled_of_done (books : Books pages w fun d p => w.bus.offset d.group d.topic p)
    (done : ∀ d : Duty, d.IsDone w) {id : OrderId} (settled : w.isSettled id = true) :
    ∃ o, w.store.orders.find? id = some o ∧ o.status = .assembled := by
  have paid : id ∈ (gather w.bus.partitions (pages .paid)).map Event.order := by
    rw [← List.count_pos_iff, books.counted, settled]
    exact Nat.one_pos
  have built := books.built
  rw [books.gather_finished_of_done (done .build)] at built
  obtain ⟨e, mem, rfl⟩ := List.mem_map.mp paid
  obtain ⟨b, announced, claim⟩ := List.mem_map.mp (built.mem_iff.mpr (List.mem_map_of_mem mem))
  have order : b.order = e.order := by
    rw [← b.claim_fst, claim, e.claim_fst]
  have finished : b ∈ gather w.bus.partitions
      (pages.finished (fun d p => w.bus.offset d.group d.topic p) .complete) := by
    rw [books.gather_finished_of_done (done .complete)]
    exact announced
  obtain ⟨p, inside, finished⟩ := mem_gather.mp finished
  rw [← order]
  exact books.completed p inside b finished

end Books

namespace World

variable {w₀ w : World}

theorem IsBooked.fulfilled (booked : w.IsBooked) (done : ∀ d : Duty, d.IsDone w)
    (ordered : w₀.IsOrdered) (orders : w₀.store.Advances w.store) : w₀.Fulfilled w := by
  obtain ⟨pages, books⟩ := booked
  obtain ⟨payments, paid⟩ := books.exists_payments
  obtain ⟨builds, built⟩ := books.exists_builds
  have finished (d : Duty) := books.gather_finished_of_done (done d)
  have terms := books.payments_perm ordered orders paid
  constructor
  case assembled =>
    intro id o found status
    have settled := World.isSettled_of_paid orders found status
    obtain ⟨o', found', assembled⟩ := books.assembled_of_done done settled
    rcases orders id with same | ⟨o'', now, before, -, after⟩
    · rw [same, found] at found'
      cases found'
      rw [status] at assembled
      cases assembled
    · rw [found] at before
      cases before
      exact ⟨now, after⟩
  case others =>
    intro id unpaid
    rcases orders id with same | ⟨o, now, before, status, -⟩
    · exact same
    · exact absurd status (unpaid o before)
  case announced =>
    refine ⟨payments, builds, terms, ?_, ?_, ?_⟩
    · have claims := books.built
      rw [finished] at claims
      have owners := terms.map fun x => (x.1, x.2.1)
      simp only [Duty.topic, paid, built, List.map_map, Function.comp_def, Event.claim,
        PaymentCompleted.terms, Order.terms] at claims owners
      exact claims.trans owners
    · have decoded : (gather w.bus.partitions (pages .assembled)).map
          (fun e => BuildCompleted.decode .assembled e.record.payload) = builds.map .ok := by
        rw [built, List.map_map]
        exact List.map_congr_left fun b _ => b.decode_record
      rw [Bus.map_messages, ← decoded, gather, gather, List.map_flatMap]
      simp only [books.logs, List.map_map, Function.comp_def]
    · have told := books.told
      rw [finished, finished] at told
      simpa [Duty.topic, paid, built, Function.comp_def, Notice.text] using told
  case lag => exact fun d => (done d).lag_eq_zero
  case deadLetters =>
    intro t
    have empty (p : Nat) : w.bus.log t.deadLetters p = [] := by
      rw [books.logs, List.map_eq_nil_iff, List.eq_nil_iff_forall_not_mem]
      intro e mem
      have kind := books.kinds _ p e mem
      cases e with
      | payment q => exact Consumer.deadLetters_ne_paid t kind.symm
      | build b => exact Consumer.deadLetters_ne_assembled t kind.symm
    simp [Bus.messages, empty]

end World

/-- What a worker has dealt with it need not deal with again, unless the assembly is at work. -/
theorem Duty.IsDone.kept {d : Duty} {ds : List Duty} {w w' : World} (h : d.IsDone w)
    (kept : Crew.Kept ds w w') (other : d ∉ ds) (quiet : .build ∉ ds) : d.IsDone w' := by
  intro p inside
  rw [kept.partitions] at inside
  rw [kept.logs quiet, kept.offsets d p other]
  exact h p inside

namespace Workers

theorem booked_of_shifts {w w' : World} (shifts : Relation.ReflTransGen Shift w w')
    (booked : w.IsBooked) : w'.IsBooked ∧ w.store.Advances w'.store := by
  induction shifts with
  | refl => exact ⟨booked, .refl _⟩
  | tail _ shift ih =>
    obtain ⟨booked, orders⟩ := ih
    obtain ⟨booked', orders'⟩ := shift.booked booked
    exact ⟨booked', orders.trans orders'⟩

/-- After any order operations and any number of shifts, the assembly drains its topic, then the
order service and the notices drain theirs, and all is fulfilled. -/
theorem fulfilment_complete {y : Yard} {w : World} (orderly : y.Orderly)
    (past : ∀ t ∈ y.threads, t.isOver = true) (shifts : Relation.ReflTransGen Shift y.world w)
    (build : Assembly.Config) (config : Consumer.Config) :
    (assembly build config).Drained w fun w₁ =>
      (orderService .direct config).Drained w₁ fun w₂ =>
        (paidNotices .outbox config).Drained w₂ fun w₃ =>
          (assembledNotices .outbox config).Drained w₃ fun w₄ => y.world.Fulfilled w₄ := by
  obtain ⟨booked, orders⟩ := booked_of_shifts shifts (orderly.booked past)
  refine (Duty.drained .build build config booked).mono fun w₁ ⟨booked₁, kept₁, built₁⟩ => ?_
  refine (Duty.drained .complete build config booked₁).mono fun w₂ ⟨booked₂, kept₂, done₂⟩ => ?_
  have built₂ := built₁.kept kept₂ (by decide) (by decide)
  refine (Duty.drained .tellPaid build config booked₂).mono fun w₃ ⟨booked₃, kept₃, told₃⟩ => ?_
  have built₃ := built₂.kept kept₃ (by decide) (by decide)
  have done₃ := done₂.kept kept₃ (by decide) (by decide)
  refine (Duty.drained .tellAssembled build config booked₃).mono
    fun w₄ ⟨booked₄, kept₄, told₄⟩ => ?_
  have advanced := kept₁.orders.trans (kept₂.orders.trans (kept₃.orders.trans kept₄.orders))
  refine booked₄.fulfilled (fun d => ?_) orderly.isOrdered (orders.trans advanced)
  cases d with
  | complete => exact done₃.kept kept₄ (by decide) (by decide)
  | build => exact built₃.kept kept₄ (by decide) (by decide)
  | tellPaid => exact told₃.kept kept₄ (by decide) (by decide)
  | tellAssembled => exact told₄

/-- Two orders were made, and one of them was paid. -/
def oncePaid : Yard := (Yard.empty 1 false ⟨0, 0, 0⟩).play Yard.paidAndUnpaid

theorem oncePaid_orderly : oncePaid.Orderly := by
  refine Yard.Orderly.play (.empty 1 false ⟨0, 0, 0⟩) (fun c mem => ?_) fun f mem => ?_
  · simp only [Yard.paidAndUnpaid, Yard.takingOneOrder, List.mem_append, List.mem_cons,
      List.mem_replicate, Yard.Act.begin.injEq, reduceCtorEq, List.not_mem_nil, and_false,
      false_or, or_false] at mem
    rcases mem with (rfl | rfl) | rfl
    · exact .create _ _ _ _
    · exact .create _ _ _ _
    · exact .pay _ _ _
  · simp only [Yard.paidAndUnpaid, Yard.takingOneOrder, List.mem_append, List.mem_cons,
      List.mem_replicate, Yard.Act.flip.injEq, reduceCtorEq, List.not_mem_nil, and_false,
      or_false] at mem
    subst mem
    rfl

/-- The four workers, with builds of two seconds. -/
def slowWorkers : List Consumer :=
  all .direct ⟨.ofSeconds 1, 2, 2⟩ .outbox { Consumer.Config.usual with interval := .ofMillis 500 }

/-- The shutdown comes after a second, while the build is waiting. -/
def cutShort : Turn := run slowWorkers (.ofSeconds 1) (.start oncePaid.world)

theorem fulfilment_complete_build_cancelled :
    oncePaid.world.paidOrders.length = 1 ∧ cutShort.world.outbox.sent.length = 1 ∧
      cutShort.world.bus.lag Assembly.group .paid = 1 ∧
      (assembly .usual .usual).Drained cutShort.world fun w₁ =>
        (orderService .direct .usual).Drained w₁ fun w₂ =>
          (paidNotices .outbox .usual).Drained w₂ fun w₃ =>
            (assembledNotices .outbox .usual).Drained w₃ fun w₄ =>
              oncePaid.world.Fulfilled w₄ := by
  obtain ⟨ended, paid, sent, lag⟩ :
      (∀ x ∈ aftermath slowWorkers (.ofSeconds 1) (.start oncePaid.world), hasEnded x = true) ∧
      oncePaid.world.paidOrders.length = 1 ∧ cutShort.world.outbox.sent.length = 1 ∧
      cutShort.world.bus.lag Assembly.group .paid = 1 := by
    decide +kernel
  have past : ∀ t ∈ oncePaid.threads, t.isOver = true := by decide +kernel
  have shift : Shift oncePaid.world cutShort.world := run_shift ended
  exact ⟨paid, sent, lag, fulfilment_complete oncePaid_orderly past (.single shift) .usual .usual⟩

end Workers
end Shipyard

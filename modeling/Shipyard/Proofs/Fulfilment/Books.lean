import Mathlib.Data.List.Perm.Basic
import Shipyard.Proofs.Delivery.Duties

/-!
# What the workers have done so far

`Books` compares the world with the number of records of each partition that each worker has dealt
with: builds were announced for just the payments that the assembly has dealt with, texts were sent
for just the events that have been told about, and so on. `Books.act` says that the effect of one
more record keeps the books right, and `Books.fit` that a world with right books is one in which the
workers do not fail.
-/

namespace Shipyard

theorem Event.record_inj {e e' : Event} (kind : e.topic = e'.topic)
    (same : e.record = e'.record) : e = e' := by
  have payload : e.encode = e'.encode := by
    simp only [record, Bus.Record.mk.injEq] at same
    exact same.2
  have read : decode e.topic e.encode = .ok e := decode_encode rfl
  rw [payload, decode_encode (congrArg kindOf kind)] at read
  exact (Except.ok.inj read).symm

theorem Event.record_payload (e : Event) : e.record.payload = e.encode := by
  simp only [record]

theorem Event.record_eq {r : Bus.Record} {e : Event} (key : r.key = e.key)
    (payload : r.payload = e.encode) : r = e.record := by
  rw [record, ← key, ← payload]

theorem PaymentCompleted.decode_record (p : PaymentCompleted) :
    decode .paid (Event.payment p).record.payload = .ok p := by
  rw [Event.record_payload, p.decode_encode]

theorem BuildCompleted.decode_record (b : BuildCompleted) :
    decode .assembled (Event.build b).record.payload = .ok b := by
  rw [Event.record_payload, b.decode_encode]

/-- The order of an event, and whose it is. -/
def Event.claim : Event → OrderId × UserId
  | .payment p => (p.order, p.user)
  | .build b => (b.order, b.user)

/-- The lists of the first partitions, one after another. -/
def gather {α : Type} (n : Nat) (f : Nat → List α) : List α := (List.range n).flatMap f

section Gather

variable {α : Type} {n p : Nat} {f f' : Nat → List α} {x : α}

theorem mem_gather : x ∈ gather n f ↔ ∃ p, p < n ∧ x ∈ f p := by
  simp [gather]

theorem gather_congr (same : ∀ q, q < n → f' q = f q) : gather n f' = gather n f := by
  rw [gather, gather, List.flatMap_def, List.flatMap_def]
  have maps : (List.range n).map f' = (List.range n).map f :=
    List.map_congr_left fun q mem => same q (List.mem_range.mp mem)
  rw [maps]

/-- One list became longer. -/
theorem gather_snoc (inside : p < n) (here : f' p = f p ++ [x]) (others : ∀ q, q ≠ p → f' q = f q) :
    (gather n f').Perm (x :: gather n f) := by
  induction n with
  | zero => omega
  | succ n ih =>
    have split (g : Nat → List α) : gather (n + 1) g = gather n g ++ g n := by
      simp [gather, List.range_succ]
    rw [split, split]
    by_cases last : p = n
    · subst last
      have before : gather p f' = gather p f := gather_congr fun q less => others q (by omega)
      rw [before, here, ← List.append_assoc]
      exact List.perm_append_comm
    · rw [others n (Ne.symm last)]
      exact (ih (by omega)).append_right (f n)

end Gather

/-- What each record of a topic announces, partition by partition. -/
abbrev Pages : Type := Topic → Nat → List Event

/-- What a worker has dealt with. -/
def Pages.finished (pages : Pages) (done : Duty → Nat → Nat) (d : Duty) (p : Nat) : List Event :=
  (pages d.topic p).take (done d p)

/-- One more record. -/
def Pages.write (pages : Pages) (t : Topic) (p : Nat) (e : Event) : Pages :=
  fun t' q => if t = t' ∧ p = q then pages t' q ++ [e] else pages t' q

/-- One record more than before is dealt with, in one partition by one worker. -/
structure OneMore (done done' : Duty → Nat → Nat) (d : Duty) (p : Nat) : Prop where
  here : done' d p = done d p + 1
  others : ∀ d' q, d' ≠ d ∨ q ≠ p → done' d' q = done d' q

namespace Pages

variable {pages : Pages} {done done' : Duty → Nat → Nat} {d : Duty} {n p : Nat} {e : Event}
  {t : Topic}

theorem write_other {t' : Topic} (other : t ≠ t') : pages.write t p e t' = pages t' := by
  funext q
  simp [write, other]

theorem gather_write (inside : p < n) :
    (gather n (pages.write t p e t)).Perm (e :: gather n (pages t)) :=
  gather_snoc inside (by simp [write]) fun q other => by simp [write, Ne.symm other]

theorem mem_write {t' : Topic} {q : Nat} {x : Event} (mem : x ∈ pages.write t p e t' q) :
    x ∈ pages t' q ∨ (t = t' ∧ p = q ∧ x = e) := by
  unfold write at mem
  split at mem
  · next here => simpa [here] using mem
  · exact .inl mem

theorem length_le_write (t' : Topic) (q : Nat) :
    (pages t' q).length ≤ (pages.write t p e t' q).length := by
  unfold write
  split
  · simp
  · exact Nat.le_refl _

/-- A new record is not dealt with yet. -/
theorem finished_write {q : Nat} (bound : done d q ≤ (pages d.topic q).length) :
    (pages.write t p e).finished done d q = pages.finished done d q := by
  unfold finished write
  split
  · exact List.take_append_of_le_length bound
  · rfl

theorem gather_finished_write
    (bound : ∀ q, q < n → done d q ≤ (pages d.topic q).length) :
    gather n ((pages.write t p e).finished done d) = gather n (pages.finished done d) :=
  gather_congr fun q inside => finished_write (bound q inside)

theorem finished_snoc (more : OneMore done done' d p)
    (there : (pages d.topic p)[done d p]? = some e) :
    pages.finished done' d p = pages.finished done d p ++ [e] := by
  rw [finished, finished, more.here, List.take_add_one, there]
  rfl

theorem gather_finished_snoc (more : OneMore done done' d p)
    (there : (pages d.topic p)[done d p]? = some e) (inside : p < n) :
    (gather n (pages.finished done' d)).Perm (e :: gather n (pages.finished done d)) :=
  gather_snoc inside (finished_snoc more there) fun q other => by
    rw [finished, finished, more.others d q (.inr other)]

theorem gather_finished_other (more : OneMore done done' d p) (d' : Duty) (other : d' ≠ d) :
    gather n (pages.finished done' d') = gather n (pages.finished done d') :=
  gather_congr fun q _ => by rw [finished, finished, more.others d' q (.inl other)]

end Pages

namespace Store

/-- Nothing happened to the orders but that some paid ones were assembled. -/
def Advances (s s' : Store) : Prop :=
  ∀ id, s'.orders.find? id = s.orders.find? id ∨
    ∃ o now, s.orders.find? id = some o ∧ o.status = .paid ∧
      s'.orders.find? id = some { o with status := .assembled, updatedAt := now }

theorem Advances.refl (s : Store) : s.Advances s := fun _ => .inl rfl

theorem Advances.trans {s s' s'' : Store} (h : s.Advances s') (h' : s'.Advances s'') :
    s.Advances s'' := by
  intro id
  rcases h id with same | ⟨o, now, found, paid, assembled⟩
  · rcases h' id with same' | ⟨o, now, found, paid, assembled⟩
    · exact .inl (same'.trans same)
    · exact .inr ⟨o, now, same ▸ found, paid, assembled⟩
  · rcases h' id with same' | ⟨o', now', found', paid', -⟩
    · exact .inr ⟨o, now, found, paid, same'.trans assembled⟩
    · rw [assembled] at found'
      cases found'
      cases paid'

theorem advances_put {s : Store} {id : OrderId} {o : Order} (found : s.orders.find? id = some o)
    (paid : o.status = .paid) (now : Instant) :
    s.Advances { s with
      orders := s.orders.put id { o with status := .assembled, updatedAt := now } } := by
  intro i
  by_cases same : id = i
  · subst same
    exact .inr ⟨o, now, found, paid, by simp⟩
  · exact .inl (by simp [Table.find?_put, same])

/-- What was settled stays so, with its payment. -/
theorem Advances.settled {s s' : Store} (h : s.Advances s') {id : OrderId} {o : Order}
    (found : s.orders.find? id = some o) (settled : o.status.isSettled = true) :
    ∃ o', s'.orders.find? id = some o' ∧ o'.status.isSettled = true ∧ o'.user = o.user ∧
      o'.method = o.method ∧ o'.transaction = o.transaction := by
  rcases h id with same | ⟨o', now, found', -, assembled⟩
  · exact ⟨o, same.trans found, settled, rfl, rfl, rfl⟩
  · rw [found] at found'
    cases found'
    exact ⟨_, assembled, rfl, rfl, rfl, rfl⟩

theorem Advances.assembled {s s' : Store} (h : s.Advances s') {id : OrderId} {o : Order}
    (found : s.orders.find? id = some o) (assembled : o.status = .assembled) :
    s'.orders.find? id = some o := by
  rcases h id with same | ⟨o', now, found', paid, -⟩
  · exact same.trans found
  · rw [found] at found'
    cases found'
    rw [assembled] at paid
    cases paid

end Store

theorem World.isSettled_of_advances {w w' : World} (h : w.store.Advances w'.store) (id : OrderId) :
    w'.isSettled id = w.isSettled id := by
  rw [isSettled, isSettled]
  rcases h id with same | ⟨o, now, found, paid, assembled⟩
  · rw [same]
  · rw [assembled, found]
    simp [paid, Order.Status.isSettled]

/-- How the world stands to the numbers of records that the workers have dealt with. -/
structure Books (pages : Pages) (w : World) (done : Duty → Nat → Nat) : Prop where
  reads : w.store.readsDown = false
  writes : w.store.writesDown = false
  bus : w.bus.down = false
  channel : w.outbox.down = false
  logs : ∀ t p, w.bus.log t p = (pages t p).map Event.record
  kinds : ∀ t p, ∀ e ∈ pages t p, e.topic = t
  bound : ∀ d p, p < w.bus.partitions → done d p ≤ (pages d.topic p).length
  /-- Each order that was paid has one payment. -/
  counted : ∀ id, ((gather w.bus.partitions (pages .paid)).map Event.order).count id =
    (w.isSettled id).toNat
  /-- Payments say what the orders say. -/
  agreed : ∀ p q, p < w.bus.partitions → .payment q ∈ pages .paid p →
    ∃ o, w.store.orders.find? q.order = some o ∧ o.status.isSettled = true ∧ o.user = q.user ∧
      o.method = some q.method ∧ o.transaction = some q.transaction
  built : ((gather w.bus.partitions (pages .assembled)).map Event.claim).Perm
    ((gather w.bus.partitions (pages.finished done .build)).map Event.claim)
  told : w.outbox.sent.Perm
    ((gather w.bus.partitions (pages.finished done .tellPaid)).map Notice.text ++
      (gather w.bus.partitions (pages.finished done .tellAssembled)).map Notice.text)
  completed : ∀ p, p < w.bus.partitions → ∀ e ∈ pages.finished done .complete p,
    ∃ o, w.store.orders.find? e.order = some o ∧ o.status = .assembled

namespace Books

variable {pages : Pages} {w w' : World} {done done' : Duty → Nat → Nat}

/-- A build was announced for an order that was paid. -/
theorem builds_settled (books : Books pages w done) {p : Nat} (inside : p < w.bus.partitions)
    {b : BuildCompleted} (mem : .build b ∈ pages .assembled p) :
    w.isSettled b.order = true := by
  have announced : (b.order, b.user) ∈
      (gather w.bus.partitions (pages .assembled)).map Event.claim :=
    List.mem_map.mpr ⟨.build b, mem_gather.mpr ⟨p, inside, mem⟩, rfl⟩
  obtain ⟨e, finished, claim⟩ := List.mem_map.mp (books.built.mem_iff.mp announced)
  obtain ⟨q, inside', taken⟩ := mem_gather.mp finished
  have paid : e ∈ pages .paid q := List.mem_of_mem_take taken
  obtain ⟨x, rfl⟩ := Event.eq_payment (books.kinds .paid q e paid)
  obtain ⟨o, found, settled, -⟩ := books.agreed q x inside' paid
  obtain ⟨order, -⟩ := Prod.mk.inj claim
  rw [World.isSettled, ← order, found]
  exact settled

theorem fit (books : Books pages w done) : w.Fit where
  reads := books.reads
  writes := books.writes
  bus := books.bus
  channel := books.channel
  events d p i r there := by
    rw [books.logs, List.getElem?_map, Option.map_eq_some_iff] at there
    obtain ⟨e, there, rfl⟩ := there
    exact ⟨e, books.kinds _ p e (List.mem_of_getElem? there), rfl⟩
  builds p i b inside there := by
    rw [books.logs, List.getElem?_map, Option.map_eq_some_iff] at there
    obtain ⟨e, there, same⟩ := there
    have mem : e ∈ pages .assembled p := List.mem_of_getElem? there
    obtain rfl : e = .build b := Event.record_inj (books.kinds .assembled p e mem) same
    exact books.builds_settled inside mem

/-- Books speak of the partitions, and not of the offsets of a bus. -/
theorem of_eq (books : Books pages w done) (store : w'.store = w.store)
    (logs : w'.bus.logs = w.bus.logs) (partitions : w'.bus.partitions = w.bus.partitions)
    (down : w'.bus.down = w.bus.down) (outbox : w'.outbox = w.outbox) : Books pages w' done where
  reads := by rw [store]; exact books.reads
  writes := by rw [store]; exact books.writes
  bus := by rw [down]; exact books.bus
  channel := by rw [outbox]; exact books.channel
  logs t p := by
    have same : w'.bus.log t p = w.bus.log t p := by rw [Bus.log, Bus.log, logs]
    rw [same]
    exact books.logs t p
  kinds := books.kinds
  bound := by rw [partitions]; exact books.bound
  counted id := by
    rw [partitions, World.isSettled, store]
    exact books.counted id
  agreed := by rw [partitions, store]; exact books.agreed
  built := by rw [partitions]; exact books.built
  told := by rw [partitions, outbox]; exact books.told
  completed := by rw [partitions, store]; exact books.completed

theorem of_alike (books : Books pages w done) (same : w.Alike w') : Books pages w' done :=
  books.of_eq same.store (by rw [same.bus]) (by rw [same.bus]) (by rw [same.bus]) same.outbox

section Effects

variable {d : Duty} {p : Nat} {e : Event}

theorem bound_more (books : Books pages w done) (more : OneMore done done' d p)
    (there : (pages d.topic p)[done d p]? = some e) (d' : Duty) (q : Nat)
    (inside : q < w.bus.partitions) : done' d' q ≤ (pages d'.topic q).length := by
  by_cases here : d' = d ∧ q = p
  · obtain ⟨rfl, rfl⟩ := here
    have less := (List.getElem?_eq_some_iff.mp there).1
    rw [more.here]
    exact less
  · rw [more.others d' q (by tauto)]
    exact books.bound d' q inside

/-- Books after the order of a build was found or made assembled. -/
theorem complete_more (books : Books pages w done) (more : OneMore done done' .complete p)
    (there : (pages .assembled p)[done .complete p]? = some e) (inside : p < w.bus.partitions)
    (store : w.store.Advances w'.store) (reads : w'.store.readsDown = w.store.readsDown)
    (writes : w'.store.writesDown = w.store.writesDown)
    (assembled : ∃ o, w'.store.orders.find? e.order = some o ∧ o.status = .assembled)
    (bus : w'.bus = w.bus) (outbox : w'.outbox = w.outbox) : Books pages w' done' where
  reads := reads.trans books.reads
  writes := writes.trans books.writes
  bus := by rw [bus]; exact books.bus
  channel := by rw [outbox]; exact books.channel
  logs := by rw [bus]; exact books.logs
  kinds := books.kinds
  bound := by rw [bus]; exact books.bound_more more there
  counted id := by
    rw [bus, World.isSettled_of_advances store]
    exact books.counted id
  agreed := by
    rw [bus]
    intro q x inside' mem
    obtain ⟨o, found, settled, user, method, transaction⟩ := books.agreed q x inside' mem
    obtain ⟨o', found', settled', user', method', transaction'⟩ := store.settled found settled
    exact ⟨o', found', settled', user'.trans user, method'.trans method,
      transaction'.trans transaction⟩
  built := by
    rw [bus, Pages.gather_finished_other more .build (by decide)]
    exact books.built
  told := by
    rw [bus, outbox, Pages.gather_finished_other more .tellPaid (by decide),
      Pages.gather_finished_other more .tellAssembled (by decide)]
    exact books.told
  completed := by
    rw [bus]
    intro q inside' x mem
    have old (mem : x ∈ pages.finished done .complete q) :
        ∃ o, w'.store.orders.find? x.order = some o ∧ o.status = .assembled := by
      obtain ⟨o, found, assembled⟩ := books.completed q inside' x mem
      exact ⟨o, store.assembled found assembled, assembled⟩
    by_cases here : q = p
    · subst here
      rw [Pages.finished_snoc more there] at mem
      rcases List.mem_append.mp mem with mem | mem
      · exact old mem
      · obtain rfl := List.mem_singleton.mp mem
        exact assembled
    · rw [Pages.finished, more.others _ q (.inr here)] at mem
      exact old mem

theorem sent_more {told : List String} {outbox : Outbox} {text : String}
    (h : outbox.sent.Perm told) : (outbox.sent ++ [text]).Perm (text :: told) :=
  (List.perm_append_singleton text outbox.sent).trans (h.cons text)

/-- Books after an event was told about. -/
theorem tell_more (books : Books pages w done) (teller : d = .tellPaid ∨ d = .tellAssembled)
    (more : OneMore done done' d p) (there : (pages d.topic p)[done d p]? = some e)
    (inside : p < w.bus.partitions)
    (outbox : w'.outbox = { w.outbox with sent := w.outbox.sent ++ [Notice.text e] })
    (store : w'.store = w.store) (bus : w'.bus = w.bus) : Books pages w' done' where
  reads := by rw [store]; exact books.reads
  writes := by rw [store]; exact books.writes
  bus := by rw [bus]; exact books.bus
  channel := by rw [outbox]; exact books.channel
  logs := by rw [bus]; exact books.logs
  kinds := books.kinds
  bound := by rw [bus]; exact books.bound_more more there
  counted id := by
    rw [bus, World.isSettled, store]
    exact books.counted id
  agreed := by rw [bus, store]; exact books.agreed
  built := by
    have other : Duty.build ≠ d := by rcases teller with rfl | rfl <;> decide
    rw [bus, Pages.gather_finished_other more .build other]
    exact books.built
  told := by
    rw [bus, outbox]
    refine (sent_more books.told).trans ?_
    have grown := (Pages.gather_finished_snoc more there inside).map Notice.text
    rcases teller with rfl | rfl
    · rw [Pages.gather_finished_other more .tellAssembled (by decide)]
      exact (grown.append_right _).symm
    · rw [Pages.gather_finished_other more .tellPaid (by decide)]
      exact ((grown.append_left _).trans List.perm_middle).symm
  completed := by
    rw [bus, store]
    have other : Duty.complete ≠ d := by rcases teller with rfl | rfl <;> decide
    intro q inside' x mem
    rw [Pages.finished, more.others _ q (.inl other)] at mem
    exact books.completed q inside' x mem

theorem logs_write (books : Books pages w done) (t t' : Topic) (q r : Nat) :
    (w.bus.append t q e.record).log t' r = (pages.write t q e t' r).map Event.record := by
  rw [Bus.log_append, books.logs, Pages.write]
  split
  · simp
  · rfl

theorem kinds_write (books : Books pages w done) {t t' : Topic} (kind : e.topic = t)
    (q r : Nat) :
    ∀ x ∈ pages.write t q e t' r, x.topic = t' := by
  intro x mem
  rcases Pages.mem_write mem with mem | ⟨rfl, -, rfl⟩
  · exact books.kinds t' r x mem
  · exact kind

/-- Books after the build of a payment was announced. -/
theorem build_more (books : Books pages w done) {x : PaymentCompleted} {b : BuildCompleted}
    {q : Nat} (more : OneMore done done' .build p)
    (there : (pages .paid p)[done .build p]? = some (.payment x)) (inside : p < w.bus.partitions)
    (inside' : q < w.bus.partitions) (order : b.order = x.order) (user : b.user = x.user)
    (bus : w'.bus = w.bus.append .assembled q (Event.build b).record) (store : w'.store = w.store)
    (outbox : w'.outbox = w.outbox) : Books (pages.write .assembled q (.build b)) w' done' := by
  have partitions : w'.bus.partitions = w.bus.partitions := by
    rw [bus]
    rfl
  have bound := books.bound_more more there
  have same : Event.claim (.build b) = Event.claim (.payment x) := by
    simp [Event.claim, order, user]
  constructor
  case reads => exact store ▸ books.reads
  case writes => exact store ▸ books.writes
  case bus =>
    rw [bus]
    exact books.bus
  case channel => exact outbox ▸ books.channel
  case logs =>
    intro t r
    rw [bus]
    exact books.logs_write .assembled t q r
  case kinds =>
    intro t r
    have kind : (Event.build b).topic = .assembled := rfl
    exact books.kinds_write kind q r
  case bound =>
    intro d r inside
    rw [partitions] at inside
    exact (bound d r inside).trans (Pages.length_le_write _ _)
  case counted =>
    intro id
    rw [partitions, World.isSettled, store, Pages.write_other (by decide)]
    exact books.counted id
  case agreed =>
    rw [partitions, store, Pages.write_other (by decide)]
    exact books.agreed
  case built =>
    have dealt := Pages.gather_finished_snoc more there inside
    rw [partitions, Pages.gather_finished_write fun r less => bound .build r less]
    refine ((Pages.gather_write inside').map Event.claim).trans
      (.trans ?_ (dealt.map Event.claim).symm)
    rw [List.map_cons, List.map_cons, same]
    exact books.built.cons _
  case told =>
    rw [partitions, outbox, Pages.gather_finished_write fun r less => bound .tellPaid r less,
      Pages.gather_finished_write fun r less => bound .tellAssembled r less,
      Pages.gather_finished_other more .tellPaid (by decide),
      Pages.gather_finished_other more .tellAssembled (by decide)]
    exact books.told
  case completed =>
    intro r inside y mem
    rw [partitions] at inside
    rw [Pages.finished_write (bound .complete r inside), Pages.finished,
      more.others .complete r (.inl (by decide))] at mem
    rw [store]
    exact books.completed r inside y mem

/-- The effect of one more record keeps the books right. -/
theorem act (books : Books pages w done) (does : d.Does e w w')
    (more : OneMore done done' d p) (there : (pages d.topic p)[done d p]? = some e)
    (inside : p < w.bus.partitions) : ∃ pages', Books pages' w' done' := by
  cases does with
  | complete found paid store bus outbox =>
    refine ⟨pages, books.complete_more more there inside ?_ ?_ ?_ ?_ bus outbox⟩
    · rw [store]
      exact Store.advances_put found paid _
    · rw [store]
    · rw [store]
    · rw [store]
      exact ⟨_, Table.find?_put_self _ _ _, rfl⟩
  | @again b o _ _ found assembled same =>
    refine ⟨pages, books.complete_more more there inside ?_ ?_ ?_ ?_ same.bus same.outbox⟩
    · rw [same.store]
      exact .refl _
    · rw [same.store]
    · rw [same.store]
    · rw [same.store]
      exact ⟨o, found, assembled⟩
  | build order user bus store outbox =>
    exact ⟨_, books.build_more more there inside (Bus.partitionOf_lt _ _ w.bus.positive) order user
      bus store outbox⟩
  | tell teller outbox store bus =>
    exact ⟨pages, books.tell_more teller more there inside outbox store bus⟩

end Effects

end Books

end Shipyard

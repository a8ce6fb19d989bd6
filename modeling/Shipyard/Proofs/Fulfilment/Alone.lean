import Shipyard.Proofs.Fulfilment.Course
import Shipyard.Proofs.Service

/-!
# Order operations by themselves

What an order operation makes of the world if nothing else happens while it runs. One that fails
leaves everything as it was but the clock and the identifiers that are left to give out, and one
that succeeds has done one thing to one order. Two steps cannot be taken back: a charge whose order
could then not be marked, and what was stored or charged before an amount without a text was put
into words.
-/

namespace Shipyard

/-- The store with an order under an identifier. -/
def Store.having (s : Store) (id : OrderId) (o : Order) : Store :=
  { s with orders := s.orders.put id o }

def Ledger.having (l : Ledger) (c : Charge) : Ledger := { l with charges := l.charges ++ [c] }

namespace Stock

/-- Whether answers come after the deadline. Neither is waited for longer than any wait lasts. -/
def isLate (s : Stock) (deadline : Span) : Bool :=
  match s.latency with
  | none => false
  | some latency =>
    (deadline.shorter Job.longestWait).nanos < (latency.shorter Job.longestWait).nanos

/-- What a caller with a deadline is told about a part. -/
def told (s : Stock) (deadline : Span) (id : PartId) : Except ServiceError Part :=
  if s.isLate deadline then .error (.timeout deadline) else s.answer id

end Stock

/-- An order after a change that its status allows. -/
def Order.marked (o : Order) (c : Change) (now : Instant) : Order :=
  { o.settle c with status := c.target, updatedAt := now }

namespace World

variable {α β : Type} {w v u : World}

/-- A sequence of jobs runs its first part to the end, and then what follows from it. -/
theorem finish_bind (w : World) (j : Job α) (f : α → Job β) :
    w.finish (j.bind f) =
      match w.finish j with
      | (v, .ok x) => v.finish (f x)
      | (v, .error e) => (v, .error e) := by
  induction j generalizing w with
  | done x => rfl
  | fault e => rfl
  | ask r k ih => exact ih _ _
  | wait wake signal k ih =>
    simp only [Job.bind, finish]
    cases w.wakeup? wake signal with
    | some x => exact ih x w
    | none => exact ih .elapsed _

/-- Nothing has happened but that time went by and identifiers were given out. -/
def Rests (w v : World) : Prop := ∃ clock minted, v = { w with clock, minted }

theorem Rests.refl (w : World) : w.Rests w := ⟨w.clock, w.minted, rfl⟩

theorem Rests.trans (h : w.Rests v) (h' : v.Rests u) : w.Rests u := by
  obtain ⟨clock, minted, rfl⟩ := h
  obtain ⟨clock', minted', rfl⟩ := h'
  exact ⟨clock', minted', rfl⟩

/-- An order was stored under an identifier that was free, and counted. -/
def Takes (w : World) (o : Order) (v : World) : Prop :=
  w.store.orders.find? o.id = none ∧ ∃ clock minted, v = { w with
    clock
    minted
    store := w.store.having o.id o
    meter := w.meter.add (.orders .created) 1 }

/-- A charge was recorded. -/
def Charges (w : World) (c : Charge) (v : World) : Prop :=
  ∃ clock minted, v = { w with clock, minted, ledger := w.ledger.having c }

/-- A pending order was charged, marked as paid and counted. Its payment was announced, or it was
counted that it could not be. -/
def Pays (w : World) (id : OrderId) (t : TransactionId) (m : PaymentMethod) (v : World) : Prop :=
  ∃ o clock minted bus meter, w.store.orders.find? id = some o ∧ o.status = .pendingPayment ∧
    v = { w with
      clock
      minted
      store := w.store.having id (o.marked (.paid t m) w.today)
      ledger := w.ledger.having ⟨t, o.id, o.user, m, o.total⟩
      bus
      meter } ∧
    let counted :=
      (w.meter.add (.orders .paid) 1).add (.revenue m) (Fulfilment.revenue o.total)
    (meter = counted ∧ ∃ p r, bus = w.bus.append .paid p r) ∨
      (meter = counted.add (.publishFailures .paid) 1 ∧ bus = w.bus)

/-- A pending order was marked as cancelled and counted. -/
def Cancels (w : World) (id : OrderId) (v : World) : Prop :=
  ∃ o, w.store.orders.find? id = some o ∧ o.status = .pendingPayment ∧ v = { w with
    store := w.store.having id (o.marked .cancelled w.today)
    meter := w.meter.add (.orders .cancelled) 1 }

theorem Rests.takes {o : Order} (h : w.Rests v) (h' : v.Takes o u) : w.Takes o u := by
  obtain ⟨clock, minted, rfl⟩ := h
  obtain ⟨fresh, clock', minted', rfl⟩ := h'
  exact ⟨fresh, clock', minted', rfl⟩

theorem Takes.unique {o o' : Order} (h : w.Takes o v) (h' : w.Takes o' v) :
    o = o' := by
  obtain ⟨fresh, clock, minted, rfl⟩ := h
  obtain ⟨-, clock', minted', same⟩ := h'
  have orders : w.store.orders.put o.id o = w.store.orders.put o'.id o' :=
    congrArg (fun w => w.store.orders) same
  -- What is there under the new identifier tells which order was stored.
  have found : (w.store.orders.put o'.id o').find? o.id = some o := by
    rw [← orders]
    exact Table.find?_put_self _ _ _
  rw [Table.find?_put] at found
  split at found
  · exact (Option.some.inj found).symm
  · rw [fresh] at found
    cases found

end World

namespace Money

theorem add_error {a b : Money} {f : Fault} (h : a.add b = .error f) : f = .addition := by
  unfold add at h
  split at h
  · cases h
  · exact (Except.error.inj h).symm

/-- Only the least amount has no text. -/
theorem text_error {m : Money} {f : Fault} (h : m.text = .error f) :
    f = .negation ∧ m.cents = -0x8000000000000000 := by
  rw [text, remainder] at h
  split at h
  · next least => exact ⟨(Except.error.inj h).symm, least⟩
  · cases h

end Money

namespace Fulfilment

open World

variable {w v : World} {deadline : Span} {id : OrderId} {method : PaymentMethod}

/-! ## Taking an order -/

/-- A part that can be ordered, or why it cannot. -/
def offer (s : Stock) (deadline : Span) (id : PartId) : Except Error Part :=
  match s.told deadline id with
  | .error e => .error (.partNotFound id e.message)
  | .ok part => if part.inStock then .ok part else .error (.outOfStock id)

/-- The prices of parts added to a total, or why they are not. -/
def judge (s : Stock) (deadline : Span) : Money → List PartId → Except Fault (Except Error Money)
  | total, [] => .ok (.ok total)
  | total, id :: rest =>
    match offer s deadline id with
    | .error e => .ok (.error e)
    | .ok part =>
      match total.add part.price with
      | .error f => .error f
      | .ok total => judge s deadline total rest

/-- A part is looked up, or not in time. -/
theorem finish_lookUp (w : World) (deadline : Span) (id : PartId) :
    ∃ clock, w.finish ((ServiceCalls.direct.lookUp id).within deadline
      (.error (.timeout deadline))) = ({ w with clock }, .ok (w.stock.told deadline id)) := by
  simp only [Job.within, ServiceCalls.direct, ServiceCalls.Direct.lookUp, Job.upTo, finish,
    World.answer, Stock.told, Stock.isLate]
  rcases Option.eq_none_or_eq_some w.stock.latency with none | ⟨latency, found⟩
  · simp only [none]
    exact ⟨w.clock, rfl⟩
  · simp only [found, ServiceCalls.late, Job.sleep, Job.bind, Job.upTo, finish, World.answer]
    have order : Job.wakeAfter w.clock latency ≤ Job.wakeAfter w.clock deadline ↔
        ¬ (deadline.shorter Job.longestWait).nanos < (latency.shorter Job.longestWait).nanos := by
      unfold Job.wakeAfter
      omega
    -- A late answer and the deadline are waited for at once, and the first of them counts.
    by_cases inTime : Job.wakeAfter w.clock latency ≤ Job.wakeAfter w.clock deadline
    · have early := order.mp inTime
      simp only [inTime, early, if_true, if_false, finish, wakeup?, decide_false,
        Bool.false_eq_true]
      split <;> exact ⟨_, rfl⟩
    · have late := not_not.mp (mt order.mpr inTime)
      simp only [inTime, late, if_false, finish, wakeup?, decide_true, if_true]
      split
      · next x found =>
        split at found
        · cases found
          exact ⟨_, rfl⟩
        · cases found
      · exact ⟨_, rfl⟩

/-- The parts are priced without regard to what is done with the total. -/
theorem finish_price (w : World) (deadline : Span) (total : Money) (parts : List PartId) :
    ∃ clock, ∀ next, w.finish (price .direct deadline next total parts) =
      match judge w.stock deadline total parts with
      | .error f => ({ w with clock }, .error f)
      | .ok (.error e) => ({ w with clock }, .ok (.error e))
      | .ok (.ok sum) => { w with clock }.finish (next sum) := by
  induction parts generalizing w total with
  | nil => exact ⟨w.clock, fun next => rfl⟩
  | cons id parts ih =>
    obtain ⟨clock, looked⟩ := finish_lookUp w deadline id
    simp only [price, finish_bind, looked, judge, offer]
    cases w.stock.told deadline id with
    | error e => exact ⟨clock, fun next => rfl⟩
    | ok part =>
      by_cases stocked : part.inStock = true
      · simp only [stocked, if_true]
        cases added : total.add part.price with
        | error f => exact ⟨clock, fun next => rfl⟩
        | ok sum =>
          obtain ⟨later, outcome⟩ := ih { w with clock } sum
          exact ⟨later, outcome⟩
      · simp only [stocked]
        exact ⟨clock, fun next => rfl⟩

/-- What is done with an order depends on how its parts are judged, whoever orders them. -/
theorem finish_create_judged (w : World) (deadline : Span) {parts : List PartId}
    (method : Option PaymentMethod) (some : parts ≠ []) :
    ∃ clock, ∀ user, w.finish (create .direct deadline user parts method) =
      match judge w.stock deadline .zero parts with
      | .error f => ({ w with clock }, .error f)
      | .ok (.error e) => ({ w with clock }, .ok (.error e))
      | .ok (.ok sum) => { w with clock }.finish (place user parts method sum) := by
  obtain ⟨clock, priced⟩ := finish_price w deadline .zero parts
  refine ⟨clock, fun user => ?_⟩
  rw [create, if_neg (by simpa using some)]
  exact priced _

theorem judge_error {s : Stock} {total : Money} {parts : List PartId} {f : Fault}
    (h : judge s deadline total parts = .error f) : f = .addition := by
  induction parts generalizing total with
  | nil => cases h
  | cons id parts ih =>
    rw [judge] at h
    cases offered : offer s deadline id with
    | error e =>
      rw [offered] at h
      cases h
    | ok part =>
      rw [offered] at h
      cases added : total.add part.price with
      | error g =>
        simp only [added] at h
        cases h
        exact Money.add_error added
      | ok sum =>
        simp only [added] at h
        exact ih h

/-- What taking an order by itself makes of a world, with its result. -/
inductive CreatesAlone (w : World) (user : UserId) (v : World) :
    Except Fault (Except Error Order) → Prop
  | refused (e : Error) (rests : w.Rests v) : CreatesAlone w user v (.ok (.error e))
  /-- The prices have no sum. -/
  | overflowed (rests : w.Rests v) : CreatesAlone w user v (.error .addition)
  | taken (o : Order) (own : o.user = user) (takes : w.Takes o v) :
      CreatesAlone w user v (.ok (.ok o))
  /-- The total has no text. -/
  | unsaid (o : Order) (takes : w.Takes o v) (least : o.total.cents = -0x8000000000000000) :
      CreatesAlone w user v (.error .negation)

theorem CreatesAlone.of_rests {user : UserId} {u : World} {x : Except Fault (Except Error Order)}
    (rests : w.Rests v) (h : CreatesAlone v user u x) : CreatesAlone w user u x := by
  cases h with
  | refused e later => exact .refused e (rests.trans later)
  | overflowed later => exact .overflowed (rests.trans later)
  | taken o own takes => exact .taken o own (rests.takes takes)
  | unsaid o takes least => exact .unsaid o (rests.takes takes) least

theorem finish_place (w : World) (user : UserId) (parts : List PartId)
    (method : Option PaymentMethod) (total : Money) :
    CreatesAlone w user (w.finish (place user parts method total)).1
      (w.finish (place user parts method total)).2 := by
  simp only [place, finish, World.answer, tried_map]
  cases inserted : w.store.insert
      (.fresh ⟨mintedUuid (w.minted + 1)⟩ user parts total method w.today) with
  | error e => exact .refused (.store e) ⟨w.clock, w.minted + 1, rfl⟩
  | ok s =>
    obtain ⟨fresh, rfl⟩ := Store.insert_ok inserted
    have takes : w.Takes (.fresh ⟨mintedUuid (w.minted + 1)⟩ user parts total method w.today) _ :=
      ⟨fresh, w.clock, w.minted + 1, rfl⟩
    cases text : total.text with
    | error f =>
      obtain ⟨rfl, least⟩ := Money.text_error text
      exact .unsaid _ takes least
    | ok said => exact .taken _ rfl takes

theorem finish_create (w : World) (deadline : Span) (user : UserId) (parts : List PartId)
    (method : Option PaymentMethod) :
    CreatesAlone w user (w.finish (create .direct deadline user parts method)).1
      (w.finish (create .direct deadline user parts method)).2 := by
  by_cases none : parts = []
  · subst none
    exact .refused .noParts (.refl w)
  · obtain ⟨clock, created⟩ := finish_create_judged w deadline method none
    have rests : w.Rests { w with clock } := ⟨clock, w.minted, rfl⟩
    rw [created]
    cases judged : judge w.stock deadline .zero parts with
    | error f =>
      obtain rfl := judge_error judged
      exact .overflowed rests
    | ok x =>
      cases x with
      | error e => exact .refused e rests
      | ok sum => exact (finish_place { w with clock } user parts method sum).of_rests rests

/-- Whether an order can be stored depends on its identifier alone. -/
theorem insert_any_user {s s' : Store} {o : Order} (h : s.insert o = .ok s') (o' : Order)
    (same : o.id = o'.id) : s.insert o' = .ok (s.having o'.id o') := by
  unfold Store.insert at h ⊢
  rw [← same]
  split at h
  · cases h
  · next up =>
    split at h
    · cases h
    · next free =>
      rw [if_neg up, if_neg free]
      rfl

/-- An order that is taken for one user would have been taken for any other one. -/
theorem place_any_user {w : World} {user : UserId} {parts : List PartId}
    {method : Option PaymentMethod} {total : Money} {o : Order}
    (h : (w.finish (place user parts method total)).2 = .ok (.ok o)) (user' : UserId) :
    (w.finish (place user' parts method total)).2 = .ok (.ok { o with user := user' }) := by
  simp only [place, finish, World.answer, tried_map] at h ⊢
  cases inserted : w.store.insert
      (.fresh ⟨mintedUuid (w.minted + 1)⟩ user parts total method w.today) with
  | error e =>
    rw [inserted] at h
    cases h
  | ok s =>
    rw [inserted] at h
    have other := insert_any_user inserted
      (.fresh ⟨mintedUuid (w.minted + 1)⟩ user' parts total method w.today) rfl
    rw [other]
    cases text : total.text with
    | error f =>
      rw [text] at h
      cases h
    | ok said =>
      rw [text] at h
      cases h
      rfl

theorem create_any_user {w : World} {deadline : Span} {user : UserId} {parts : List PartId}
    {method : Option PaymentMethod} {o : Order}
    (h : (w.finish (create .direct deadline user parts method)).2 = .ok (.ok o))
    (user' : UserId) :
    (w.finish (create .direct deadline user' parts method)).2 =
      .ok (.ok { o with user := user' }) := by
  by_cases none : parts = []
  · subst none
    cases h
  · obtain ⟨clock, created⟩ := finish_create_judged w deadline method none
    rw [created] at h ⊢
    cases judged : judge w.stock deadline .zero parts with
    | error f =>
      rw [judged] at h
      cases h
    | ok x =>
      rw [judged] at h
      cases x with
      | error e => cases h
      | ok sum => exact place_any_user h user'

/-! ## Changing an order -/

/-- A change comes to its end with what the store says. -/
theorem finish_change (w : World) (id : OrderId) (expected : Order.Status) (c : Order.Change) :
    w.finish (ServiceCalls.direct.change id expected c) =
      match w.store.transition id expected c w.today with
      | .error e => (w, .ok (.error e))
      | .ok (o, store) => ({ w with store }, .ok (.ok o)) := by
  simp only [ServiceCalls.direct, ServiceCalls.Direct.change, finish, World.answer, tried_map]
  cases w.store.transition id expected c w.today <;> rfl

/-- What cancelling an order by itself makes of a world, with its result. -/
inductive CancelsAlone (w : World) (id : OrderId) (v : World) :
    Except Fault (Except Error Unit) → Prop
  | refused (e : Error) (same : v = w) : CancelsAlone w id v (.ok (.error e))
  | cancelled (cancels : w.Cancels id v) : CancelsAlone w id v (.ok (.ok ()))

theorem finish_cancel (w : World) (id : OrderId) :
    CancelsAlone w id (w.finish (cancel .direct id)).1 (w.finish (cancel .direct id)).2 := by
  rw [cancel, finish_bind, finish_change]
  cases changed : w.store.transition id .pendingPayment .cancelled w.today with
  | error e => exact .refused _ rfl
  | ok x =>
    obtain ⟨o', s⟩ := x
    obtain ⟨o, found, pending, applied, rfl⟩ := Store.transition_ok changed
    obtain ⟨-, rfl⟩ := Order.apply_ok applied
    exact .cancelled ⟨o, found, pending, rfl⟩

/-! ## Paying an order -/

/-- A charge is decided on at once. -/
theorem finish_charge (w : World) (deadline : Span) (o : Order) (method : PaymentMethod) :
    w.finish ((ServiceCalls.direct.charge o.id o.user method o.total).within deadline
        (.error (.timeout deadline))) =
      match w.ledger.charge (chargeOf o (mintedUuid (w.minted + 1)) method) with
      | .error e => ({ w with minted := w.minted + 1 }, .ok (.error e))
      | .ok ledger => ({ w with minted := w.minted + 1, ledger },
          o.total.text.map fun _ => .ok ⟨mintedUuid (w.minted + 1)⟩) := by
  simp only [Job.within, ServiceCalls.direct, ServiceCalls.Direct.charge, Job.upTo, finish,
    World.answer, tried_map, chargeOf]
  cases w.ledger.charge ⟨⟨mintedUuid (w.minted + 1)⟩, o.id, o.user, method, o.total⟩ with
  | error e => rfl
  | ok ledger => cases o.total.text <;> rfl

/-- An order that a change is due to is changed, unless nothing can be written. -/
theorem transition_due {s : Store} {o : Order} {expected : Order.Status} {c : Order.Change}
    (found : s.orders.find? id = some o) (due : o.status = expected)
    (allowed : expected.canBecome c.target = true) (now : Instant) :
    s.transition id expected c now =
      if s.writesDown then .error (.unavailable "write refused")
      else .ok (o.marked c now, s.having id (o.marked c now)) := by
  have applied : o.apply c now = .ok (o.marked c now) := by
    rw [Order.apply, due, if_pos allowed]
    rfl
  rw [Store.transition, if_neg (by simp [allowed]), found]
  split
  · rfl
  · simp only [due, ne_eq, not_true_eq_false, if_false, applied, Store.having]

/-- What paying an order by itself makes of a world, with its result. -/
inductive PaysAlone (w : World) (id : OrderId) (method : PaymentMethod) (v : World) :
    Except Fault (Except Error TransactionId) → Prop
  | refused (e : Error) (rests : w.Rests v) : PaysAlone w id method v (.ok (.error e))
  /-- The order was charged, and could then not be marked. -/
  | unmarked (o : Order) (t : TransactionId) (found : w.store.orders.find? id = some o)
      (down : w.store.writesDown = true)
      (charges : w.Charges ⟨t, o.id, o.user, method, o.total⟩ v) :
      PaysAlone w id method v (.ok (.error (.store (.unavailable "write refused"))))
  /-- The amount of the charge has no text. -/
  | unsaid (o : Order) (t : TransactionId) (found : w.store.orders.find? id = some o)
      (charges : w.Charges ⟨t, o.id, o.user, method, o.total⟩ v)
      (least : o.total.cents = -0x8000000000000000) :
      PaysAlone w id method v (.error .negation)
  | paid (t : TransactionId) (pays : w.Pays id t method v) : PaysAlone w id method v (.ok (.ok t))

/-- An order that was marked as paid is counted and announced. -/
theorem finish_paid (w : World) (method : PaymentMethod) (t : TransactionId) (o : Order) :
    ∃ bus meter, w.finish (paid method t o) =
        ({ w with minted := w.minted + 1, bus, meter }, .ok (.ok t)) ∧
      let counted := (w.meter.add (.orders .paid) 1).add (.revenue method) (revenue o.total)
      (meter = counted ∧ ∃ p r, bus = w.bus.append .paid p r) ∨
        (meter = counted.add (.publishFailures .paid) 1 ∧ bus = w.bus) := by
  have topic : (Event.payment ⟨⟨mintedUuid (w.minted + 1)⟩, o.id, o.user, method, t⟩).topic =
      .paid := rfl
  simp only [paid, announce, Job.bind, finish, World.answer, tried_map, topic]
  cases published : w.bus.publish .paid
      (Event.payment ⟨⟨mintedUuid (w.minted + 1)⟩, o.id, o.user, method, t⟩).key
      (Event.payment ⟨⟨mintedUuid (w.minted + 1)⟩, o.id, o.user, method, t⟩).encode with
  | error e => exact ⟨_, _, rfl, .inr ⟨rfl, rfl⟩⟩
  | ok x =>
    obtain ⟨position, bus⟩ := x
    obtain ⟨-, rfl⟩ := Bus.publish_ok published
    exact ⟨_, _, rfl, .inl ⟨rfl, _, _, rfl⟩⟩

theorem finish_payable (w : World) (deadline : Span) (id : OrderId) (method : PaymentMethod)
    {o : Order} (found : w.store.orders.find? id = some o) :
    PaysAlone w id method (w.finish (payable .direct deadline id method o)).1
      (w.finish (payable .direct deadline id method o)).2 := by
  rw [payable]
  split
  · next due =>
    have pending : o.status = .pendingPayment := by simpa [Order.Status.canPay] using due
    rw [finish_bind, finish_charge]
    cases charged : w.ledger.charge (chargeOf o (mintedUuid (w.minted + 1)) method) with
    | error e => exact .refused _ ⟨w.clock, w.minted + 1, rfl⟩
    | ok ledger =>
      obtain rfl : ledger = w.ledger.having _ := Ledger.charge_ok charged
      cases text : o.total.text with
      | error f =>
        obtain ⟨rfl, least⟩ := Money.text_error text
        exact .unsaid o _ found ⟨w.clock, w.minted + 1, rfl⟩ least
      | ok said =>
        have allowed : Order.Status.pendingPayment.canBecome .paid = true := by decide
        simp only [Except.map, Fulfilment.charged, finish_bind, finish_change]
        rw [transition_due found pending (by exact allowed)]
        cases down : w.store.writesDown with
        | true => exact .unmarked o _ found down ⟨w.clock, w.minted + 1, rfl⟩
        | false =>
          obtain ⟨bus, meter, marked, announced⟩ := finish_paid
            { w with
              minted := w.minted + 1
              ledger := w.ledger.having (chargeOf o (mintedUuid (w.minted + 1)) method)
              store := w.store.having id
                (o.marked (.paid ⟨mintedUuid (w.minted + 1)⟩ method) w.today) }
            method ⟨mintedUuid (w.minted + 1)⟩
            (o.marked (.paid ⟨mintedUuid (w.minted + 1)⟩ method) w.today)
          simp only [Bool.false_eq_true, if_false, marked]
          exact .paid _ ⟨o, w.clock, w.minted + 2, bus, meter, found, pending, rfl, announced⟩
  · exact .refused _ (.refl w)

theorem finish_load (w : World) (id : OrderId) :
    w.finish (load id) =
      (w, .ok (match w.store.read id with
        | .error e => .error (.store e)
        | .ok none => .error (.orderNotFound id)
        | .ok (some o) => .ok o)) := by
  simp only [load, finish, World.answer]
  cases w.store.read id with
  | error e => rfl
  | ok x => cases x <;> rfl

theorem finish_pay (w : World) (deadline : Span) (id : OrderId) (method : PaymentMethod) :
    PaysAlone w id method (w.finish (pay .direct deadline id method)).1
      (w.finish (pay .direct deadline id method)).2 := by
  rw [pay, finish_bind, finish_load]
  cases read : w.store.read id with
  | error e => exact .refused _ (.refl w)
  | ok x =>
    cases x with
    | none => exact .refused _ (.refl w)
    | some o =>
      have found : w.store.orders.find? id = some o := by
        rw [Store.read] at read
        split at read
        · cases read
        · exact Except.ok.inj read
      exact finish_payable w deadline id method found

end Fulfilment
end Shipyard

import Shipyard.Proofs.Fulfilment.Alone

/-!
# What is taken for an order

The parts of an order are judged one after another, and the first that is not to be had ends the
intake, unless the sum of the prices before it has left the range of money. An order is stored only
if there is none such, and then with the sum of all prices.
-/

namespace Shipyard

namespace Money

/-- An amount that money can have. -/
abbrev Fits (n : Int) : Prop := -0x8000000000000000 ≤ n ∧ n < 0x8000000000000000

variable {a b sum : Money}

theorem zero_cents : zero.cents = 0 := rfl

theorem add_of_fits (fits : Fits (a.cents + b.cents)) :
    a.add b = .ok ⟨a.cents + b.cents, fits⟩ := by
  rw [add, ofInt?, dif_pos fits]

theorem add_of_not_fits (out : ¬ Fits (a.cents + b.cents)) : a.add b = .error .addition := by
  rw [add, ofInt?, dif_neg out]

theorem add_ok (h : a.add b = .ok sum) : sum.cents = a.cents + b.cents := by
  by_cases fits : Fits (a.cents + b.cents)
  · rw [add_of_fits fits] at h
    cases h
    rfl
  · rw [add_of_not_fits fits] at h
    cases h

end Money

namespace Stock

/-- What a part is charged for, if it is known. -/
def cents (s : Stock) (deadline : Span) (id : PartId) : Int :=
  match s.told deadline id with
  | .ok part => part.price.cents
  | .error _ => 0

/-- The sum of the prices, each part as often as it is listed. -/
def cost (s : Stock) (deadline : Span) (parts : List PartId) : Int :=
  (parts.map (s.cents deadline)).sum

/-- Every part is to be had, and no sum on the way leaves the range. -/
structure Sells (s : Stock) (deadline : Span) (parts : List PartId) : Prop where
  offered : ∀ id ∈ parts, ∃ part, s.told deadline id = .ok part ∧ 0 < part.quantity
  fits : ∀ k, Money.Fits (s.cost deadline (parts.take k))

variable {s : Stock} {deadline : Span} {id : PartId} {part : Part}

theorem cents_of_told (told : s.told deadline id = .ok part) :
    s.cents deadline id = part.price.cents := by
  rw [cents, told]

theorem cost_cons (s : Stock) (deadline : Span) (id : PartId) (parts : List PartId) :
    s.cost deadline (id :: parts) = s.cents deadline id + s.cost deadline parts := by
  rw [cost, List.map_cons, List.sum_cons]
  rfl

theorem cost_concat (s : Stock) (deadline : Span) (parts : List PartId) (id : PartId) :
    s.cost deadline (parts ++ [id]) = s.cost deadline parts + s.cents deadline id := by
  simp [cost]

end Stock

namespace Fulfilment

open World

variable {w : World} {s : Stock} {deadline : Span} {id : PartId} {part : Part}
  {parts : List PartId} {total sum : Money}

/-! ## Judging parts -/

theorem offer_of_error {cause : ServiceError} (told : s.told deadline id = .error cause) :
    offer s deadline id = .error (.partNotFound id cause.message) := by
  rw [offer, told]

theorem offer_of_sold_out (told : s.told deadline id = .ok part) (gone : part.quantity ≤ 0) :
    offer s deadline id = .error (.outOfStock id) := by
  have out : part.inStock = false := decide_eq_false (by omega)
  rw [offer, told]
  simp only [out]
  rfl

theorem offer_of_stocked (told : s.told deadline id = .ok part) (stocked : 0 < part.quantity) :
    offer s deadline id = .ok part := by
  have there : part.inStock = true := decide_eq_true stocked
  rw [offer, told]
  simp only [there]
  rfl

theorem told_of_offer (h : offer s deadline id = .ok part) :
    s.told deadline id = .ok part ∧ 0 < part.quantity := by
  cases told : s.told deadline id with
  | error cause =>
    rw [offer_of_error told] at h
    cases h
  | ok part' =>
    by_cases stocked : 0 < part'.quantity
    · rw [offer_of_stocked told stocked] at h
      cases h
      exact ⟨rfl, stocked⟩
    · rw [offer_of_sold_out told (by omega)] at h
      cases h

/-- Parts that are to be had are added up, and what follows them is judged with their sum. -/
theorem judge_append
    (offered : ∀ id ∈ parts, ∃ part, s.told deadline id = .ok part ∧ 0 < part.quantity)
    (fits : ∀ k, Money.Fits (total.cents + s.cost deadline (parts.take k))) (rest : List PartId) :
    ∃ sum : Money, sum.cents = total.cents + s.cost deadline parts ∧
      judge s deadline total (parts ++ rest) = judge s deadline sum rest := by
  induction parts generalizing total with
  | nil => exact ⟨total, by simp [Stock.cost], rfl⟩
  | cons id parts ih =>
    obtain ⟨part, told, stocked⟩ := offered id (by simp)
    have price := Stock.cents_of_told told
    have first : Money.Fits (total.cents + part.price.cents) := by
      have := fits 1
      rwa [List.take_succ_cons, List.take_zero, Stock.cost_cons, price, Stock.cost, List.map_nil,
        List.sum_nil, add_zero] at this
    have onward : ∀ k, Money.Fits (total.cents + part.price.cents +
        s.cost deadline (parts.take k)) := by
      intro k
      have := fits (k + 1)
      rwa [List.take_succ_cons, Stock.cost_cons, price, ← add_assoc] at this
    have others : ∀ i ∈ parts, ∃ part, s.told deadline i = .ok part ∧ 0 < part.quantity :=
      fun i mem => offered i (by simp [mem])
    obtain ⟨sum, cents, judged⟩ := @ih ⟨_, first⟩ others onward
    refine ⟨sum, ?_, ?_⟩
    · rw [cents, Stock.cost_cons, price, add_assoc]
    · rw [List.cons_append, judge, offer_of_stocked told stocked]
      simp only [Money.add_of_fits first]
      exact judged

/-- The parts that were added up were to be had. -/
theorem fits_of_judge (h : judge s deadline total parts = .ok (.ok sum)) :
    (∀ id ∈ parts, ∃ part, s.told deadline id = .ok part ∧ 0 < part.quantity) ∧
      ∀ k, Money.Fits (total.cents + s.cost deadline (parts.take k)) := by
  induction parts generalizing total with
  | nil =>
    refine ⟨by simp, fun k => ?_⟩
    simpa [Stock.cost] using total.inRange
  | cons id parts ih =>
    rw [judge] at h
    cases offered : offer s deadline id with
    | error e =>
      rw [offered] at h
      cases h
    | ok part =>
      obtain ⟨told, stocked⟩ := told_of_offer offered
      rw [offered] at h
      cases added : total.add part.price with
      | error f =>
        simp only [added] at h
        cases h
      | ok sum' =>
        simp only [added] at h
        obtain ⟨others, fits⟩ := ih h
        constructor
        · intro i mem
          rcases List.mem_cons.mp mem with rfl | mem
          · exact ⟨part, told, stocked⟩
          · exact others i mem
        · intro k
          cases k with
          | zero => simpa [Stock.cost] using total.inRange
          | succ k =>
            rw [List.take_succ_cons, Stock.cost_cons, Stock.cents_of_told told, ← add_assoc,
              ← Money.add_ok added]
            exact fits k

theorem judge_of_sells (sells : s.Sells deadline parts) (rest : List PartId) :
    ∃ sum : Money, sum.cents = s.cost deadline parts ∧
      judge s deadline .zero (parts ++ rest) = judge s deadline sum rest := by
  have fits : ∀ k, Money.Fits (Money.zero.cents + s.cost deadline (parts.take k)) := by
    intro k
    rw [Money.zero_cents, zero_add]
    exact sells.fits k
  obtain ⟨sum, cents, judged⟩ := judge_append sells.offered fits rest
  rw [Money.zero_cents, zero_add] at cents
  exact ⟨sum, cents, judged⟩

theorem sells_of_judge (h : judge s deadline .zero parts = .ok (.ok sum)) :
    s.Sells deadline parts := by
  obtain ⟨offered, fits⟩ := fits_of_judge h
  refine ⟨offered, fun k => ?_⟩
  have := fits k
  rwa [Money.zero_cents, zero_add] at this

/-! ## Taking an order -/

/-- What the intake of an order makes of a world, with its result. -/
structure Intake (w : World) (deadline : Span) (user : UserId) (parts : List PartId)
    (method : Option PaymentMethod) (v : World) (x : Except Fault (Except Error Order)) :
    Prop where
  empty : parts = [] → x = .ok (.error .noParts)
  notFound : ∀ before id rest cause, parts = before ++ id :: rest →
    w.stock.Sells deadline before → w.stock.told deadline id = .error cause →
    x = .ok (.error (.partNotFound id cause.message))
  soldOut : ∀ before id rest part, parts = before ++ id :: rest →
    w.stock.Sells deadline before → w.stock.told deadline id = .ok part → part.quantity ≤ 0 →
    x = .ok (.error (.outOfStock id))
  /-- The sum leaves the range with the price of this part. -/
  overflowed : ∀ before id rest part, parts = before ++ id :: rest →
    w.stock.Sells deadline before → w.stock.told deadline id = .ok part → 0 < part.quantity →
    ¬ Money.Fits (w.stock.cost deadline (before ++ [id])) → x = .error .addition
  unwritten : parts ≠ [] → w.stock.Sells deadline parts → w.store.writesDown = true →
    x = .ok (.error (.store (.unavailable "write refused")))
  /-- The order that is stored is returned, if its total has a text. -/
  taken : parts ≠ [] → w.stock.Sells deadline parts → w.store.writesDown = false →
    w.store.orders.find? ⟨mintedUuid (w.minted + 1)⟩ = none →
    ∃ total : Money, total.cents = w.stock.cost deadline parts ∧
      w.Takes (.fresh ⟨mintedUuid (w.minted + 1)⟩ user parts total method w.today) v ∧
      (total.cents ≠ -0x8000000000000000 →
        x = .ok (.ok (.fresh ⟨mintedUuid (w.minted + 1)⟩ user parts total method w.today)))
  untouched : ¬ (parts ≠ [] ∧ w.stock.Sells deadline parts ∧ w.store.writesDown = false ∧
    w.store.orders.find? ⟨mintedUuid (w.minted + 1)⟩ = none) → w.Rests v

/-- A priced order is stored, if the store works and does not know its identifier yet. -/
theorem finish_place_taken (up : w.store.writesDown = false)
    (unknown : w.store.orders.find? ⟨mintedUuid (w.minted + 1)⟩ = none) (user : UserId)
    (parts : List PartId) (method : Option PaymentMethod) (total : Money) :
    w.Takes (.fresh ⟨mintedUuid (w.minted + 1)⟩ user parts total method w.today)
        (w.finish (place user parts method total)).1 ∧
      (total.cents ≠ -0x8000000000000000 → (w.finish (place user parts method total)).2 =
        .ok (.ok (.fresh ⟨mintedUuid (w.minted + 1)⟩ user parts total method w.today))) := by
  have inserted : w.store.insert
      (.fresh ⟨mintedUuid (w.minted + 1)⟩ user parts total method w.today) =
      .ok (w.store.having ⟨mintedUuid (w.minted + 1)⟩
        (.fresh ⟨mintedUuid (w.minted + 1)⟩ user parts total method w.today)) := by
    have free : (w.store.orders.find? ⟨mintedUuid (w.minted + 1)⟩).isSome = false := by
      rw [unknown]
      rfl
    rw [Store.insert, if_neg (by simp [up]), if_neg (by simp [Order.fresh, free])]
    rfl
  simp only [place, finish, World.answer, tried_map, inserted]
  cases text : total.text with
  | error f =>
    obtain ⟨-, least⟩ := Money.text_error text
    exact ⟨⟨unknown, w.clock, w.minted + 1, rfl⟩, fun other => absurd least other⟩
  | ok said => exact ⟨⟨unknown, w.clock, w.minted + 1, rfl⟩, fun _ => rfl⟩

/-- A priced order is refused by a store that does not work or knows its identifier. -/
theorem finish_place_refused
    (refused : ¬ (w.store.writesDown = false ∧
      w.store.orders.find? ⟨mintedUuid (w.minted + 1)⟩ = none)) (user : UserId)
    (parts : List PartId) (method : Option PaymentMethod) (total : Money) :
    w.Rests (w.finish (place user parts method total)).1 ∧
      (w.store.writesDown = true → (w.finish (place user parts method total)).2 =
        .ok (.error (.store (.unavailable "write refused")))) := by
  simp only [place, finish, World.answer, tried_map]
  cases inserted : w.store.insert
      (.fresh ⟨mintedUuid (w.minted + 1)⟩ user parts total method w.today) with
  | ok store =>
    obtain ⟨unknown, -⟩ := Store.insert_ok inserted
    rw [Store.insert] at inserted
    split at inserted
    · cases inserted
    · next up => exact absurd ⟨Bool.eq_false_iff.mpr up, unknown⟩ refused
  | error e =>
    refine ⟨⟨w.clock, w.minted + 1, rfl⟩, fun down => ?_⟩
    rw [Store.insert, if_pos down] at inserted
    cases inserted
    rfl

/-- Nothing is done unless every part is to be had and the store takes the order. -/
theorem create_rests (user : UserId) (method : Option PaymentMethod)
    (otherwise : ¬ (parts ≠ [] ∧ w.stock.Sells deadline parts ∧ w.store.writesDown = false ∧
      w.store.orders.find? ⟨mintedUuid (w.minted + 1)⟩ = none)) :
    w.Rests (w.finish (create .direct deadline user parts method)).1 := by
  by_cases some : parts = []
  · subst some
    exact .refl w
  · obtain ⟨clock, created⟩ := finish_create_judged w deadline method some
    have rests : w.Rests { w with clock } := ⟨clock, w.minted, rfl⟩
    rw [created]
    cases judged : judge w.stock deadline .zero parts with
    | error f => exact rests
    | ok x =>
      cases x with
      | error e => exact rests
      | ok sum =>
        have refused : ¬ (w.store.writesDown = false ∧
            w.store.orders.find? ⟨mintedUuid (w.minted + 1)⟩ = none) := by
          rintro ⟨up, unknown⟩
          exact otherwise ⟨some, sells_of_judge judged, up, unknown⟩
        exact rests.trans
          (finish_place_refused (w := { w with clock }) refused user parts method sum).1

/-- An order is taken, or nothing has happened: for any stock, deadline and parts. -/
theorem create_intake (w : World) (deadline : Span) (user : UserId) (parts : List PartId)
    (method : Option PaymentMethod) :
    Intake w deadline user parts method (w.finish (create .direct deadline user parts method)).1
      (w.finish (create .direct deadline user parts method)).2 := by
  have created (some : parts ≠ []) := finish_create_judged w deadline method some
  constructor
  · intro empty
    subst empty
    rfl
  · intro before id rest cause split sells told
    obtain ⟨clock, created⟩ := created (by simp [split])
    obtain ⟨sum, -, judged⟩ := judge_of_sells sells (id :: rest)
    rw [created, split, judged, judge, offer_of_error told]
  · intro before id rest part split sells told gone
    obtain ⟨clock, created⟩ := created (by simp [split])
    obtain ⟨sum, -, judged⟩ := judge_of_sells sells (id :: rest)
    rw [created, split, judged, judge, offer_of_sold_out told gone]
  · intro before id rest part split sells told stocked out
    obtain ⟨clock, created⟩ := created (by simp [split])
    obtain ⟨sum, cents, judged⟩ := judge_of_sells sells (id :: rest)
    rw [Stock.cost_concat, ← cents, Stock.cents_of_told told] at out
    rw [created, split, judged, judge, offer_of_stocked told stocked]
    simp only [Money.add_of_not_fits out]
  · intro some sells down
    obtain ⟨clock, created⟩ := created some
    obtain ⟨sum, -, judged⟩ := judge_of_sells sells []
    rw [List.append_nil] at judged
    rw [created, judged]
    exact (finish_place_refused (w := { w with clock }) (by simp [down]) user parts method sum).2
      down
  · intro some sells up unknown
    obtain ⟨clock, created⟩ := created some
    obtain ⟨sum, cents, judged⟩ := judge_of_sells sells []
    rw [List.append_nil] at judged
    rw [created, judged]
    obtain ⟨takes, returned⟩ :=
      finish_place_taken (w := { w with clock }) up unknown user parts method sum
    have rests : w.Rests { w with clock } := ⟨clock, w.minted, rfl⟩
    exact ⟨sum, cents, rests.takes takes, returned⟩
  · exact create_rests user method

/-- A part that is in stock, and nothing else. -/
def oneBolt (price : Money) (latency : Option Span) : World :=
  { World.empty 1 true ⟨0, 0, 0⟩ with
    stock := ⟨Table.empty.put ⟨"bolt"⟩ ⟨⟨"bolt"⟩, "Bolt", price, 3⟩, false, latency⟩ }

/-- A lookup that takes longer than the deadline is waited for if both are longer than any wait.
An order over the least amount is stored and counted but not returned. -/
theorem late_parts_taken_and_orders_kept_back :
    let deadline : Span := .ofMillis 1000000000000
    let latency : Span := .ofMillis 10000000000000
    let slow := oneBolt ⟨70, by decide⟩ (some latency)
    let cheap := oneBolt ⟨-0x8000000000000000, by decide⟩ none
    let bought (w : World) := w.finish (create .direct deadline ⟨"u1"⟩ [⟨"bolt"⟩] none)
    deadline.nanos < latency.nanos ∧
      (bought slow).2.map (Except.map Order.status) = .ok (.ok .pendingPayment) ∧
      (bought slow).1.store.size = 1 ∧
      (bought cheap).2.map (Except.map Order.status) = .error .negation ∧
      (bought cheap).1.store.size = 1 ∧
      (bought cheap).1.meter.count (.orders .created) = 1 := by
  decide +kernel

end Fulfilment
end Shipyard

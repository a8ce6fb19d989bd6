import Mathlib.Data.Finset.Card
import Mathlib.Data.Finset.Dedup
import Mathlib.Data.List.Induction
import Mathlib.Logic.Function.Iterate
import Shipyard.Proofs.Fulfilment.Alone
import Shipyard.Proofs.Fulfilment.Builds

/-!
# Completions of builds in turn

Builds are completed one after another by a working store: in any order, and the same build any
number of times. What becomes of an order depends on whether a build of it is among them, and on
nothing else; only the day on which it is assembled is that of the first.
-/

namespace Shipyard

/-- A build that is completed, and on which day. -/
structure Completion where
  build : BuildCompleted
  today : Instant

namespace World

open Fulfilment

/-- Completes a build while nothing else happens. -/
def complete (w : World) (c : Completion) :
    World × Except Fault (Except HandlerError BuildOutcome) :=
  (w.flip (.date c.today)).finish (completeBuild .direct c.build)

def completeAll (w : World) (cs : List Completion) : World :=
  cs.foldl (fun w c => (w.complete c).1) w

end World

/-- The orders whose builds are completed. -/
def mentioned (cs : List Completion) : List OrderId := cs.map fun c => c.build.order

/-- The days on which a build of the order is completed. -/
def mentions (cs : List Completion) (id : OrderId) : List Instant :=
  (cs.filter fun c => c.build.order = id).map Completion.today

/-- An order after its builds were completed on these days. -/
def Order.built (o : Order) : List Instant → Order
  | [] => o
  | day :: _ => if o.status = .paid then o.marked .assembled day else o

/-- The same order, but perhaps with another date if it is assembled. -/
structure Order.Resembles (o o' : Order) : Prop where
  same : o' = { o with updatedAt := o'.updatedAt }
  date : o.status ≠ .assembled → o'.updatedAt = o.updatedAt

namespace Store

open Fulfilment

def isPaid (s : Store) (id : OrderId) : Bool :=
  (s.orders.find? id).any fun o => o.status = .paid

/-- How the completion of a build is answered, given the store as it was before builds of some
orders were completed. -/
def outcome (s : Store) (earlier : List OrderId) (id : OrderId) : BuildOutcome :=
  match s.orders.find? id with
  | none => .skipped
  | some o =>
    match o.status with
    | .paid => if id ∈ earlier then .duplicate else .assembled
    | .assembled => .duplicate
    | .pendingPayment => .skipped
    | .cancelled => .skipped

/-- The paid orders among some. -/
def paidAmong (s : Store) (ids : List OrderId) : Finset OrderId :=
  ids.toFinset.filter fun id => s.isPaid id

end Store

/-! ## What becomes of an order -/

namespace Order

variable {o : Order} {days : List Instant}

theorem built_of_unpaid (unpaid : o.status ≠ .paid) (days : List Instant) : o.built days = o := by
  cases days with
  | nil => rfl
  | cons day days => exact if_neg unpaid

theorem built_of_paid (paid : o.status = .paid) (day : Instant) (days : List Instant) :
    o.built (day :: days) = o.marked .assembled day := if_pos paid

/-- Only the first day counts. -/
theorem built_concat (h : days ≠ []) (day : Instant) : o.built (days ++ [day]) = o.built days := by
  cases days with
  | nil => exact absurd rfl h
  | cons first days => rfl

theorem Resembles.refl (o : Order) : o.Resembles o := ⟨rfl, fun _ => rfl⟩

theorem built_resembles (o : Order) {days days' : List Instant} (h : days = [] ↔ days' = []) :
    (o.built days).Resembles (o.built days') := by
  by_cases paid : o.status = .paid
  · cases days with
    | nil =>
      rw [h.mp rfl]
      exact .refl _
    | cons day days =>
      cases days' with
      | nil => cases h.mpr rfl
      | cons day' days' =>
        rw [built_of_paid paid, built_of_paid paid]
        constructor
        · rfl
        · intro unassembled
          exact absurd rfl unassembled
  · rw [built_of_unpaid paid, built_of_unpaid paid]
    exact .refl o

end Order

variable {cs cs' : List Completion} {c : Completion} {id : OrderId}

theorem mentions_eq_nil_iff : mentions cs id = [] ↔ id ∉ mentioned cs := by
  simp [mentions, mentioned]

theorem mentioned_concat (cs : List Completion) (c : Completion) :
    mentioned (cs ++ [c]) = mentioned cs ++ [c.build.order] := by
  simp [mentioned]

theorem mentions_concat_self (cs : List Completion) (c : Completion) :
    mentions (cs ++ [c]) c.build.order = mentions cs c.build.order ++ [c.today] := by
  simp [mentions]

theorem mentions_concat_of_ne (other : c.build.order ≠ id) :
    mentions (cs ++ [c]) id = mentions cs id := by
  simp [mentions, other]

namespace Store

variable {s : Store} {ids : List OrderId} {o : Order}

theorem outcome_of_found (found : s.orders.find? id = some o) (earlier : List OrderId) :
    s.outcome earlier id =
      match o.status with
      | .paid => if id ∈ earlier then .duplicate else .assembled
      | .assembled => .duplicate
      | .pendingPayment => .skipped
      | .cancelled => .skipped := by
  rw [outcome, found]

theorem isPaid_of_found (found : s.orders.find? id = some o) :
    s.isPaid id = decide (o.status = .paid) := by
  rw [isPaid, found]
  rfl

theorem paidAmong_concat (known : id ∈ ids ∨ s.isPaid id = false) :
    s.paidAmong (ids ++ [id]) = s.paidAmong ids := by
  ext x
  simp only [paidAmong, Finset.mem_filter, List.mem_toFinset, List.mem_append, List.mem_singleton]
  constructor
  · rintro ⟨earlier | rfl, paid⟩
    · exact ⟨earlier, paid⟩
    · rcases known with mem | unpaid
      · exact ⟨mem, paid⟩
      · cases unpaid.symm.trans paid
  · rintro ⟨earlier, paid⟩
    exact ⟨.inl earlier, paid⟩

theorem card_paidAmong_concat (paid : s.isPaid id = true) (fresh : id ∉ ids) :
    (s.paidAmong (ids ++ [id])).card = (s.paidAmong ids).card + 1 := by
  have grown : s.paidAmong (ids ++ [id]) = Insert.insert id (s.paidAmong ids) := by
    ext x
    simp only [paidAmong, Finset.mem_filter, List.mem_toFinset, List.mem_append,
      List.mem_singleton, Finset.mem_insert]
    constructor
    · rintro ⟨earlier | rfl, paid⟩
      · exact .inr ⟨earlier, paid⟩
      · exact .inl rfl
    · rintro (rfl | ⟨earlier, paid⟩)
      · exact ⟨.inr rfl, paid⟩
      · exact ⟨.inl earlier, paid⟩
  rw [grown]
  apply Finset.card_insert_of_notMem
  intro mem
  exact fresh (List.mem_toFinset.mp (Finset.mem_filter.mp mem).1)

theorem paidAmong_congr {ids' : List OrderId} (same : ∀ id, id ∈ ids ↔ id ∈ ids') :
    s.paidAmong ids = s.paidAmong ids' := by
  ext id
  simp only [paidAmong, Finset.mem_filter, List.mem_toFinset, same]

/-- A working store assembles a paid order. -/
theorem transition_assembles (up : s.IsUp) (found : s.orders.find? id = some o)
    (paid : o.status = .paid) (now : Instant) :
    s.transition id .paid .assembled now =
      .ok (o.marked .assembled now, s.having id (o.marked .assembled now)) := by
  have allowed : o.status.canBecome .assembled = true := by
    rw [paid]
    rfl
  have applied : o.apply .assembled now = .ok (o.marked .assembled now) := by
    rw [Order.apply, Order.Change.target, if_pos allowed]
    rfl
  rw [transition, Order.Change.target, if_neg (by decide), if_neg (by simp [up.2]), found]
  simp only [paid, ne_eq, not_true_eq_false, if_false, applied]
  rfl

end Store

/-! ## One completion -/

namespace World

open Fulfilment

variable {w v : World} {o : Order}

/-- Nothing comes of a completion but that a paid order is assembled and counted. -/
theorem finish_completeBuild (up : w.store.IsUp) (b : BuildCompleted) :
    w.finish (completeBuild .direct b) =
      match w.store.orders.find? b.order with
      | none => (w, .ok (.ok .skipped))
      | some o =>
        match o.status with
        | .assembled => (w, .ok (.ok .duplicate))
        | .paid => ({ w with
            store := w.store.having b.order (o.marked .assembled w.today)
            meter := w.meter.add (.orders .assembled) 1 }, .ok (.ok .assembled))
        | .pendingPayment => (w, .ok (.ok .skipped))
        | .cancelled => (w, .ok (.ok .skipped)) := by
  have read : w.store.read b.order = .ok (w.store.orders.find? b.order) := by
    rw [Store.read, up.1]
    rfl
  simp only [completeBuild, finish, World.answer, read]
  cases found : w.store.orders.find? b.order with
  | none => rfl
  | some o =>
    cases status : o.status with
    | pendingPayment => simp only [status, finish]
    | cancelled => simp only [status, finish]
    | assembled => simp only [status, finish]
    | paid =>
      simp only [status, assemblePaid, finish_bind, finish_change,
        Store.transition_assembles up found status]
      rfl

/-- What has become of a world after builds were completed. -/
structure Completed (w : World) (cs : List Completion) (v : World) : Prop where
  up : v.store.IsUp
  orders : ∀ id, v.store.orders.find? id =
    (w.store.orders.find? id).map fun o => o.built (mentions cs id)
  assembled : v.assembledCount = w.assembledCount + (w.store.paidAmong (mentioned cs)).card
  meter : v.meter =
    (fun m => m.add (.orders .assembled) 1)^[(w.store.paidAmong (mentioned cs)).card] w.meter

/-- A completion that finds nothing to do. -/
theorem Completed.idle (h : Completed w cs v) (today : Instant)
    (done : ∀ o, w.store.orders.find? c.build.order = some o →
      o.status ≠ .paid ∨ c.build.order ∈ mentioned cs) :
    Completed w (cs ++ [c]) (v.flip (.date today)) := by
  have same : w.store.paidAmong (mentioned (cs ++ [c])) = w.store.paidAmong (mentioned cs) := by
    rw [mentioned_concat]
    apply Store.paidAmong_concat
    cases found : w.store.orders.find? c.build.order with
    | none =>
      right
      rw [Store.isPaid, found]
      rfl
    | some o =>
      rcases done o found with unpaid | mem
      · right
        rw [Store.isPaid_of_found found]
        exact decide_eq_false unpaid
      · exact .inl mem
  refine ⟨h.up, ?_, ?_, ?_⟩
  · intro id
    refine (h.orders id).trans ?_
    by_cases here : c.build.order = id
    · subst here
      rw [mentions_concat_self]
      cases found : w.store.orders.find? c.build.order with
      | none => rfl
      | some o =>
        rw [Option.map_some, Option.map_some]
        rcases done o found with unpaid | mem
        · rw [Order.built_of_unpaid unpaid, Order.built_of_unpaid unpaid]
        · rw [Order.built_concat (fun none => mentions_eq_nil_iff.mp none mem)]
    · rw [mentions_concat_of_ne here]
  · rw [same]
    exact h.assembled
  · rw [same]
    exact h.meter

/-- The first completion for a paid order. -/
theorem Completed.first (h : Completed w cs v)
    (found : w.store.orders.find? c.build.order = some o) (paid : o.status = .paid)
    (fresh : c.build.order ∉ mentioned cs) :
    Completed w (cs ++ [c]) { v.flip (.date c.today) with
      store := v.store.having c.build.order (o.marked .assembled c.today)
      meter := v.meter.add (.orders .assembled) 1 } := by
  have here : v.store.orders.find? c.build.order = some o := by
    rw [h.orders, found, mentions_eq_nil_iff.mpr fresh]
    rfl
  have one : (w.store.paidAmong (mentioned (cs ++ [c]))).card =
      (w.store.paidAmong (mentioned cs)).card + 1 := by
    rw [mentioned_concat]
    apply Store.card_paidAmong_concat _ fresh
    rw [Store.isPaid_of_found found]
    exact decide_eq_true paid
  refine ⟨h.up, ?_, ?_, ?_⟩
  · intro id
    show (v.store.orders.put _ _).find? id = _
    rw [Table.find?_put]
    by_cases same : c.build.order = id
    · subst same
      rw [if_pos rfl, found, mentions_concat_self, mentions_eq_nil_iff.mpr fresh]
      exact congrArg some (Order.built_of_paid paid c.today []).symm
    · rw [if_neg same, mentions_concat_of_ne same]
      exact h.orders id
  · have total := Table.countP_values_put Order.isAssembled v.store.orders c.build.order
      (o.marked .assembled c.today)
    have before : o.isAssembled = false := by simp [Order.isAssembled, paid]
    have after : (o.marked .assembled c.today).isAssembled = true := rfl
    rw [here, Option.any_some, before, after] at total
    show (v.store.orders.put _ _).values.countP Order.isAssembled = _
    have earlier : v.store.orders.values.countP Order.isAssembled = _ := h.assembled
    rw [one]
    simp only [Bool.toNat_false, Bool.toNat_true] at total
    omega
  · rw [one, Function.iterate_succ_apply', ← h.meter]

/-- One more completion: how it is answered, and what it makes of the world. -/
theorem Completed.complete (h : Completed w cs v) (c : Completion) :
    (v.complete c).2 = .ok (.ok (w.store.outcome (mentioned cs) c.build.order)) ∧
      Completed w (cs ++ [c]) (v.complete c).1 := by
  have up : (v.flip (.date c.today)).store.IsUp := h.up
  have here : (v.flip (.date c.today)).store.orders.find? c.build.order = _ :=
    h.orders c.build.order
  rw [World.complete, finish_completeBuild up, here]
  cases found : w.store.orders.find? c.build.order with
  | none =>
    rw [Store.outcome, found]
    exact ⟨rfl, h.idle c.today fun o other => by cases found.symm.trans other⟩
  | some o =>
    rw [Store.outcome_of_found found, Option.map_some]
    by_cases paid : o.status = .paid
    · by_cases mem : c.build.order ∈ mentioned cs
      · -- It was assembled when it was first mentioned.
        obtain ⟨day, days, split⟩ : ∃ day days, mentions cs c.build.order = day :: days :=
          List.exists_cons_of_ne_nil fun none => mentions_eq_nil_iff.mp none mem
        simp only [split, Order.built_of_paid paid, paid, mem, if_true]
        exact ⟨rfl, h.idle c.today fun _ _ => .inr mem⟩
      · simp only [mentions_eq_nil_iff.mpr mem, Order.built, paid, mem, if_false]
        exact ⟨trivial, h.first found paid mem⟩
    · have idle := h.idle (c := c) c.today fun o' other => by
        obtain rfl := Option.some.inj (found.symm.trans other)
        exact .inl paid
      rw [Order.built_of_unpaid paid]
      cases status : o.status with
      | paid => exact absurd status paid
      | pendingPayment =>
        simp only [status]
        exact ⟨trivial, idle⟩
      | cancelled =>
        simp only [status]
        exact ⟨trivial, idle⟩
      | assembled =>
        simp only [status]
        exact ⟨trivial, idle⟩

/-! ## Many completions -/

theorem completeAll_concat (w : World) (cs : List Completion) (c : Completion) :
    w.completeAll (cs ++ [c]) = ((w.completeAll cs).complete c).1 := by
  simp [completeAll, List.foldl_append]

theorem completed_completeAll (up : w.store.IsUp) (cs : List Completion) :
    Completed w cs (w.completeAll cs) := by
  induction cs using List.reverseRecOn with
  | nil =>
    have none : w.store.paidAmong (mentioned []) = ∅ := rfl
    refine ⟨up, ?_, ?_, ?_⟩
    · intro id
      have same : (fun o : Order => o.built (mentions [] id)) = fun o => o := rfl
      rw [same, Option.map_id']
      rfl
    · rw [none]
      rfl
    · rw [none]
      rfl
  | append_singleton cs c ih =>
    rw [completeAll_concat]
    exact (ih.complete c).2

/-- Each completion is answered as the world at the start and the earlier completions demand. -/
def Answers (w : World) (cs : List Completion) : Prop :=
  ∀ before c rest, cs = before ++ c :: rest →
    ((w.completeAll before).complete c).2 =
      .ok (.ok (w.store.outcome (mentioned before) c.build.order))

theorem answers_completeAll (up : w.store.IsUp) (cs : List Completion) : w.Answers cs := by
  intro before c rest split
  exact ((completed_completeAll up before).complete c).1

/-- Builds of the same orders, in whatever order and number, make the same of a world. -/
theorem builds_commute (up : w.store.IsUp) (same : ∀ id, id ∈ mentioned cs ↔ id ∈ mentioned cs') :
    (∀ id, Option.Rel Order.Resembles ((w.completeAll cs).store.orders.find? id)
      ((w.completeAll cs').store.orders.find? id)) ∧
    (w.completeAll cs).assembledCount = (w.completeAll cs').assembledCount ∧
    (w.completeAll cs).meter = (w.completeAll cs').meter ∧
    w.Answers cs ∧ w.Answers cs' := by
  have run := completed_completeAll up cs
  have run' := completed_completeAll up cs'
  have paid : w.store.paidAmong (mentioned cs) = w.store.paidAmong (mentioned cs') :=
    Store.paidAmong_congr same
  refine ⟨?_, ?_, ?_, answers_completeAll up cs, answers_completeAll up cs'⟩
  · intro id
    rw [run.orders, run'.orders]
    cases w.store.orders.find? id with
    | none => exact .none
    | some o =>
      have days : mentions cs id = [] ↔ mentions cs' id = [] := by
        rw [mentions_eq_nil_iff, mentions_eq_nil_iff, same]
      exact .some (o.built_resembles days)
  · rw [run.assembled, run'.assembled, paid]
  · rw [run.meter, run'.meter, paid]

/-- The build of a paid order is completed twice, or later and once; the other order is unpaid. -/
theorem builds_commute_again_and_late :
    let w := ((Yard.empty 1 true ⟨0, 0, 0⟩).play Yard.paidAndUnpaid).world
    let first := Yard.built Yard.firstOrder
    let second := Yard.built Yard.secondOrder
    let twice : List Completion := [⟨first, ⟨1, 0, 0⟩⟩, ⟨second, ⟨1, 0, 0⟩⟩, ⟨first, ⟨2, 0, 0⟩⟩]
    let late : List Completion := [⟨second, ⟨8, 0, 0⟩⟩, ⟨first, ⟨9, 0, 0⟩⟩]
    Option.Rel Order.Resembles ((w.completeAll twice).store.orders.find? Yard.firstOrder)
        ((w.completeAll late).store.orders.find? Yard.firstOrder) ∧
      (w.completeAll late).assembledCount = 1 ∧
      (w.completeAll late).meter.count (.orders .assembled) = 1 ∧
      ((w.completeAll []).complete ⟨first, ⟨1, 0, 0⟩⟩).2 = .ok (.ok .assembled) ∧
      ((w.completeAll (twice.take 2)).complete ⟨first, ⟨2, 0, 0⟩⟩).2 = .ok (.ok .duplicate) ∧
      ((w.completeAll []).complete ⟨second, ⟨8, 0, 0⟩⟩).2 = .ok (.ok .skipped) := by
  intro w first second twice late
  have up : w.store.IsUp := by decide +kernel
  have same : ∀ id, id ∈ mentioned twice ↔ id ∈ mentioned late := by
    intro id
    simp only [mentioned, twice, late, List.map_cons, List.map_nil, List.mem_cons,
      List.not_mem_nil, or_false]
    tauto
  obtain ⟨orders, count, meter, answers, answers'⟩ := builds_commute up same
  have assembled : (w.completeAll twice).assembledCount = 1 := by decide +kernel
  have counted : (w.completeAll twice).meter.count (.orders .assembled) = 1 := by decide +kernel
  have outcome : w.store.outcome [] Yard.firstOrder = .assembled := by decide +kernel
  have outcome' : w.store.outcome [Yard.firstOrder, Yard.secondOrder] Yard.firstOrder =
      .duplicate := by decide +kernel
  have outcome'' : w.store.outcome [] Yard.secondOrder = .skipped := by decide +kernel
  have first_answer := answers [] _ _ rfl
  have last_answer := answers (twice.take 2) _ [] rfl
  have other_answer := answers' [] _ _ rfl
  have earlier : mentioned (twice.take 2) = [Yard.firstOrder, Yard.secondOrder] := rfl
  rw [earlier] at last_answer
  refine ⟨orders Yard.firstOrder, count ▸ assembled, meter ▸ counted, ?_, ?_, ?_⟩
  · exact outcome ▸ first_answer
  · exact outcome' ▸ last_answer
  · exact outcome'' ▸ other_answer

end World
end Shipyard

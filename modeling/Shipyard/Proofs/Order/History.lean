import Mathlib.Data.List.Induction
import Shipyard.Proofs.Lifecycle

/-!
# The changes of one order

Changes are tried on an order one after another, and what its status does not allow is passed over.
Of a list of any length at most two changes count: the first payment or cancellation and, after a
payment, the first assembly.
-/

namespace Shipyard.Order

/-- A change that is tried, and when. -/
structure Attempt where
  change : Change
  time : Instant
deriving DecidableEq, Repr

/-- An order after a change was tried on it. -/
def attempt (o : Order) (a : Attempt) : Order :=
  match o.apply a.change a.time with
  | .ok o' => o'
  | .error _ => o

/-- An order after changes were tried on it in turn. -/
def after (o : Order) (as : List Attempt) : Order := as.foldl attempt o

/-- Whether a change settles what becomes of an order that awaits its payment. -/
def Change.decides : Change → Bool
  | .paid _ _ => true
  | .assembled => false
  | .cancelled => true

/-- No payment and no cancellation. -/
def Undecided (as : List Attempt) : Prop := ∀ a ∈ as, a.change.decides = false

def Unbuilt (as : List Attempt) : Prop := ∀ a ∈ as, a.change ≠ .assembled

/-- What a list of changes makes of an order that awaits its payment. -/
inductive Course (o : Order) : List Attempt → Order → Prop
  | waiting {as : List Attempt} (undecided : Undecided as) : Course o as o
  | cancelled {before rest : List Attempt} {now : Instant} (undecided : Undecided before) :
      Course o (before ++ ⟨.cancelled, now⟩ :: rest)
        { o with status := .cancelled, updatedAt := now }
  | paid {before rest : List Attempt} {t : TransactionId} {m : PaymentMethod} {now : Instant}
      (undecided : Undecided before) (unbuilt : Unbuilt rest) :
      Course o (before ++ ⟨.paid t m, now⟩ :: rest)
        { o with transaction := some t, method := some m, status := .paid, updatedAt := now }
  | assembled {before between rest : List Attempt} {t : TransactionId} {m : PaymentMethod}
      {now built : Instant} (undecided : Undecided before) (unbuilt : Unbuilt between) :
      Course o (before ++ ⟨.paid t m, now⟩ :: (between ++ ⟨.assembled, built⟩ :: rest))
        { o with
          transaction := some t
          method := some m
          status := .assembled
          updatedAt := built }

/-- A change that takes effect after those that were tried before it. -/
inductive Counts : List Attempt → Change → Prop
  | deciding {before : List Attempt} {c : Change} (undecided : Undecided before)
      (decides : c.decides = true) : Counts before c
  | building {before between : List Attempt} {t : TransactionId} {m : PaymentMethod}
      {now : Instant} (undecided : Undecided before) (unbuilt : Unbuilt between) :
      Counts (before ++ ⟨.paid t m, now⟩ :: between) .assembled

variable {o o' : Order} {a : Attempt} {as before : List Attempt} {c : Change} {now : Instant}

/-! ## One change -/

theorem apply_of_canBecome (allowed : o.status.canBecome c.target = true) (now : Instant) :
    o.apply c now = .ok { o.settle c with status := c.target, updatedAt := now } := by
  rw [apply, if_pos allowed]

theorem apply_of_not_canBecome (refused : o.status.canBecome c.target = false) (now : Instant) :
    o.apply c now = .error (.transition o.status c.target) := by
  rw [apply, refused]
  rfl

theorem attempt_of_ok (applied : o.apply a.change a.time = .ok o') : o.attempt a = o' := by
  rw [attempt, applied]

theorem attempt_of_not_canBecome (refused : o.status.canBecome a.change.target = false) :
    o.attempt a = o := by
  rw [attempt, apply_of_not_canBecome refused]

/-- An order that awaits its payment waits for a payment or a cancellation. -/
theorem canBecome_of_pending (pending : o.status = .pendingPayment) (c : Change) :
    o.status.canBecome c.target = c.decides := by
  rw [pending]
  cases c <;> rfl

/-- A paid order waits for its assembly. -/
theorem canBecome_of_paid (paid : o.status = .paid) (c : Change) :
    o.status.canBecome c.target = true ↔ c = .assembled := by
  rw [paid]
  cases c <;> simp [Change.target, Status.canBecome, Status.canPay, Status.canAssemble,
    Status.canCancel]

/-- Nothing follows a final status. -/
theorem canBecome_of_isFinal {s : Status} (final : s.isFinal = true) (t : Status) :
    s.canBecome t = false := by
  cases s with
  | pendingPayment => cases final
  | paid => cases final
  | assembled => cases t <;> rfl
  | cancelled => cases t <;> rfl

theorem precedes_attempt (o : Order) (a : Attempt) : o.Precedes (o.attempt a) := by
  cases applied : o.apply a.change a.time with
  | ok o' =>
    rw [attempt_of_ok applied]
    exact precedes_of_apply applied
  | error e =>
    rw [attempt, applied]
    exact .refl o

/-! ## Changes in turn -/

@[simp] theorem after_nil (o : Order) : o.after [] = o := rfl

@[simp] theorem after_cons (o : Order) (a : Attempt) (as : List Attempt) :
    o.after (a :: as) = (o.attempt a).after as := rfl

theorem after_append (o : Order) (as as' : List Attempt) :
    o.after (as ++ as') = (o.after as).after as' := List.foldl_append

theorem precedes_after (o : Order) (as : List Attempt) : o.Precedes (o.after as) := by
  induction as generalizing o with
  | nil => exact .refl o
  | cons a as ih => exact (precedes_attempt o a).trans (ih (o.attempt a))

/-- Changes that the status never allows come to nothing. -/
theorem after_of_refused (refused : ∀ a ∈ as, o.status.canBecome a.change.target = false) :
    o.after as = o := by
  induction as with
  | nil => rfl
  | cons a as ih =>
    have first : o.attempt a = o := attempt_of_not_canBecome (refused a (by simp))
    rw [after_cons, first]
    exact ih fun b mem => refused b (by simp [mem])

theorem after_undecided (pending : o.status = .pendingPayment) (undecided : Undecided as) :
    o.after as = o := by
  apply after_of_refused
  intro a mem
  rw [canBecome_of_pending pending]
  exact undecided a mem

theorem after_unbuilt (paid : o.status = .paid) (unbuilt : Unbuilt as) : o.after as = o := by
  apply after_of_refused
  intro a mem
  rw [Bool.eq_false_iff]
  intro allowed
  exact unbuilt a mem ((canBecome_of_paid paid _).mp allowed)

theorem Undecided.concat (h : Undecided as) (decides : a.change.decides = false) :
    Undecided (as ++ [a]) := by
  intro b mem
  rcases List.mem_append.mp mem with earlier | last
  · exact h b earlier
  · obtain rfl := List.mem_singleton.mp last
    exact decides

theorem Unbuilt.concat (h : Unbuilt as) (other : a.change ≠ .assembled) :
    Unbuilt (as ++ [a]) := by
  intro b mem
  rcases List.mem_append.mp mem with earlier | last
  · exact h b earlier
  · obtain rfl := List.mem_singleton.mp last
    exact other

/-- One more change carries the course on. -/
theorem Course.attempt (pending : o.status = .pendingPayment) (h : Course o as o')
    (a : Attempt) : Course o (as ++ [a]) (o'.attempt a) := by
  obtain ⟨c, now⟩ := a
  cases h with
  | waiting undecided =>
    cases c with
    | paid t m =>
      have applied : o.apply (.paid t m) now = .ok _ :=
        apply_of_canBecome (canBecome_of_pending pending (.paid t m)) now
      rw [attempt_of_ok applied]
      exact .paid undecided (by simp [Unbuilt])
    | assembled =>
      rw [attempt_of_not_canBecome (canBecome_of_pending pending .assembled)]
      exact .waiting (undecided.concat rfl)
    | cancelled =>
      have applied : o.apply .cancelled now = .ok _ :=
        apply_of_canBecome (canBecome_of_pending pending .cancelled) now
      rw [attempt_of_ok applied]
      exact .cancelled undecided
  | cancelled undecided =>
    rw [attempt_of_not_canBecome (canBecome_of_isFinal rfl _), List.append_assoc, List.cons_append]
    exact .cancelled undecided
  | @paid before rest t m paidAt undecided unbuilt =>
    rw [List.append_assoc, List.cons_append]
    by_cases build : c = .assembled
    · subst build
      have applied := apply_of_canBecome (o := { o with
        transaction := some t, method := some m, status := .paid, updatedAt := paidAt })
        (c := .assembled) rfl now
      rw [attempt_of_ok applied]
      exact .assembled undecided unbuilt
    · rw [attempt_of_not_canBecome]
      · exact .paid undecided (unbuilt.concat build)
      · rw [Bool.eq_false_iff]
        intro allowed
        exact build ((canBecome_of_paid rfl c).mp allowed)
  | assembled undecided unbuilt =>
    rw [attempt_of_not_canBecome (canBecome_of_isFinal rfl _), List.append_assoc, List.cons_append,
      List.append_assoc, List.cons_append]
    exact .assembled undecided unbuilt

theorem course_after (pending : o.status = .pendingPayment) (as : List Attempt) :
    Course o as (o.after as) := by
  induction as using List.reverseRecOn with
  | nil => exact .waiting (by simp [Undecided])
  | append_singleton as a ih =>
    rw [after_append]
    exact ih.attempt pending a

/-- What the status allows is what counts. -/
theorem canBecome_iff_counts (pending : o.status = .pendingPayment) (before : List Attempt)
    (c : Change) : (o.after before).status.canBecome c.target = true ↔ Counts before c := by
  constructor
  · intro allowed
    have course := course_after pending before
    generalize o.after before = o' at course allowed
    cases course with
    | waiting undecided =>
      rw [canBecome_of_pending pending] at allowed
      exact .deciding undecided allowed
    | cancelled undecided =>
      rw [canBecome_of_isFinal rfl] at allowed
      cases allowed
    | paid undecided unbuilt =>
      obtain rfl := (canBecome_of_paid rfl c).mp allowed
      exact .building undecided unbuilt
    | assembled undecided unbuilt =>
      rw [canBecome_of_isFinal rfl] at allowed
      cases allowed
  · intro counts
    cases counts with
    | deciding undecided decides =>
      rw [after_undecided pending undecided, canBecome_of_pending pending]
      exact decides
    | @building earlier between t m paidAt undecided unbuilt =>
      have applied : o.apply (.paid t m) paidAt = .ok _ :=
        apply_of_canBecome (canBecome_of_pending pending (.paid t m)) paidAt
      rw [after_append, after_undecided pending undecided, after_cons, attempt_of_ok applied,
        after_unbuilt rfl unbuilt]
      rfl

/-- What a list of changes, tried in turn, does to an order. -/
structure History (o : Order) (as : List Attempt) : Prop where
  course : Course o as (o.after as)
  /-- A change is accepted exactly if it is the first payment or cancellation, or the first
  assembly after the payment. -/
  accepted : ∀ before a rest, as = before ++ a :: rest →
    ((∃ o', (o.after before).apply a.change a.time = .ok o' ∧ o.after (before ++ [a]) = o') ↔
      Counts before a.change)
  /-- Any other change names both statuses and leaves all as it was. -/
  refused : ∀ before a rest, as = before ++ a :: rest → ¬ Counts before a.change →
    (o.after before).apply a.change a.time =
        .error (.transition (o.after before).status a.change.target) ∧
      o.after (before ++ [a]) = o.after before
  kept : ∀ before rest, as = before ++ rest →
    (o.after before).id = o.id ∧ (o.after before).user = o.user ∧
      (o.after before).parts = o.parts ∧ (o.after before).total = o.total ∧
      (o.after before).createdAt = o.createdAt

/-- The whole history of a new order, for any list of changes at any times. -/
theorem fresh_history (id : OrderId) (user : UserId) (parts : List PartId) (total : Money)
    (method : Option PaymentMethod) (created : Instant) (as : List Attempt) :
    (fresh id user parts total method created).History as := by
  have pending : (fresh id user parts total method created).status = .pendingPayment := rfl
  generalize fresh id user parts total method created = o at pending
  refine ⟨course_after pending as, ?_, ?_, ?_⟩
  · intro before a rest split
    rw [← canBecome_iff_counts pending]
    constructor
    · rintro ⟨o', applied, -⟩
      exact (apply_ok applied).1
    · intro allowed
      have applied := apply_of_canBecome allowed a.time
      refine ⟨_, applied, ?_⟩
      rw [after_append, after_cons, attempt_of_ok applied, after_nil]
  · intro before a rest split other
    have refused : (o.after before).status.canBecome a.change.target = false := by
      rw [Bool.eq_false_iff]
      intro allowed
      exact other ((canBecome_iff_counts pending before a.change).mp allowed)
    constructor
    · exact apply_of_not_canBecome refused a.time
    · rw [after_append, after_cons, attempt_of_not_canBecome refused, after_nil]
  · intro before rest split
    have older := o.precedes_after before
    exact ⟨older.id, older.user, older.parts, older.total, older.createdAt⟩

end Shipyard.Order

import Shipyard.Fulfilment.BuildCompletion
import Shipyard.Fulfilment.Cancellation
import Shipyard.Fulfilment.Payment
import Shipyard.Proofs.Lifecycle
import Shipyard.Proofs.Trace

/-!
# The courses of the order operations

All that a payment, a cancellation or the completion of a build may have met with, and what it is
about to do next. A course has one case for each cut of the operation; nothing is said about the
continuations, which the next case speaks of.
-/

namespace Shipyard.Fulfilment

variable {id : OrderId} {method : PaymentMethod}

/-- The charge that a payment asks for after it has read the order. -/
def chargeOf (o : Order) (u : Uuid) (method : PaymentMethod) : Charge :=
  ⟨⟨u⟩, o.id, o.user, method, o.total⟩

/-- The event that a payment announces. -/
def payment (event : Uuid) (o : Order) (method : PaymentMethod) (t : TransactionId) :
    PaymentCompleted :=
  ⟨⟨event⟩, o.id, o.user, method, t⟩

/-- From the beginning of a payment up to its charge. -/
def toCharge (id : OrderId) (method : PaymentMethod) (o : Order) (now : Nat) (u : Uuid) : Trace :=
  [.reply (.readOrder id) (.ok (some o)), .reply .clock now, .reply .mint u,
    .reply (.charge (chargeOf o u method)) (.ok ())]

/-- After the order was marked as paid. -/
inductive Announcing (method : PaymentMethod) (t : TransactionId) (o : Order) :
    Trace → Job (Except Error TransactionId) → Prop
  | marked (k) : Announcing method t o [] (.ask (.count (.orders .paid) 1) k)
  | counted (k) : Announcing method t o [.reply (.count (.orders .paid) 1) ()]
      (.ask (.count (.revenue method) (revenue o.total)) k)
  | earned (k) : Announcing method t o
      [.reply (.count (.orders .paid) 1) (),
        .reply (.count (.revenue method) (revenue o.total)) ()] (.ask .mint k)
  | named (u : Uuid) (k) : Announcing method t o
      [.reply (.count (.orders .paid) 1) (),
        .reply (.count (.revenue method) (revenue o.total)) (), .reply .mint u]
      (.ask (.publish .paid o.id.text (Event.payment (payment u o method t)).encode) k)
  | announced (u : Uuid) (p : Bus.Position) : Announcing method t o
      [.reply (.count (.orders .paid) 1) (),
        .reply (.count (.revenue method) (revenue o.total)) (), .reply .mint u,
        .reply (.publish .paid o.id.text (Event.payment (payment u o method t)).encode) (.ok p)]
      (.done (.ok t))
  | failed (u : Uuid) (e : Bus.Error) (k) : Announcing method t o
      [.reply (.count (.orders .paid) 1) (),
        .reply (.count (.revenue method) (revenue o.total)) (), .reply .mint u,
        .reply (.publish .paid o.id.text (Event.payment (payment u o method t)).encode) (.error e)]
      (.ask (.count (.publishFailures .paid) 1) k)
  | unannounced (u : Uuid) (e : Bus.Error) : Announcing method t o
      [.reply (.count (.orders .paid) 1) (),
        .reply (.count (.revenue method) (revenue o.total)) (), .reply .mint u,
        .reply (.publish .paid o.id.text (Event.payment (payment u o method t)).encode) (.error e),
        .reply (.count (.publishFailures .paid) 1) ()]
      (.done (.ok t))

theorem paid_course {t : TransactionId} {o : Order} {tr : Trace}
    {j : Job (Except Error TransactionId)} (h : (paid method t o).After tr j) :
    Announcing method t o tr j := by
  rcases Job.after_ask_iff.mp h with ⟨rfl, rfl⟩ | ⟨⟨⟩, tr, rfl, h₁⟩
  · exact .marked _
  rcases Job.after_ask_iff.mp h₁ with ⟨rfl, rfl⟩ | ⟨⟨⟩, tr, rfl, h₂⟩
  · exact .counted _
  rcases Job.after_ask_iff.mp h₂ with ⟨rfl, rfl⟩ | ⟨u, tr, rfl, h₃⟩
  · exact .earned _
  rcases Job.after_ask_iff.mp h₃ with ⟨rfl, rfl⟩ | ⟨x, tr, rfl, h₄⟩
  · exact .named u _
  cases x with
  | ok p =>
    obtain ⟨rfl, rfl⟩ := Job.after_done_iff.mp h₄
    exact .announced u p
  | error e =>
    rcases Job.after_ask_iff.mp h₄ with ⟨rfl, rfl⟩ | ⟨⟨⟩, tr, rfl, h₅⟩
    · exact .failed u e _
    · obtain ⟨rfl, rfl⟩ := Job.after_done_iff.mp h₅
      exact .unannounced u e

/-- A payment from its beginning on. -/
inductive Paying (id : OrderId) (method : PaymentMethod) :
    Trace → Job (Except Error TransactionId) → Prop
  | begun (k) : Paying id method [] (.ask (.readOrder id) k)
  | refused (x) (e : Error) : Paying id method [.reply (.readOrder id) x] (.done (.error e))
  | found (o : Order) (k) : Paying id method [.reply (.readOrder id) (.ok (some o))] (.ask .clock k)
  | timed (o : Order) (now : Nat) (k) : Paying id method
      [.reply (.readOrder id) (.ok (some o)), .reply .clock now] (.ask .mint k)
  | named (o : Order) (now : Nat) (u : Uuid) (k) : Paying id method
      [.reply (.readOrder id) (.ok (some o)), .reply .clock now, .reply .mint u]
      (.ask (.charge (chargeOf o u method)) k)
  | declined (o : Order) (now : Nat) (u : Uuid) (e : ServiceError) (e' : Error) : Paying id method
      [.reply (.readOrder id) (.ok (some o)), .reply .clock now, .reply .mint u,
        .reply (.charge (chargeOf o u method)) (.error e)] (.done (.error e'))
  /-- The amount of the charge has no text. -/
  | aborted (o : Order) (now : Nat) (u : Uuid) (f : Fault) (unspeakable : o.total.text = .error f) :
      Paying id method (toCharge id method o now u) (.fault f)
  | charged (o : Order) (now : Nat) (u : Uuid) (k) : Paying id method (toCharge id method o now u)
      (.ask (.changeOrder id .pendingPayment (.paid ⟨u⟩ method)) k)
  | lost (o : Order) (now : Nat) (u : Uuid) (e : Store.Error) : Paying id method
      (toCharge id method o now u ++
        [.reply (.changeOrder id .pendingPayment (.paid ⟨u⟩ method)) (.error e)])
      (.done (.error (payError id e)))
  | won (o : Order) (now : Nat) (u : Uuid) (o' : Order) {tr} {j}
      (rest : Announcing method ⟨u⟩ o' tr j) : Paying id method
      (toCharge id method o now u ++
        .reply (.changeOrder id .pendingPayment (.paid ⟨u⟩ method)) (.ok o') :: tr) j

theorem charged_course {o : Order} {now : Nat} {u : Uuid} {tr : Trace}
    {j : Job (Except Error TransactionId)} (h : (charged .direct id method ⟨u⟩).After tr j) :
    Paying id method (toCharge id method o now u ++ tr) j := by
  rcases Job.after_ask_iff.mp h with ⟨rfl, rfl⟩ | ⟨x, tr, rfl, h₁⟩
  · exact .charged o now u _
  cases x with
  | error e =>
    obtain ⟨rfl, rfl⟩ := Job.after_done_iff.mp h₁
    exact .lost o now u e
  | ok o' => exact .won o now u o' (paid_course h₁)

theorem payable_course {deadline : Span} {o : Order} {tr : Trace}
    {j : Job (Except Error TransactionId)} (h : (payable .direct deadline id method o).After tr j) :
    Paying id method (.reply (.readOrder id) (.ok (some o)) :: tr) j := by
  rw [payable] at h
  split at h
  · rcases Job.after_ask_iff.mp h with ⟨rfl, rfl⟩ | ⟨now, tr, rfl, h₁⟩
    · exact .found o _
    rcases Job.after_ask_iff.mp h₁ with ⟨rfl, rfl⟩ | ⟨u, tr, rfl, h₂⟩
    · exact .timed o now _
    rcases Job.after_ask_iff.mp h₂ with ⟨rfl, rfl⟩ | ⟨x, tr, rfl, h₃⟩
    · exact .named o now u _
    cases x with
    | error e =>
      obtain ⟨rfl, rfl⟩ := Job.after_done_iff.mp h₃
      exact .declined o now u e _
    | ok x =>
      cases text : o.total.text with
      | error f =>
        simp only [text] at h₃
        obtain ⟨rfl, rfl⟩ := Job.after_fault_iff.mp h₃
        exact .aborted o now u f text
      | ok s =>
        simp only [text] at h₃
        exact charged_course h₃
  · obtain ⟨rfl, rfl⟩ := Job.after_done_iff.mp h
    exact .refused _ _

theorem pay_course {deadline : Span} {tr : Trace} {j : Job (Except Error TransactionId)}
    (h : (pay .direct deadline id method).After tr j) : Paying id method tr j := by
  rcases Job.after_ask_iff.mp h with ⟨rfl, rfl⟩ | ⟨x, tr, rfl, h₁⟩
  · exact .begun _
  match x with
  | .error e =>
    obtain ⟨rfl, rfl⟩ := Job.after_done_iff.mp h₁
    exact .refused _ _
  | .ok none =>
    obtain ⟨rfl, rfl⟩ := Job.after_done_iff.mp h₁
    exact .refused _ _
  | .ok (some o) => exact payable_course h₁

inductive Cancelling (id : OrderId) : Trace → Job (Except Error Unit) → Prop
  | begun (k) : Cancelling id [] (.ask (.changeOrder id .pendingPayment .cancelled) k)
  | refused (e : Store.Error) : Cancelling id
      [.reply (.changeOrder id .pendingPayment .cancelled) (.error e)]
      (.done (.error (cancelError id e)))
  | changed (o : Order) (k) : Cancelling id
      [.reply (.changeOrder id .pendingPayment .cancelled) (.ok o)]
      (.ask (.count (.orders .cancelled) 1) k)
  | cancelled (o : Order) : Cancelling id
      [.reply (.changeOrder id .pendingPayment .cancelled) (.ok o),
        .reply (.count (.orders .cancelled) 1) ()] (.done (.ok ()))

theorem cancel_course {tr : Trace} {j : Job (Except Error Unit)}
    (h : (cancel .direct id).After tr j) : Cancelling id tr j := by
  rcases Job.after_ask_iff.mp h with ⟨rfl, rfl⟩ | ⟨x, tr, rfl, h₁⟩
  · exact .begun _
  cases x with
  | error e =>
    obtain ⟨rfl, rfl⟩ := Job.after_done_iff.mp h₁
    exact .refused e
  | ok o =>
    rcases Job.after_ask_iff.mp h₁ with ⟨rfl, rfl⟩ | ⟨⟨⟩, tr, rfl, h₂⟩
    · exact .changed o _
    · obtain ⟨rfl, rfl⟩ := Job.after_done_iff.mp h₂
      exact .cancelled o

inductive Completing (id : OrderId) : Trace → Job (Except HandlerError BuildOutcome) → Prop
  | begun (k) : Completing id [] (.ask (.readOrder id) k)
  | unread (e : Store.Error) : Completing id [.reply (.readOrder id) (.error e)]
      (.done (.error (.failed e.message)))
  | absent : Completing id [.reply (.readOrder id) (.ok none)] (.done (.ok .skipped))
  | duplicate (o : Order) (assembled : o.status = .assembled) :
      Completing id [.reply (.readOrder id) (.ok (some o))] (.done (.ok .duplicate))
  | unsettled (o : Order) (unsettled : o.status.isSettled = false) :
      Completing id [.reply (.readOrder id) (.ok (some o))] (.done (.ok .skipped))
  | paid (o : Order) (paid : o.status = .paid) (k) :
      Completing id [.reply (.readOrder id) (.ok (some o))]
        (.ask (.changeOrder id .paid .assembled) k)
  | refused (o : Order) (paid : o.status = .paid) (e : Store.Error) : Completing id
      [.reply (.readOrder id) (.ok (some o)),
        .reply (.changeOrder id .paid .assembled) (.error e)] (.done (unassembled e))
  | changed (o : Order) (paid : o.status = .paid) (o' : Order) (k) : Completing id
      [.reply (.readOrder id) (.ok (some o)), .reply (.changeOrder id .paid .assembled) (.ok o')]
      (.ask (.count (.orders .assembled) 1) k)
  | assembled (o : Order) (paid : o.status = .paid) (o' : Order) : Completing id
      [.reply (.readOrder id) (.ok (some o)), .reply (.changeOrder id .paid .assembled) (.ok o'),
        .reply (.count (.orders .assembled) 1) ()] (.done (.ok .assembled))

theorem complete_course {b : BuildCompleted} {tr : Trace}
    {j : Job (Except HandlerError BuildOutcome)} (h : (completeBuild .direct b).After tr j) :
    Completing b.order tr j := by
  rcases Job.after_ask_iff.mp h with ⟨rfl, rfl⟩ | ⟨x, tr, rfl, h₁⟩
  · exact .begun _
  match x with
  | .error e =>
    obtain ⟨rfl, rfl⟩ := Job.after_done_iff.mp h₁
    exact .unread e
  | .ok none =>
    obtain ⟨rfl, rfl⟩ := Job.after_done_iff.mp h₁
    exact .absent
  | .ok (some o) =>
    cases status : o.status with
    | assembled =>
      simp only [status] at h₁
      obtain ⟨rfl, rfl⟩ := Job.after_done_iff.mp h₁
      exact .duplicate o status
    | pendingPayment =>
      simp only [status] at h₁
      obtain ⟨rfl, rfl⟩ := Job.after_done_iff.mp h₁
      exact .unsettled o (by simp [status, Order.Status.isSettled])
    | cancelled =>
      simp only [status] at h₁
      obtain ⟨rfl, rfl⟩ := Job.after_done_iff.mp h₁
      exact .unsettled o (by simp [status, Order.Status.isSettled])
    | paid =>
      simp only [status] at h₁
      rcases Job.after_ask_iff.mp h₁ with ⟨rfl, rfl⟩ | ⟨y, tr, rfl, h₂⟩
      · exact .paid o status _
      cases y with
      | error e =>
        obtain ⟨rfl, rfl⟩ := Job.after_done_iff.mp h₂
        exact .refused o status e
      | ok o' =>
        rcases Job.after_ask_iff.mp h₂ with ⟨rfl, rfl⟩ | ⟨⟨⟩, tr, rfl, h₃⟩
        · exact .changed o status o' _
        · obtain ⟨rfl, rfl⟩ := Job.after_done_iff.mp h₃
          exact .assembled o status o'

end Shipyard.Fulfilment

import Shipyard.Event.Wire
import Shipyard.Fulfilment.Intake

/-!
# Paying orders

An order is read, charged and marked as paid, in this order; then the payment is announced. The
mark is a conditional change, so of several payments in flight one wins. A charge that loses is
not taken back. An announcement that fails is counted and does not undo the payment.
-/

namespace Shipyard.Fulfilment

/-- Publishes an event. -/
def announce (e : Event) : Job Unit :=
  .ask (.publish e.topic e.key e.encode) fun
    | .ok _ => .done ()
    | .error _ => .ask (.count (.publishFailures e.topic) 1) .done

/-- The cents that a payment adds to the revenue. -/
def revenue (amount : Money) : Nat := amount.cents.toNat

/-- After the order was marked as paid. -/
def paid (method : PaymentMethod) (t : TransactionId) (o : Order) :
    Job (Except Error TransactionId) :=
  .ask (.count (.orders .paid) 1) fun _ =>
    .ask (.count (.revenue method) (revenue o.total)) fun _ =>
      .ask .mint fun u =>
        (announce (.payment ⟨⟨u⟩, o.id, o.user, method, t⟩)).bind fun _ => .done (.ok t)

def payError (id : OrderId) : Store.Error → Error
  | .mismatch _ _ actual => .cannotBePaid id actual
  | .notFound _ => .orderNotFound id
  | e => .store e

/-- After the order was charged. -/
def charged (calls : ServiceCalls) (id : OrderId) (method : PaymentMethod) (t : TransactionId) :
    Job (Except Error TransactionId) :=
  (calls.change id .pendingPayment (.paid t method)).bind fun
    | .error e => .done (.error (payError id e))
    | .ok o => paid method t o

/-- After the order was read. -/
def payable (calls : ServiceCalls) (deadline : Span) (id : OrderId) (method : PaymentMethod)
    (o : Order) : Job (Except Error TransactionId) :=
  if o.status.canPay then
    ((calls.charge o.id o.user method o.total).within deadline
      (.error (.timeout deadline))).bind fun
      | .error e => .done (.error (.paymentFailed e.message))
      | .ok t => charged calls id method t
  else .done (.error (.cannotBePaid id o.status))

def pay (calls : ServiceCalls) (deadline : Span) (id : OrderId) (method : PaymentMethod) :
    Job (Except Error TransactionId) :=
  (load id).bind fun
    | .error e => .done (.error e)
    | .ok o => payable calls deadline id method o

end Shipyard.Fulfilment

import Shipyard.Fulfilment.Error
import Shipyard.ServiceCalls

/-!
# Cancelling orders

An order can be cancelled until it is paid.
-/

namespace Shipyard.Fulfilment

def cancelError (id : OrderId) : Store.Error → Error
  | .notFound _ => .orderNotFound id
  | .mismatch _ _ actual => .cannotBeCancelled id actual
  | e => .store e

def cancel (calls : ServiceCalls) (id : OrderId) : Job (Except Error Unit) :=
  (calls.change id .pendingPayment .cancelled).bind fun
    | .error e => .done (.error (cancelError id e))
    | .ok _ => .ask (.count (.orders .cancelled) 1) fun _ => .done (.ok ())

end Shipyard.Fulfilment

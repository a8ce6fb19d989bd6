import Shipyard.Store

/-!
# Why an order operation failed
-/

namespace Shipyard.Fulfilment

inductive Error
  | noParts
  | partNotFound (part : PartId) (reason : String)
  | outOfStock (part : PartId)
  | orderNotFound (id : OrderId)
  | cannotBePaid (id : OrderId) (status : Order.Status)
  | cannotBeCancelled (id : OrderId) (status : Order.Status)
  | paymentFailed (reason : String)
  | store (cause : Store.Error)
deriving DecidableEq, Repr

def Error.message : Error → String
  | .noParts => "No parts specified"
  | .partNotFound part reason => "Part not found: " ++ part.text ++ " (" ++ reason ++ ")"
  | .outOfStock part => "Part out of stock: " ++ part.text
  | .orderNotFound id => "Order not found: " ++ id.text
  | .cannotBePaid id status =>
    "Order " ++ id.text ++ " cannot be paid in status " ++ status.name
  | .cannotBeCancelled id status =>
    "Order " ++ id.text ++ " cannot be cancelled in status " ++ status.name
  | .paymentFailed reason => "Payment failed: " ++ reason
  | .store cause => "Order store error: " ++ cause.message

end Shipyard.Fulfilment

import Shipyard.Identifiers
import Shipyard.Money

/-!
# Parts

A part of the catalogue. Its quantity is signed; none are left at zero or below.
-/

namespace Shipyard

structure Part where
  id : PartId
  name : String
  price : Money
  quantity : Int
deriving DecidableEq, Repr

def Part.inStock (p : Part) : Bool := 0 < p.quantity

end Shipyard

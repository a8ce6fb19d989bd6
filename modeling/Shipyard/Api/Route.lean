import Shipyard.Text.Percent
import Shipyard.Web.Address

/-!
# Paths of the order API
-/

namespace Shipyard.Api

inductive Route
  | health
  | samples
  | orders
  | order (id : Bytes)
  | pay (id : Bytes)
  | cancel (id : Bytes)
deriving DecidableEq, Repr

namespace Route

/-- A segment as an identifier: its escapes are read. -/
def idOf (segment : String) : Bytes := Text.decodePath (Text.bytes segment)

/-- The route of a target. An empty segment is an identifier, but not at the end of a path. -/
def ofTarget? (target : String) : Option Route :=
  match ((Web.targetPath target).splitOn '/').map String.ofList with
  | ["", "health"] => some .health
  | ["", "metrics"] => some .samples
  | ["", "orders"] => some .orders
  | ["", "orders", id] => if id.isEmpty then none else some (.order (idOf id))
  | ["", "orders", id, "pay"] => some (.pay (idOf id))
  | ["", "orders", id, "cancel"] => some (.cancel (idOf id))
  | _ => none

/-- Whether the route is asked with GET; the others are asked with POST. -/
def isRead : Route → Bool
  | .health => true
  | .samples => true
  | .order _ => true
  | .orders => false
  | .pay _ => false
  | .cancel _ => false

/-- The methods that the route knows, as they are listed to clients. -/
def allowed (r : Route) : String := if r.isRead then "GET,HEAD" else "POST"

def accepts (r : Route) (method : String) : Bool :=
  if r.isRead then method = "GET" || method = "HEAD" else method = "POST"

end Route
end Shipyard.Api

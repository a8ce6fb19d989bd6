import Shipyard.Services
import Shipyard.Store

/-!
# Drills

Misbehaviour of the services that is planned ahead, to rehearse failures. Each call to a service
takes the next entry of its plan; an empty entry, or none, is a call as usual.
-/

namespace Shipyard

namespace Drill

/-- A lookup that is late, or fails, or both. -/
structure Lookup where
  delay : Option Span
  failure : Option ServiceError

/-- A change made behind the back of a caller. -/
structure Interference where
  expected : Order.Status
  change : Order.Change

/-- A charge that is late, or fails, or has something happen right after it. -/
structure Charging where
  delay : Option Span
  failure : Option ServiceError
  after : Option Interference
  /-- Whether writing to the store is switched off or on after the charge. -/
  writesDown : Option Bool

/-- A change of an order that fails, or that another change comes before. -/
inductive Changing
  | failure (e : Store.Error)
  | before (i : Interference)

end Drill

structure Drill where
  lookups : List (Option Drill.Lookup)
  charges : List (Option Drill.Charging)
  changes : List (Option Drill.Changing)

def Drill.empty : Drill := ⟨[], [], []⟩

end Shipyard

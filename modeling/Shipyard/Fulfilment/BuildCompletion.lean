import Shipyard.Consumer
import Shipyard.Event.Wire
import Shipyard.ServiceCalls

/-!
# Completing builds

A paid order whose ship was built becomes assembled. Announcements may come more than once, so an
order that is assembled already is a duplicate and is left alone. Only a failure of the store is
an error.
-/

namespace Shipyard.Fulfilment

inductive BuildOutcome
  | assembled
  | duplicate
  /-- The order is missing, or not to be assembled. -/
  | skipped
deriving DecidableEq, Repr

def BuildOutcome.name : BuildOutcome → String
  | .assembled => "Assembled"
  | .duplicate => "Duplicate"
  | .skipped => "Skipped"

/-- After a change that did not happen. -/
def unassembled : Store.Error → Except HandlerError BuildOutcome
  | .mismatch _ _ .assembled => .ok .duplicate
  | .mismatch _ _ _ => .ok .skipped
  | .notFound _ => .ok .skipped
  | e => .error (.failed e.message)

/-- After the order was read as paid. -/
def assemblePaid (calls : ServiceCalls) (id : OrderId) :
    Job (Except HandlerError BuildOutcome) :=
  (calls.change id .paid .assembled).bind fun
    | .error e => .done (unassembled e)
    | .ok _ => .ask (.count (.orders .assembled) 1) fun _ => .done (.ok .assembled)

def completeBuild (calls : ServiceCalls) (b : BuildCompleted) :
    Job (Except HandlerError BuildOutcome) :=
  .ask (.readOrder b.order) fun
    | .error e => .done (.error (.failed e.message))
    | .ok none => .done (.ok .skipped)
    | .ok (some o) =>
      match o.status with
      | .assembled => .done (.ok .duplicate)
      | .paid => assemblePaid calls b.order
      | _ => .done (.ok .skipped)

/-- A payload that is no event of its topic. -/
def undecodable (r : Event.Refusal) : HandlerError := .undecodable r.message

def buildHandler (calls : ServiceCalls) : Handler := fun _ m _ =>
  match BuildCompleted.decode m.topic m.payload with
  | .error r => .done (.error (undecodable r))
  | .ok b => (completeBuild calls b).bind fun r => .done (r.map fun _ => ())

/-- The group in which the order service reads about builds. -/
def buildGroup : String := "order-service"

end Shipyard.Fulfilment

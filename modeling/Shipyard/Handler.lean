import Shipyard.Job

/-!
# Handlers

A handler is handed records one at a time. If it fails, the record is not done with and will be
handed over again; so a handler may see a record more than once.
-/

namespace Shipyard

/-- Why a record was not handled. -/
inductive HandlerError
  | undecodable (reason : String)
  | cancelled
  | failed (reason : String)
deriving DecidableEq, Repr

def HandlerError.message : HandlerError → String
  | .undecodable r => "Failed to decode message: " ++ r
  | .cancelled => "Message processing was cancelled"
  | .failed r => "Message processing failed: " ++ r

/-- A handler may look at all earlier deliveries, this one included, and at a signal to stop. -/
def Handler : Type := List Delivery → Bus.Message → Option Signal → Job (Except HandlerError Unit)

end Shipyard

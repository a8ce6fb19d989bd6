import Shipyard.Uuid.Reading

/-!
# Names of things

Orders and events are named by identifiers of 128 bits. Users and parts are named elsewhere, by
texts that are not looked into.
-/

namespace Shipyard

structure OrderId where
  uuid : Uuid
deriving DecidableEq, Repr

structure EventId where
  uuid : Uuid
deriving DecidableEq, Repr

/-- The name of one charge. -/
structure TransactionId where
  uuid : Uuid
deriving DecidableEq, Repr

structure UserId where
  text : String
deriving DecidableEq, Repr

structure PartId where
  text : String
deriving DecidableEq, Repr

def OrderId.text (id : OrderId) : String := id.uuid.text

def OrderId.parse (s : String) : Except Uuid.Refusal OrderId := (Uuid.parse s).map OrderId.mk

def EventId.text (id : EventId) : String := id.uuid.text

def TransactionId.text (id : TransactionId) : String := id.uuid.text

end Shipyard

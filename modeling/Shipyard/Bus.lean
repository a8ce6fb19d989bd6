import Shipyard.Bus.Partition
import Shipyard.Table
import Shipyard.Text.Digits
import Shipyard.Topic

/-!
# The event bus

Every topic has the same number of partitions, and a partition is a list of records to which
publishing appends. A consumer group keeps one offset for each partition, the number of records it
is done with; offsets never go back. While the bus is down nothing can be published.
-/

namespace Shipyard

namespace Bus

structure Record where
  key : String
  payload : Bytes
deriving DecidableEq, Repr

structure Position where
  partition : Nat
  offset : Nat
deriving DecidableEq, Repr

/-- A record as it is handed to a consumer. Attempts count from one. -/
structure Message where
  topic : Topic
  partition : Nat
  offset : Nat
  key : String
  payload : Bytes
  attempt : Nat
deriving DecidableEq, Repr

inductive Error
  | unavailable (reason : String)
  | unknownPartition (topic : Topic) (partition : Nat)
  | regression (group : String) (topic : Topic) (partition offset committed : Nat)
deriving DecidableEq, Repr

def Error.message : Error → String
  | .unavailable r => "Broker unavailable: " ++ r
  | .unknownPartition t p =>
    "Unknown partition " ++ Text.decimal p ++ " for topic " ++ t.name
  | .regression g t p o c =>
    "Offset " ++ Text.decimal o ++ " for " ++ g ++ "/" ++ t.name ++ "/" ++ Text.decimal p ++
      " is behind committed offset " ++ Text.decimal c

def delivered (topic : Topic) (partition offset : Nat) (r : Record) : Message :=
  ⟨topic, partition, offset, r.key, r.payload, 1⟩

end Bus

structure Bus where
  partitions : Nat
  positive : 0 < partitions
  logs : Table (Topic × Nat) (List Bus.Record)
  offsets : Table (String × Topic × Nat) Nat
  down : Bool

namespace Bus

/-- An empty bus; it has at least one partition. -/
def empty (partitions : Nat) : Bus := ⟨max 1 partitions, by omega, .empty, .empty, false⟩

def log (b : Bus) (topic : Topic) (partition : Nat) : List Record :=
  (b.logs.find? (topic, partition)).getD []

def offset (b : Bus) (group : String) (topic : Topic) (partition : Nat) : Nat :=
  (b.offsets.find? (group, topic, partition)).getD 0

def append (b : Bus) (topic : Topic) (partition : Nat) (r : Record) : Bus :=
  { b with logs := b.logs.put (topic, partition) (b.log topic partition ++ [r]) }

def publish (b : Bus) (topic : Topic) (key : String) (payload : Bytes) :
    Except Error (Position × Bus) :=
  if b.down then .error (.unavailable "broker is not reachable")
  else
    let p := partitionOf key b.partitions
    .ok (⟨p, (b.log topic p).length⟩, b.append topic p ⟨key, payload⟩)

def known (b : Bus) (topic : Topic) (partition : Nat) : Except Error Unit :=
  if partition < b.partitions then .ok () else .error (.unknownPartition topic partition)

def fetch (b : Bus) (topic : Topic) (partition offset : Nat) : Except Error (Option Message) := do
  b.known topic partition
  .ok ((b.log topic partition)[offset]?.map (delivered topic partition offset))

def committed (b : Bus) (group : String) (topic : Topic) (partition : Nat) : Except Error Nat := do
  b.known topic partition
  .ok (b.offset group topic partition)

def commit (b : Bus) (group : String) (topic : Topic) (partition next : Nat) :
    Except Error Bus := do
  b.known topic partition
  if next < b.offset group topic partition then
    .error (.regression group topic partition next (b.offset group topic partition))
  else .ok { b with offsets := b.offsets.put (group, topic, partition) next }

def setDown (b : Bus) (down : Bool) : Bus := { b with down }

/-- All records of a topic, partition by partition. -/
def messages (b : Bus) (topic : Topic) : List Message :=
  (List.range b.partitions).flatMap fun p =>
    (b.log topic p).mapIdx fun i r => delivered topic p i r

def count (b : Bus) (topic : Topic) : Nat :=
  ((List.range b.partitions).map fun p => (b.log topic p).length).foldr (· + ·) 0

/-- How many records of a topic the group is not done with. -/
def lag (b : Bus) (group : String) (topic : Topic) : Nat :=
  ((List.range b.partitions).map fun p =>
    (b.log topic p).length - b.offset group topic p).foldr (· + ·) 0

theorem log_append (b : Bus) (topic t : Topic) (partition p : Nat) (r : Record) :
    (b.append topic partition r).log t p =
      if topic = t ∧ partition = p then b.log t p ++ [r] else b.log t p := by
  by_cases h : topic = t ∧ partition = p
  · obtain ⟨rfl, rfl⟩ := h
    simp [append, log]
  · rw [if_neg h]
    simp [append, log, Table.find?_put, h]

theorem offset_append (b : Bus) (g : String) (topic t : Topic) (partition p : Nat) (r : Record) :
    (b.append topic partition r).offset g t p = b.offset g t p := rfl

end Bus
end Shipyard

import Shipyard.Text.Utf8

/-!
# Partitions

A key has one partition, by its FNV-1a hash, so that records of one key stay in order.
-/

namespace Shipyard.Bus

def hashByte (hash : UInt64) (b : UInt8) : UInt64 := (hash ^^^ b.toUInt64) * 0x100000001b3

def hash (key : String) : UInt64 := (Text.bytes key).foldl hashByte 0xcbf29ce484222325

def partitionOf (key : String) (count : Nat) : Nat :=
  if count ≤ 1 then 0 else (hash key).toNat % count

theorem partitionOf_lt (key : String) (count : Nat) (h : 0 < count) :
    partitionOf key count < count := by
  unfold partitionOf
  split
  · exact h
  · exact Nat.mod_lt _ h

end Shipyard.Bus

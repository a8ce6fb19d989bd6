import Shipyard.Text.Digits

/-!
# Universally unique identifiers

An identifier is 128 bits. It is written as 32 hexadecimal digits in groups of 8, 4, 4, 4 and 12.
-/

namespace Shipyard

structure Uuid where
  bits : BitVec 128
deriving DecidableEq, Repr

namespace Uuid

/-- The 32 digits to base 16, most significant first. -/
def nibbles (u : Uuid) : List Nat :=
  (List.range 32).map fun i => u.bits.toNat / Nat.pow 16 (31 - i) % 16

def ofNibbles (ds : List Nat) : Uuid :=
  ⟨BitVec.ofNat 128 (ds.foldl (fun n d => 16 * n + d) 0)⟩

/-- Thirty-two characters in groups divided by hyphens. -/
def grouped (cs : List Char) : List Char :=
  cs.take 8 ++ '-' :: (cs.drop 8).take 4 ++ '-' :: (cs.drop 12).take 4 ++
    '-' :: (cs.drop 16).take 4 ++ '-' :: cs.drop 20

def chars (u : Uuid) : List Char := grouped (u.nibbles.map Text.digitChar)

def text (u : Uuid) : String := String.ofList u.chars

end Uuid
end Shipyard

import Shipyard.Text.Digits
import Shipyard.Text.Utf8

/-!
# Percent escapes

A percent sign and two hexadecimal digits stand for one byte. In forms a plus sign stands for a
blank, and an escape that is broken off makes the whole text unreadable; in paths a plus sign is
itself, and so is a broken escape.
-/

namespace Shipyard.Text

/-- The byte of two hexadecimal digits. -/
def hexByte? (a b : UInt8) : Option UInt8 := do
  let high ← hexValue? a
  let low ← hexValue? b
  some (UInt8.ofNat (high * 16 + low))

def decodeForm : Bytes → Option Bytes
  | [] => some []
  | 37 :: a :: b :: rest => do
    let x ← hexByte? a b
    let xs ← decodeForm rest
    some (x :: xs)
  | 37 :: _ => none
  | 43 :: rest => (decodeForm rest).map (32 :: ·)
  | x :: rest => (decodeForm rest).map (x :: ·)

def decodePath : Bytes → Bytes
  | [] => []
  | 37 :: a :: b :: rest =>
    match hexByte? a b with
    | some x => x :: decodePath rest
    | none => 37 :: decodePath (a :: b :: rest)
  | x :: rest => x :: decodePath rest

/-- The text of a form value. -/
def percentDecode? (s : String) : Option String := (decodeForm (bytes s)).bind ofBytes?

end Shipyard.Text

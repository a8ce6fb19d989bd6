/-!
# Texts as bytes

The UTF-8 form of a text, the reading that accepts nothing but that form, and the reading that
puts U+FFFD in the place of every ill-formed run. `ofBytes?_bytes` says that the strict reading
gives back what was written; `bytes_append` that writing goes character by character.
-/

namespace Shipyard

abbrev Bytes := List UInt8

namespace Text

def bytes (s : String) : Bytes :=
  s.toList.flatMap String.utf8EncodeChar

def ofBytes? (bs : Bytes) : Option String :=
  String.fromUTF8? bs.toByteArray

theorem toByteArray_bytes (s : String) : (bytes s).toByteArray = s.toByteArray := by
  simpa [bytes, List.utf8Encode] using String.utf8Encode_toList (b := s)

theorem ofBytes?_bytes (s : String) : ofBytes? (bytes s) = some s := by
  rw [ofBytes?, toByteArray_bytes, String.fromUTF8?, dif_pos s.isValidUTF8]
  rfl

theorem bytes_append (s t : String) : bytes (s ++ t) = bytes s ++ bytes t := by
  simp [bytes]

/-- A byte that may follow the first byte of a longer sequence. -/
def isTail (b : UInt8) : Bool := 0x80 ≤ b && b ≤ 0xBF

/-- Whether the second byte can stand after the first: this excludes overlong forms,
surrogates and everything above U+10FFFF. -/
def pairs (lead second : UInt8) : Bool :=
  if lead = 0xE0 then 0xA0 ≤ second && second ≤ 0xBF
  else if lead = 0xED then 0x80 ≤ second && second ≤ 0x9F
  else if lead = 0xF0 then 0x90 ≤ second && second ≤ 0xBF
  else if lead = 0xF4 then 0x80 ≤ second && second ≤ 0x8F
  else isTail second

/-- How many bytes a sequence with this first byte has. -/
def width (lead : UInt8) : Nat :=
  if lead < 0x80 then 1
  else if 0xC2 ≤ lead && lead ≤ 0xDF then 2
  else if 0xE0 ≤ lead && lead ≤ 0xEF then 3
  else if 0xF0 ≤ lead && lead ≤ 0xF4 then 4
  else 0

def scalar : Bytes → Char
  | [a] => Char.ofNat a.toNat
  | [a, b] => Char.ofNat ((a.toNat % 32) * 64 + b.toNat % 64)
  | [a, b, c] => Char.ofNat (((a.toNat % 16) * 64 + b.toNat % 64) * 64 + c.toNat % 64)
  | [a, b, c, d] =>
    Char.ofNat ((((a.toNat % 8) * 64 + b.toNat % 64) * 64 + c.toNat % 64) * 64 + d.toNat % 64)
  | _ => '\uFFFD'

/-- The next character and how many bytes it takes. An ill-formed run ends where no longer
beginning of a character could go on; it counts as one U+FFFD. -/
def next (lead : UInt8) (rest : Bytes) : Char × Nat :=
  match width lead, rest with
  | 1, _ => (scalar [lead], 1)
  | 2, b :: _ => if isTail b then (scalar [lead, b], 2) else ('\uFFFD', 1)
  | 3, b :: r =>
    if pairs lead b then
      match r with
      | c :: _ => if isTail c then (scalar [lead, b, c], 3) else ('\uFFFD', 2)
      | [] => ('\uFFFD', 2)
    else ('\uFFFD', 1)
  | 4, b :: r =>
    if pairs lead b then
      match r with
      | c :: r =>
        if isTail c then
          match r with
          | d :: _ => if isTail d then (scalar [lead, b, c, d], 4) else ('\uFFFD', 3)
          | [] => ('\uFFFD', 3)
        else ('\uFFFD', 2)
      | [] => ('\uFFFD', 2)
    else ('\uFFFD', 1)
  | _, _ => ('\uFFFD', 1)

/-- Reads any bytes; the number counts bytes that belong to the character before. -/
def lossyFrom : Nat → Bytes → List Char
  | _, [] => []
  | skip + 1, _ :: rest => lossyFrom skip rest
  | 0, lead :: rest =>
    let (c, taken) := next lead rest
    c :: lossyFrom (taken - 1) rest

def lossy (bs : Bytes) : String := String.ofList (lossyFrom 0 bs)

end Text
end Shipyard

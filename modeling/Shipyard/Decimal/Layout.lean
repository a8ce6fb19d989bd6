import Shipyard.Decimal.Shortest
import Shipyard.Text.Digits

/-!
# Writing binary numbers

How the digits of a shortest decimal are laid out. `message` is the layout of numbers in refusal
messages, `sample` that of measured values.
-/

namespace Shipyard.Decimal

structure Layout where
  /-- Least and greatest exponent of the leading digit for which no exponent is written. -/
  positional : Option (Int × Int)
  /-- Whether a whole number still gets one decimal place. -/
  keepsPlace : Bool

def message : Layout := ⟨some (-5, 15), true⟩

def sample : Layout := ⟨none, false⟩

def dropZeros : Nat → Numeral → Numeral
  | 0, d => d
  | n + 1, d => if d.digits % 10 = 0 && d.digits ≠ 0 then
      dropZeros n ⟨d.digits / 10, d.exponent + 1⟩ else d

namespace Layout

def positionalText (l : Layout) (ds : List Char) (exponent : Int) : List Char :=
  let whole := if l.keepsPlace then ['.', '0'] else []
  if 0 ≤ exponent then ds ++ List.replicate exponent.toNat '0' ++ whole
  else
    let places := (-exponent).toNat
    if places < ds.length then
      ds.take (ds.length - places) ++ '.' :: ds.drop (ds.length - places)
    else '0' :: '.' :: List.replicate (places - ds.length) '0' ++ ds

def scientificText (ds : List Char) (leading : Int) : List Char :=
  let tail := ds.drop 1
  let sign := if leading < 0 then '-' else '+'
  ds.take 1 ++ (if tail.isEmpty then [] else '.' :: tail) ++ 'e' :: sign ::
    (Text.decimal leading.natAbs).toList

def decimalText (l : Layout) (d : Numeral) : List Char :=
  let d := dropZeros 400 d
  let ds := (Text.decimal d.digits).toList
  let leading := d.exponent + ds.length - 1
  match l.positional with
  | none => l.positionalText ds d.exponent
  | some (low, high) =>
    if low ≤ leading ∧ leading ≤ high then l.positionalText ds d.exponent
    else scientificText ds leading

/-- The text of a finite number. -/
def numberText (l : Layout) (negative : Bool) (x : Binary) : String :=
  let sign := if negative then ['-'] else []
  if x.isZero then String.ofList (sign ++ (if l.keepsPlace then ['0', '.', '0'] else ['0']))
  else String.ofList (sign ++ l.decimalText (Target.ofBinary x).shortest)

end Layout
end Shipyard.Decimal

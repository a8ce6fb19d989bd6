/-!
# Digits

Decimal and hexadecimal writing of numbers, and the value of a written digit.
-/

namespace Shipyard.Text

def digitChar (n : Nat) : Char :=
  if n < 10 then Char.ofNat (48 + n) else Char.ofNat (87 + n)

/-- The digits of a number, most significant first; zero has one digit. -/
def digits (base n : Nat) : List Nat :=
  if _ : n < base ∨ base < 2 then [n]
  else digits base (n / base) ++ [n % base]
termination_by n
decreasing_by exact Nat.div_lt_self (by omega) (by omega)

def decimal (n : Nat) : String := String.ofList ((digits 10 n).map digitChar)

def hex (n : Nat) : String := String.ofList ((digits 16 n).map digitChar)

def signed (n : Int) : String :=
  if n < 0 then "-" ++ decimal n.natAbs else decimal n.natAbs

/-- At least `width` digits, filled with zeros from the left. -/
def padded (width n : Nat) : String :=
  let ds := (digits 10 n).map digitChar
  String.ofList (List.replicate (width - ds.length) '0' ++ ds)

def isDigit (b : UInt8) : Bool := 48 ≤ b && b ≤ 57

def digitValue (b : UInt8) : Nat := b.toNat - 48

/-- The number that decimal digits write; no digits write zero. -/
def valueOf (digits : List Char) : Nat := digits.foldl (fun n d => 10 * n + (d.toNat - 48)) 0

def hexValue? (b : UInt8) : Option Nat :=
  if 48 ≤ b && b ≤ 57 then some (b.toNat - 48)
  else if 97 ≤ b && b ≤ 102 then some (b.toNat - 87)
  else if 65 ≤ b && b ≤ 70 then some (b.toNat - 55)
  else none

end Shipyard.Text

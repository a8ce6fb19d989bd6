/-!
# Binary numbers of 64 bits

Magnitudes with a significand of 53 bits, by their 63 bits without the sign. Every operation is
the exact result rounded to the nearest number, of two equally near to the one with an even last
bit. A result beyond the greatest number is not finite.
-/

namespace Shipyard

structure Binary where
  bits : Nat
deriving DecidableEq, Repr

namespace Binary

/-- The number of fractions: they are the lower 52 bits, and the exponent stands above them. -/
def fractions : Nat := 0x10000000000000

def isFinite (x : Binary) : Bool := x.bits < 2047 * fractions

def isZero (x : Binary) : Bool := x.bits = 0

/-- A number is `significand * 2 ^ exponent`. -/
def significand (x : Binary) : Nat :=
  if x.bits < fractions then x.bits else x.bits % fractions + fractions

def exponent (x : Binary) : Int :=
  if x.bits < fractions then -1074 else (x.bits / fractions : Nat) - 1075

/-- The quotient, rounded; halves go to the even neighbour. -/
def roundedQuotient (num den : Nat) : Nat :=
  let q := num / den
  let r := 2 * (num % den)
  if den < r ∨ (r = den ∧ q % 2 = 1) then q + 1 else q

/-- The exponent of the last place of a ratio, not below that of the least number. -/
def placeOf (num den : Nat) : Int :=
  let guess : Int := (Nat.log2 num : Int) - Nat.log2 den - 52
  let fits := num * Nat.pow 2 (-guess).toNat < den * Nat.pow 2 guess.toNat * fractions
  max (-1074) (if fits then guess - 1 else guess)

/-- The number nearest to a ratio of natural numbers. -/
def ofRatio (num den : Nat) : Binary :=
  if num = 0 then ⟨0⟩
  else
    let e := placeOf num den
    let q := roundedQuotient (num * Nat.pow 2 (-e).toNat) (den * Nat.pow 2 e.toNat)
    ⟨(e + 1074).toNat * fractions + q⟩

def ofNat (n : Nat) : Binary := ofRatio n 1

def times (x y : Binary) : Binary :=
  let e := x.exponent + y.exponent
  ofRatio (x.significand * y.significand * Nat.pow 2 e.toNat) (Nat.pow 2 (-e).toNat)

def dividedBy (x y : Binary) : Binary :=
  let e := x.exponent - y.exponent
  ofRatio (x.significand * Nat.pow 2 e.toNat) (y.significand * Nat.pow 2 (-e).toNat)

def plus (x y : Binary) : Binary :=
  ofRatio (x.significand * Nat.pow 2 (x.exponent + 1074).toNat +
    y.significand * Nat.pow 2 (y.exponent + 1074).toNat) (Nat.pow 2 1074)

end Binary
end Shipyard

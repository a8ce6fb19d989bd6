import Shipyard.Binary

/-!
# Shortest decimals

The decimal with the fewest digits that reads back to a given binary number, and of several the
nearest to it. All comparisons are exact, in natural numbers.
-/

namespace Shipyard.Decimal

/-- A positive number `significand * 2 ^ exponent`, with the interval of numbers that round to it
in quarters of its last place. -/
structure Target where
  significand : Nat
  exponent : Int
  below : Nat
  above : Nat
  closed : Bool

/-- A decimal `digits * 10 ^ exponent`. -/
structure Numeral where
  digits : Nat
  exponent : Int
deriving DecidableEq, Repr

/-- A finite number other than zero. -/
def Target.ofBinary (x : Binary) : Target :=
  { significand := x.significand
    exponent := x.exponent
    below := if x.bits % Binary.fractions = 0 ∧ 2 * Binary.fractions ≤ x.bits then 1 else 2
    above := 2
    closed := x.significand % 2 = 0 }

namespace Target

/-- Numerator of a number of quarters over the common denominator. -/
def scaled (b : Target) (quarters : Nat) : Nat := quarters * Nat.pow 2 (b.exponent - 2).toNat

def denominator (b : Target) : Nat := Nat.pow 2 (2 - b.exponent).toNat

/-- Whether `d * 10 ^ k` rounds to the number. -/
def covers (b : Target) (k : Int) (d : Nat) : Bool :=
  let value := d * Nat.pow 10 k.toNat * b.denominator
  let low := b.scaled (4 * b.significand - b.below) * Nat.pow 10 (-k).toNat
  let high := b.scaled (4 * b.significand + b.above) * Nat.pow 10 (-k).toNat
  if b.closed then low ≤ value && value ≤ high else low < value && value < high

/-- The largest `d` with `d * 10 ^ k` not above the number, and twice what is missing compared
with one step of the grid. -/
def floorOn (b : Target) (k : Int) : Nat × Ordering :=
  let value := b.scaled (4 * b.significand) * Nat.pow 10 (-k).toNat
  let step := Nat.pow 10 k.toNat * b.denominator
  (value / step, compare (2 * (value % step)) step)

/-- The point of the grid of `10 ^ k` to take, if one of the two neighbours of the number rounds
to it: the nearer, and the even one when both are equally near. -/
def onGrid (b : Target) (k : Int) : Option Nat :=
  let (d, rest) := b.floorOn k
  match b.covers k d, b.covers k (d + 1) with
  | true, false => some d
  | false, true => some (d + 1)
  | false, false => none
  | true, true =>
    match rest with
    | .lt => some d
    | .gt => some (d + 1)
    | .eq => some (if d % 2 = 0 then d else d + 1)

/-- The decimal exponent of the leading digit, searched upwards from the least there is. -/
def leading (b : Target) : Nat → Int → Int
  | 0, k => k
  | n + 1, k => if (b.floorOn (k + 1)).1 = 0 then k else leading b n (k + 1)

def firstHit (b : Target) (top : Int) : Nat → Nat → Numeral
  | 0, _ => ⟨0, 0⟩
  | n + 1, count =>
    let k := top + 1 - count
    match b.onGrid k with
    | some d => ⟨d, k⟩
    | none => firstHit b top n (count + 1)

def shortest (b : Target) : Numeral := b.firstHit (b.leading 700 (-330)) 20 1

end Target
end Shipyard.Decimal

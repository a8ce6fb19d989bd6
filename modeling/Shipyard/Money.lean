import Shipyard.Fault
import Shipyard.Text.Digits

/-!
# Money

An amount in cents, counted in 64 bits with a sign. A sum that leaves the range is a fault. So is
the remainder of the least amount, because its magnitude is out of range; no other amount is
without a text.
-/

namespace Shipyard

structure Money where
  cents : Int
  inRange : -0x8000000000000000 ≤ cents ∧ cents < 0x8000000000000000 := by omega
deriving DecidableEq, Repr

namespace Money

def zero : Money := ⟨0, by omega⟩

def ofInt? (n : Int) : Option Money :=
  if h : -0x8000000000000000 ≤ n ∧ n < 0x8000000000000000 then some ⟨n, h⟩ else none

def add (a b : Money) : Except Fault Money :=
  match ofInt? (a.cents + b.cents) with
  | some m => .ok m
  | none => .error .addition

/-- Adds up from the left. -/
def sum (ms : List Money) : Except Fault Money := ms.foldlM add zero

def isZero (m : Money) : Bool := m.cents = 0

/-- The whole units, towards zero. -/
def units (m : Money) : Int := m.cents.tdiv 100

/-- The cents left over by the whole units. -/
def remainder (m : Money) : Except Fault Nat :=
  if m.cents = -0x8000000000000000 then .error .negation else .ok (m.cents.natAbs % 100)

def text (m : Money) : Except Fault String := do
  let cents ← m.remainder
  let sign := if m.cents < 0 then "-" else ""
  .ok (sign ++ Text.decimal m.units.natAbs ++ "." ++ Text.padded 2 cents)

end Money
end Shipyard

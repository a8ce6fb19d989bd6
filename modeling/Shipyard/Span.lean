import Shipyard.Binary
import Shipyard.Fault
import Shipyard.Text.Digits

/-!
# Spans of time

A length of time in nanoseconds, at most `Span.longest`. Its text takes the largest unit that gives
a whole part, and the exact fraction.
-/

namespace Shipyard

structure Span where
  nanos : Nat
deriving DecidableEq, Repr

namespace Span

/-- Seconds are counted in 64 bits. -/
def longest : Nat := 18446744073709551615999999999

def ofMillis (n : Nat) : Span := ⟨n * 1000000⟩

def ofSeconds (n : Nat) : Span := ⟨n * 1000000000⟩

def wholeSeconds (s : Span) : Nat := s.nanos / 1000000000

def double (s : Span) : Except Fault Span :=
  if 2 * s.nanos ≤ longest then .ok ⟨2 * s.nanos⟩ else .error .spanProduct

/-- A multiple, no longer than the longest span. -/
def timesCapped (s : Span) (n : Nat) : Span := ⟨min (s.nanos * n) longest⟩

def shorter (s t : Span) : Span := if t.nanos < s.nanos then t else s

/-- A number of nanoseconds in a unit of `10 ^ places` nanoseconds. -/
def inUnit (nanos places : Nat) : String :=
  let whole := nanos / Nat.pow 10 places
  let rest := nanos % Nat.pow 10 places
  if rest = 0 then Text.decimal whole
  else
    let fraction := ((Text.padded places rest).toList.reverse.dropWhile (· == '0')).reverse
    Text.decimal whole ++ "." ++ String.ofList fraction

def text (s : Span) : String :=
  if 1000000000 ≤ s.nanos then inUnit s.nanos 9 ++ "s"
  else if 1000000 ≤ s.nanos then inUnit s.nanos 6 ++ "ms"
  else if 1000 ≤ s.nanos then inUnit s.nanos 3 ++ "µs"
  else inUnit s.nanos 0 ++ "ns"

/-- The span as a number of seconds: whole seconds and the rest are rounded apart. -/
def toSeconds (s : Span) : Binary :=
  (Binary.ofNat (s.nanos / 1000000000)).plus
    ((Binary.ofNat (s.nanos % 1000000000)).dividedBy (Binary.ofNat 1000000000))

end Span
end Shipyard

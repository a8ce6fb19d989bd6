import Shipyard.Fault
import Shipyard.Text.Digits

/-!
# Instants

A moment in universal time: a day, a second of that day, and nanoseconds. Nanoseconds from one
second on belong to a leap second, which is written as second 60. Texts follow RFC 3339.
-/

namespace Shipyard

structure Instant where
  /-- Days since 1970-01-01. -/
  day : Int
  second : Nat
  nano : Nat
deriving DecidableEq, Repr

namespace Instant

def before (a b : Instant) : Bool :=
  if a.day = b.day then
    if a.second = b.second then a.nano < b.nano else a.second < b.second
  else a.day < b.day

/-- The later instant by a number of seconds. -/
def plusSeconds (i : Instant) (n : Int) : Instant :=
  let total := i.day * 86400 + i.second + n
  ⟨Int.fdiv total 86400, (Int.fmod total 86400).toNat, i.nano⟩

def isLeap (year : Int) : Bool :=
  Int.fmod year 4 == 0 && (Int.fmod year 100 != 0 || Int.fmod year 400 == 0)

def monthLength (year : Int) (month : Nat) : Nat :=
  if month = 2 then if isLeap year then 29 else 28
  else if month = 4 ∨ month = 6 ∨ month = 9 ∨ month = 11 then 30
  else 31

/-- Day number of a date of the proleptic Gregorian calendar. Years are counted from March, so
that the leap day ends a year. -/
def dayOfDate (year : Int) (month date : Nat) : Int :=
  let y := if month ≤ 2 then year - 1 else year
  let era := Int.fdiv y 400
  let ofEra := Int.fmod y 400
  let shifted := (month + 9) % 12
  let ofYear := (153 * shifted + 2) / 5 + date - 1
  era * 146097 + ofEra * 365 + Int.fdiv ofEra 4 - Int.fdiv ofEra 100 + ofYear - 719468

def dateOfDay (day : Int) : Int × Nat × Nat :=
  let z := day + 719468
  let era := Int.fdiv z 146097
  let ofEra := (Int.fmod z 146097).toNat
  let year := (ofEra - ofEra / 1460 + ofEra / 36524 - ofEra / 146096) / 365
  let ofYear := ofEra - (365 * year + year / 4 - year / 100)
  let shifted := (5 * ofYear + 2) / 153
  let date := ofYear - (153 * shifted + 2) / 5 + 1
  let month := if shifted < 10 then shifted + 3 else shifted - 9
  (era * 400 + year + (if month ≤ 2 then 1 else 0), month, date)

def year (i : Instant) : Int := (dateOfDay i.day).1

/-- The years that are counted. -/
def firstYear : Int := -262143

def lastYear : Int := 262142

def isCounted (i : Instant) : Bool := firstYear ≤ i.year && i.year ≤ lastYear

/-- The longest way to another instant, in seconds: its milliseconds are counted in 64 bits with a
sign. -/
def farthest : Nat := 9223372036854775

/-- The instant some seconds later, or earlier if their number is negative. -/
def later (i : Instant) (seconds : Int) : Except Fault Instant :=
  if farthest < seconds.natAbs then .error .spanRange
  else if (i.plusSeconds seconds).isCounted then .ok (i.plusSeconds seconds)
  else .error .instant

/-- Years from 0 to 9999 have four digits, others a sign and at least four. -/
def yearText (y : Int) : String :=
  if 0 ≤ y ∧ y ≤ 9999 then Text.padded 4 y.toNat
  else (if y < 0 then "-" else "+") ++ Text.padded 4 y.natAbs

/-- No fraction, or 3, 6 or 9 digits, whichever is exact. -/
def fractionText (nano : Nat) : String :=
  if nano = 0 then ""
  else if nano % 1000000 = 0 then "." ++ Text.padded 3 (nano / 1000000)
  else if nano % 1000 = 0 then "." ++ Text.padded 6 (nano / 1000)
  else "." ++ Text.padded 9 nano

def localText (i : Instant) : String :=
  let (y, m, d) := dateOfDay i.day
  let (extra, nano) := if 1000000000 ≤ i.nano then (1, i.nano - 1000000000) else (0, i.nano)
  yearText y ++ "-" ++ Text.padded 2 m ++ "-" ++ Text.padded 2 d ++ "T" ++
    Text.padded 2 (i.second / 3600) ++ ":" ++ Text.padded 2 (i.second / 60 % 60) ++ ":" ++
    Text.padded 2 (i.second % 60 + extra) ++ fractionText nano

/-- The text with the mark of universal time. -/
def text (i : Instant) : String := i.localText ++ "Z"

/-- The text with the offset written in numbers. -/
def offsetText (i : Instant) : String := i.localText ++ "+00:00"

end Instant
end Shipyard

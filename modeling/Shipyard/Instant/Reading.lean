import Shipyard.Instant
import Shipyard.Text.Blank

/-!
# Reading instants

RFC 3339 with some room: blanks may stand before a number and around a separator, a blank or either
case of `T` parts date from time, and the offset is `Z`, `UTC` or a signed number of hours and
minutes. The offset is required.
-/

namespace Shipyard.Instant

inductive Refusal
  | endsEarly
  | unexpected
  | outOfRange
  | endsLate
  | impossible
deriving DecidableEq, Repr

def Refusal.message : Refusal → String
  | .endsEarly => "premature end of input"
  | .unexpected => "input contains invalid characters"
  | .outOfRange => "input is out of range"
  | .endsLate => "trailing input"
  | .impossible => "no possible date and time matching input"

/-- Reads at most `most` more digits onto `value`; numbers have to stay below 2 ^ 63. -/
def digitsOnto (value : Nat) : Nat → List Char → Except Refusal (Nat × List Char)
  | 0, cs => .ok (value, cs)
  | _ + 1, [] => .ok (value, [])
  | most + 1, c :: cs =>
    if c.isDigit then
      let value := 10 * value + (c.toNat - 48)
      if value < 0x8000000000000000 then digitsOnto value most cs else .error .outOfRange
    else .ok (value, c :: cs)

/-- A number of one to `most` digits. -/
def number (most : Nat) : List Char → Except Refusal (Nat × List Char)
  | [] => .error .endsEarly
  | c :: cs => if c.isDigit then digitsOnto 0 most (c :: cs) else .error .unexpected

def field (most low high : Nat) (cs : List Char) : Except Refusal (Nat × List Char) := do
  let (n, rest) ← number most (Text.trimLeft cs)
  if low ≤ n ∧ n ≤ high then .ok (n, rest) else .error .outOfRange

def mark (c : Char) : List Char → Except Refusal (List Char)
  | [] => .error .endsEarly
  | d :: cs => if d = c then .ok cs else .error .unexpected

/-- A separator, possibly after blanks. -/
def separator (c : Char) (cs : List Char) : Except Refusal (List Char) := mark c (Text.trimLeft cs)

/-- A year: four digits at most, any number of them after a sign. -/
def yearField (cs : List Char) : Except Refusal (Int × List Char) := do
  let (n, rest) ← match Text.trimLeft cs with
    | '-' :: cs => (number cs.length cs).map fun (n, rest) => (-(n : Int), rest)
    | '+' :: cs => (number cs.length cs).map fun (n, rest) => ((n : Int), rest)
    | cs => (number 4 cs).map fun (n, rest) => ((n : Int), rest)
  if -0x80000000 ≤ n ∧ n < 0x80000000 then .ok (n, rest) else .error .outOfRange

/-- The fraction of a second; digits after the ninth are passed over. -/
def fraction : List Char → Except Refusal (Nat × List Char)
  | '.' :: cs => do
    let (n, rest) ← number 9 cs
    let taken := cs.length - rest.length
    .ok (n * Nat.pow 10 (9 - taken), rest.dropWhile Char.isDigit)
  | cs => .ok (0, cs)

/-- Two digits. -/
def pair : List Char → Except Refusal (Nat × List Char)
  | [] => .error .endsEarly
  | [a] => .error (if a.toNat < 128 then .endsEarly else .unexpected)
  | a :: b :: rest =>
    if a.isDigit && b.isDigit then .ok (10 * (a.toNat - 48) + (b.toNat - 48), rest)
    else .error .unexpected

/-- Seconds east of universal time. -/
def signedOffset (negative : Bool) (cs : List Char) : Except Refusal (Int × List Char) := do
  let (hours, rest) ← pair cs
  let (minutes, rest) ← pair (rest.dropWhile fun c => c == ':' || Text.isBlank c)
  if 59 < minutes then .error .outOfRange
  else
    let seconds : Int := hours * 3600 + minutes * 60
    .ok (if negative then -seconds else seconds, rest)

def offset (cs : List Char) : Except Refusal (Int × List Char) :=
  match cs with
  | [] => .error .endsEarly
  | c :: rest =>
    if (cs.take 3).map Char.toUpper = ['U', 'T', 'C'] then .ok (0, cs.drop 3)
    else if c = 'Z' ∨ c = 'z' then .ok (0, rest)
    else if c = '+' then signedOffset false rest
    else if c = '-' ∨ c = '\u2212' then signedOffset true rest
    else .error .unexpected

def parse (s : String) : Except Refusal Instant := do
  let (year, cs) ← yearField s.toList
  let cs ← separator '-' cs
  let (month, cs) ← field 2 1 12 cs
  let cs ← separator '-' cs
  let (date, cs) ← field 2 1 31 cs
  let cs ← match cs with
    | [] => .error .endsEarly
    | c :: cs => if c = 'T' ∨ c = 't' ∨ c = ' ' then .ok cs else .error .unexpected
  let (hour, cs) ← field 2 0 23 cs
  let cs ← separator ':' cs
  let (minute, cs) ← field 2 0 59 cs
  let cs ← separator ':' cs
  let (second, cs) ← field 2 0 60 cs
  let (nano, cs) ← fraction cs
  let (east, cs) ← offset (Text.trimLeft cs)
  if (Text.trimLeft cs).isEmpty = false then .error .endsLate
  else if monthLength year month < date ∨ year < firstYear ∨ lastYear < year then .error .outOfRange
  else if east ≤ -86400 ∨ 86400 ≤ east then .error .outOfRange
  else
    let (second, nano) := if second = 60 then (59, nano + 1000000000) else (second, nano)
    let moment : Instant := ⟨dayOfDate year month date, hour * 3600 + minute * 60 + second, nano⟩
    let moment := moment.plusSeconds (-east)
    if moment.isCounted then .ok moment else .error .impossible

end Shipyard.Instant

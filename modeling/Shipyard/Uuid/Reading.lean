import Shipyard.Uuid

/-!
# Reading identifiers

Four forms are read: the digits alone, in groups, in groups between braces, and in groups after
`urn:uuid:`. Digits and the word before them have either case. A refused text is looked at once
more to name what is wrong with it; lengths and positions count bytes.
-/

namespace Shipyard.Uuid

inductive Refusal
  | length (found : Nat)
  | character (c : Char) (position : Nat)
  | groupCount (found : Nat)
  | groupLength (group expected found : Nat)
deriving DecidableEq, Repr

def Refusal.message : Refusal → String
  | .length n => "invalid length: found " ++ Text.decimal n
  | .character c p => "invalid character: found `" ++ c.toString ++ "` at " ++ Text.decimal p
  | .groupCount n => "invalid group count: expected 5, found " ++ Text.decimal n
  | .groupLength g e n =>
    "invalid group length in group " ++ Text.decimal g ++ ": expected " ++ Text.decimal e ++
      ", found " ++ Text.decimal n

def hexDigit? (c : Char) : Option Nat :=
  if '0' ≤ c ∧ c ≤ '9' then some (c.toNat - 48)
  else if 'a' ≤ c ∧ c ≤ 'f' then some (c.toNat - 87)
  else if 'A' ≤ c ∧ c ≤ 'F' then some (c.toNat - 55)
  else none

/-- Thirty-two digits and nothing else. -/
def ofDigits? (cs : List Char) : Option Uuid :=
  if cs.length = 32 then (cs.mapM hexDigit?).map ofNibbles else none

/-- Takes the hyphens out of a text in groups. -/
def ungrouped? (cs : List Char) : Option (List Char) :=
  if cs.length = 36 ∧ cs[8]? = some '-' ∧ cs[13]? = some '-' ∧ cs[18]? = some '-' ∧
      cs[23]? = some '-' then
    some (cs.take 8 ++ (cs.drop 9).take 4 ++ (cs.drop 14).take 4 ++ (cs.drop 19).take 4 ++
      cs.drop 24)
  else none

def ofGroups? (cs : List Char) : Option Uuid := (ungrouped? cs).bind ofDigits?

/-- What stands between braces. -/
def unbraced? : List Char → Option (List Char)
  | '{' :: cs => if cs.getLast? = some '}' then some cs.dropLast else none
  | _ => none

/-- What follows `urn:uuid:`. -/
def afterUrn? (cs : List Char) : Option (List Char) :=
  if (cs.take 9).map Char.toLower = "urn:uuid:".toList then some (cs.drop 9) else none

def ofChars? (cs : List Char) : Option Uuid :=
  ofDigits? cs <|> ofGroups? cs <|> (unbraced? cs).bind ofGroups? <|>
    (afterUrn? cs).bind ofGroups?

def byteLength (cs : List Char) : Nat := (cs.map Char.utf8Size).foldr (· + ·) 0

/-- The positions of the hyphens, or the first character that is neither digit nor hyphen. -/
def hyphens (position : Nat) : List Char → Except Refusal (List Nat)
  | [] => .ok []
  | c :: cs =>
    if c = '-' then (hyphens (position + 1) cs).map (position :: ·)
    else if (hexDigit? c).isSome then hyphens (position + 1) cs
    else .error (.character c position)

/-- The first group without its proper length; `whole` is the length that ends the last one. -/
def groupFault (whole a b c d : Nat) : Refusal :=
  if a ≠ 8 then .groupLength 0 8 a
  else if b ≠ 13 then .groupLength 1 4 (b - 9)
  else if c ≠ 18 then .groupLength 2 4 (c - 14)
  else if d ≠ 23 then .groupLength 3 4 (d - 19)
  else .groupLength 4 12 (whole - 24)

/-- Names the fault of a text of the given length, whose digits begin after `skipped` bytes.
A `bare` text without hyphens was meant as digits alone. -/
def faultIn (bare : Bool) (whole skipped : Nat) (cs : List Char) : Refusal :=
  match hyphens skipped cs with
  | .error e => e
  | .ok [] => if bare then .length whole else .groupCount 1
  | .ok [a, b, c, d] =>
    groupFault whole (a - skipped) (b - skipped) (c - skipped) (d - skipped)
  | .ok ps => .groupCount (ps.length + 1)

/-- A text whose length fits a form is judged by its groups alone. Any other is judged as a whole,
and positions count what stands before the digits. -/
def fault (cs : List Char) : Refusal :=
  let size := byteLength cs
  if size = 0 ∨ 45 < size then .length size
  else if size = 36 then faultIn false 36 0 cs
  else
    match unbraced? cs, afterUrn? cs with
    | some inner, _ => if size = 38 then faultIn false 36 0 inner else faultIn false size 1 inner
    | none, some inner =>
      if size = 45 then faultIn false 36 0 inner else faultIn false size 9 inner
    | none, none => faultIn true size 0 cs

def parse (s : String) : Except Refusal Uuid :=
  match ofChars? s.toList with
  | some u => .ok u
  | none => .error (fault s.toList)

end Shipyard.Uuid

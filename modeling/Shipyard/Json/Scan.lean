import Shipyard.Json.Refusal
import Shipyard.Text.Utf8

/-!
# Scanning JSON

The parts that have no parts: blanks, words, strings and numbers. Every reader takes what it
reads off the front and returns the rest. The first problem met decides how a text is refused.
-/

namespace Shipyard.Json

def isBlank (b : UInt8) : Bool := b = 32 || b = 10 || b = 9 || b = 13

def skipBlanks (bs : Bytes) : Bytes := bs.dropWhile isBlank

/-- The rest of a word, of which the first letter has been taken. -/
def word : Bytes → Bytes → Except Refusal Bytes
  | [], bs => .ok bs
  | _ :: _, [] => .error .truncated
  | w :: ws, b :: bs => if b = w then word ws bs else .error .illFormed

def hexFour (a b c d : UInt8) : Option Nat := do
  let a ← Text.hexValue? a
  let b ← Text.hexValue? b
  let c ← Text.hexValue? c
  let d ← Text.hexValue? d
  some (((a * 16 + b) * 16 + c) * 16 + d)

/-- Four hexadecimal digits. -/
def unit : Bytes → Except Refusal (Nat × Bytes)
  | a :: b :: c :: d :: rest =>
    match hexFour a b c d with
    | some n => .ok (n, rest)
    | none => .error .illFormed
  | _ => .error .truncated

def isHigh (n : Nat) : Bool := 0xD800 ≤ n && n ≤ 0xDBFF

def isLow (n : Nat) : Bool := 0xDC00 ≤ n && n ≤ 0xDFFF

/-- The character after a backslash and `u`. One beyond the first 65536 is written as a high
and a low half. -/
def codePoint (bs : Bytes) : Except Refusal (Char × Bytes) := do
  let (n, rest) ← unit bs
  if isLow n then .error .illFormed
  else if isHigh n then
    match rest with
    | [] => .error .truncated
    | b :: rest =>
      if b ≠ 92 then .error .illFormed
      else
        match rest with
        | [] => .error .truncated
        | b :: rest =>
          if b ≠ 117 then .error .illFormed
          else
            let (m, rest) ← unit rest
            if isLow m then
              .ok (Char.ofNat ((n - 0xD800) * 1024 + (m - 0xDC00) + 0x10000), rest)
            else .error .illFormed
  else .ok (Char.ofNat n, rest)

/-- What a letter after a backslash stands for. -/
def escaped? (b : UInt8) : Option UInt8 :=
  if b = 34 then some 34
  else if b = 92 then some 92
  else if b = 47 then some 47
  else if b = 98 then some 8
  else if b = 102 then some 12
  else if b = 110 then some 10
  else if b = 114 then some 13
  else if b = 116 then some 9
  else none

/-- The bytes up to the closing quote; `taken` holds those before, in reverse. Fuel is the
length of the input. -/
def stringBytes : Nat → Bytes → Bytes → Except Refusal (Bytes × Bytes)
  | 0, _, _ => .error .truncated
  | _ + 1, _, [] => .error .truncated
  | n + 1, taken, b :: rest =>
    if b = 34 then .ok (taken.reverse, rest)
    else if b = 92 then
      match rest with
      | [] => .error .truncated
      | e :: rest =>
        if e = 117 then
          match codePoint rest with
          | .ok (c, rest) =>
            stringBytes n ((String.utf8EncodeChar c).reverse ++ taken) rest
          | .error r => .error r
        else
          match escaped? e with
          | some c => stringBytes n (c :: taken) rest
          | none => .error .illFormed
    else if b < 32 then .error .illFormed
    else stringBytes n (b :: taken) rest

/-- A string after its opening quote. -/
def string (bs : Bytes) : Except Refusal (String × Bytes) := do
  let (content, rest) ← stringBytes (bs.length + 1) [] bs
  match Text.ofBytes? content with
  | some s => .ok (s, rest)
  | none => .error .illFormed

/-- Passes over a string after its opening quote. Neither halves of characters nor the bytes
themselves are looked at. -/
def passString : Nat → Bytes → Except Refusal Bytes
  | 0, _ => .error .truncated
  | _ + 1, [] => .error .truncated
  | n + 1, b :: rest =>
    if b = 34 then .ok rest
    else if b = 92 then
      match rest with
      | [] => .error .truncated
      | e :: rest =>
        if e = 117 then
          match unit rest with
          | .ok (_, rest) => passString n rest
          | .error r => .error r
        else if (escaped? e).isSome then passString n rest
        else .error .illFormed
    else if b < 32 then .error .illFormed
    else passString n rest

def startsWithDigit : Bytes → Bool
  | b :: _ => Text.isDigit b
  | [] => false

/-- Reads digits onto a number while it stays below 2 ^ 64. The second number counts the
digits read. -/
def digitsOnto (value count : Nat) : Bytes → Nat × Nat × Bytes
  | [] => (value, count, [])
  | b :: rest =>
    if Text.isDigit b && 10 * value + Text.digitValue b < 0x10000000000000000 then
      digitsOnto (10 * value + Text.digitValue b) (count + 1) rest
    else (value, count, b :: rest)

/-- `significand * 10 ^ exponent`, by a table of powers up to 10 ^ 308. A number beyond the
greatest is refused. -/
def scaleDown : Nat → Binary → Nat → Binary
  | 0, x, _ => x
  | n + 1, x, k =>
    if k ≤ 308 then x.dividedBy (Binary.ofNat (Nat.pow 10 k))
    else if x.isZero then x
    else scaleDown n (x.dividedBy (Binary.ofNat (Nat.pow 10 308))) (k - 308)

def scaled (significand : Nat) (exponent : Int) : Except Refusal Binary :=
  let x := Binary.ofNat significand
  if exponent < 0 then .ok (scaleDown (exponent.natAbs / 308 + 1) x exponent.natAbs)
  else if x.isZero then .ok x
  else if 308 < exponent then .error .illFormed
  else
    let x := x.times (Binary.ofNat (Nat.pow 10 exponent.toNat))
    if x.isFinite then .ok x else .error .illFormed

/-- An exponent after its letter, added to the one that the digits before it make. -/
def exponent (significand : Nat) (before : Int) (bs : Bytes) : Except Refusal (Binary × Bytes) :=
  let (negative, bs) := match bs with
    | 43 :: rest => (false, rest)
    | 45 :: rest => (true, rest)
    | bs => (false, bs)
  match bs with
  | [] => .error .truncated
  | b :: _ =>
    if Text.isDigit b then
      let ds := bs.takeWhile Text.isDigit
      let rest := bs.dropWhile Text.isDigit
      let e := ds.foldl (fun n d => 10 * n + Text.digitValue d) 0
      if 0x80000000 ≤ e then
        if significand ≠ 0 ∧ negative = false then .error .illFormed else .ok (⟨0⟩, rest)
      else do
        let x ← scaled significand (if negative then before - e else before + e)
        .ok (x, rest)
    else .error .illFormed

/-- An exponent if there is one. -/
def exponentIf (significand : Nat) (before : Int) : Bytes → Except Refusal (Binary × Bytes)
  | b :: rest =>
    if b = 101 ∨ b = 69 then exponent significand before rest
    else do .ok (← scaled significand before, b :: rest)
  | [] => do .ok (← scaled significand before, [])

/-- A fraction after its point. Digits that the significand has no room for are passed over. -/
def fraction (significand : Nat) (before : Int) (bs : Bytes) : Except Refusal (Binary × Bytes) :=
  let (value, count, rest) := digitsOnto significand 0 bs
  match rest with
  | [] => if count = 0 then .error .truncated else exponentIf value (before - count) []
  | b :: _ =>
    if count = 0 ∧ Text.isDigit b = false then .error .illFormed
    else exponentIf value (before - count) (rest.dropWhile Text.isDigit)

/-- What follows the integer digits; `extra` of them did not fit. -/
def afterDigits (negative : Bool) (value extra : Nat) : Bytes → Except Refusal (Number × Bytes)
  | 46 :: rest => do
    let (x, rest) ← fraction value extra rest
    .ok (.float negative x, rest)
  | 101 :: rest => do
    let (x, rest) ← exponent value extra rest
    .ok (.float negative x, rest)
  | 69 :: rest => do
    let (x, rest) ← exponent value extra rest
    .ok (.float negative x, rest)
  | rest =>
    if extra ≠ 0 then do .ok (.float negative (← scaled value extra), rest)
    else if negative = false then .ok (.integer value, rest)
    else if value = 0 ∨ 0x8000000000000000 < value then .ok (.float true (Binary.ofNat value), rest)
    else .ok (.integer (-(value : Int)), rest)

/-- A number after its sign. -/
def number (negative : Bool) : Bytes → Except Refusal (Number × Bytes)
  | [] => .error .truncated
  | b :: rest =>
    if b = 48 then
      if startsWithDigit rest then .error .illFormed else afterDigits negative 0 0 rest
    else if Text.isDigit b then
      let (value, _, rest) := digitsOnto 0 0 (b :: rest)
      let extra := rest.takeWhile Text.isDigit
      afterDigits negative value extra.length (rest.dropWhile Text.isDigit)
    else .error .illFormed

def passExponent (bs : Bytes) : Except Refusal Bytes :=
  let bs := match bs with
    | 43 :: rest => rest
    | 45 :: rest => rest
    | bs => bs
  if startsWithDigit bs then .ok (bs.dropWhile Text.isDigit) else .error .illFormed

def passFraction (bs : Bytes) : Except Refusal Bytes :=
  if startsWithDigit bs then
    match bs.dropWhile Text.isDigit with
    | 101 :: rest => passExponent rest
    | 69 :: rest => passExponent rest
    | rest => .ok rest
  else .error .illFormed

/-- Passes over a number after its sign. A number that breaks off is ill-formed here. -/
def passNumber : Bytes → Except Refusal Bytes
  | [] => .error .illFormed
  | b :: rest =>
    if Text.isDigit b = false ∨ (b = 48 ∧ startsWithDigit rest) then .error .illFormed
    else
      match rest.dropWhile Text.isDigit with
      | 46 :: rest => passFraction rest
      | 101 :: rest => passExponent rest
      | 69 :: rest => passExponent rest
      | rest => .ok rest

end Shipyard.Json

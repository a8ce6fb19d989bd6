import Shipyard.Json.Value

/-!
# Writing JSON

The text of a value without blanks. Fields are written in the order in which they stand. Strings
are written as they are, but for quotes, backslashes and controls.
-/

namespace Shipyard.Json

def escapeChar (c : Char) : List Char :=
  if c = '"' then ['\\', '"']
  else if c = '\\' then ['\\', '\\']
  else if c = '\n' then ['\\', 'n']
  else if c = '\r' then ['\\', 'r']
  else if c = '\t' then ['\\', 't']
  else if c = '\x08' then ['\\', 'b']
  else if c = '\x0c' then ['\\', 'f']
  else if c.toNat < 32 then
    ['\\', 'u', '0', '0', Text.digitChar (c.toNat / 16), Text.digitChar (c.toNat % 16)]
  else [c]

def quoted (s : String) : List Char := '"' :: s.toList.flatMap escapeChar ++ ['"']

def separated : List (List Char) → List Char
  | [] => []
  | [x] => x
  | x :: y :: rest => x ++ ',' :: separated (y :: rest)

def Number.chars : Number → List Char
  | .integer n => (Text.signed n).toList
  | .float negative x => (Decimal.message.numberText negative x).toList

mutual

def Value.chars : Value → List Char
  | .null => "null".toList
  | .boolean b => (if b then "true" else "false").toList
  | .number n => n.chars
  | .text s => quoted s
  | .array xs => '[' :: separated (itemsChars xs) ++ [']']
  | .object fs => '\x7b' :: separated (fieldsChars fs) ++ ['\x7d']

def itemsChars : List Value → List (List Char)
  | [] => []
  | x :: xs => x.chars :: itemsChars xs

def fieldsChars : List (String × Value) → List (List Char)
  | [] => []
  | (name, v) :: fs => (quoted name ++ ':' :: v.chars) :: fieldsChars fs

end

def Value.print (v : Value) : String := String.ofList v.chars

def Value.bytes (v : Value) : Bytes := Text.bytes v.print

def ofInt (n : Int) : Value := .number (.integer n)

def ofNat (n : Nat) : Value := .number (.integer n)

def ofOption {α : Type} (f : α → Value) : Option α → Value
  | some x => f x
  | none => .null

end Shipyard.Json

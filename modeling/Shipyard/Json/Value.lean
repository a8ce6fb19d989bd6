import Shipyard.Json.Scan

/-!
# JSON values

A value as a tree. The fields of an object are kept in the order of their names, and of two
fields with one name the later counts. A text may nest containers a limited number of times.
-/

namespace Shipyard.Json

inductive Value
  | null
  | boolean (b : Bool)
  | number (n : Number)
  | text (s : String)
  | array (items : List Value)
  | object (fields : List (String × Value))

/-- How many containers may stand inside each other. -/
def deepest : Nat := 127

def Value.found : Value → Found
  | .null => .null
  | .boolean b => .boolean b
  | .number n => .number n
  | .text s => .text s
  | .array _ => .sequence
  | .object _ => .map

/-- Puts a field into its place among fields in order. -/
def putField (name : String) (v : Value) : List (String × Value) → List (String × Value)
  | [] => [(name, v)]
  | (n, w) :: rest =>
    if name = n then (name, v) :: rest
    else if name < n then (name, v) :: (n, w) :: rest
    else (n, w) :: putField name v rest

/-- Whether another item follows in an array, and the text from it on. -/
def nextItem (first : Bool) (bs : Bytes) : Except Refusal (Bool × Bytes) :=
  match skipBlanks bs with
  | [] => .error .truncated
  | b :: rest =>
    if b = 93 then .ok (false, b :: rest)
    else if first then .ok (true, b :: rest)
    else if b = 44 then
      match skipBlanks rest with
      | [] => .error .truncated
      | b :: rest => if b = 93 then .error .illFormed else .ok (true, b :: rest)
    else .error .illFormed

/-- Whether another key follows in an object, and the text behind its opening quote. -/
def nextKey (first : Bool) (bs : Bytes) : Except Refusal (Bool × Bytes) :=
  match skipBlanks bs with
  | [] => .error .truncated
  | b :: rest =>
    if b = 125 then .ok (false, b :: rest)
    else if first then if b = 34 then .ok (true, rest) else .error .illFormed
    else if b = 44 then
      match skipBlanks rest with
      | [] => .error .truncated
      | b :: rest => if b = 34 then .ok (true, rest) else .error .illFormed
    else .error .illFormed

/-- A mark that has to come after blanks. -/
def closing (mark : UInt8) (bs : Bytes) : Except Refusal Bytes :=
  match skipBlanks bs with
  | [] => .error .truncated
  | b :: rest => if b = mark then .ok rest else .error .illFormed

def colon (bs : Bytes) : Except Refusal Bytes := closing 58 bs

/-- Items up to the closing bracket, which is left; `i` of them came before. Fuel is the length
of the input. -/
def items {α : Type} (item : Nat → Bytes → Except Refusal (α × Bytes)) :
    Nat → Nat → Bytes → Except Refusal (List α × Bytes)
  | 0, _, _ => .error .truncated
  | n + 1, i, bs => do
    let (more, rest) ← nextItem (i = 0) bs
    if more then
      let (x, rest) ← item i rest
      let (xs, rest) ← items item n (i + 1) rest
      .ok (x :: xs, rest)
    else .ok ([], rest)

/-- Fields up to the closing brace, which is left, put into a list in order. -/
def fieldsOnto (item : Bytes → Except Refusal (Value × Bytes)) :
    Nat → Bool → List (String × Value) → Bytes → Except Refusal (List (String × Value) × Bytes)
  | 0, _, _, _ => .error .truncated
  | n + 1, first, fields, bs => do
    let (more, rest) ← nextKey first bs
    if more then
      let (name, rest) ← string rest
      let rest ← colon rest
      let (v, rest) ← item rest
      fieldsOnto item n false (putField name v fields) rest
    else .ok (fields, rest)

/-- A value that is no container, by its first byte. -/
def scalar (b : UInt8) (rest : Bytes) : Except Refusal (Value × Bytes) :=
  if b = 110 then do .ok (.null, ← word [117, 108, 108] rest)
  else if b = 116 then do .ok (.boolean true, ← word [114, 117, 101] rest)
  else if b = 102 then do .ok (.boolean false, ← word [97, 108, 115, 101] rest)
  else if b = 34 then do
    let (s, rest) ← string rest
    .ok (.text s, rest)
  else if b = 45 then do
    let (n, rest) ← number true rest
    .ok (.number n, rest)
  else if Text.isDigit b then do
    let (n, rest) ← number false (b :: rest)
    .ok (.number n, rest)
  else .error .illFormed

/-- Reads a value in which `depth` containers may stand inside each other. -/
def value : Nat → Bytes → Except Refusal (Value × Bytes)
  | depth, bs =>
    match skipBlanks bs with
    | [] => .error .truncated
    | b :: rest =>
      if b = 91 then
        match depth with
        | 0 => .error .illFormed
        | d + 1 => do
          let (xs, rest) ← items (fun _ => value d) (rest.length + 1) 0 rest
          .ok (.array xs, ← closing 93 rest)
      else if b = 123 then
        match depth with
        | 0 => .error .illFormed
        | d + 1 => do
          let (fs, rest) ← fieldsOnto (value d) (rest.length + 1) true [] rest
          .ok (.object fs, ← closing 125 rest)
      else scalar b rest

end Shipyard.Json

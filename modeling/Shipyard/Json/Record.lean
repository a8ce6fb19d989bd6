import Shipyard.Json.Codec
import Shipyard.Json.Skip

/-!
# Reading records

A record is an object with a value for each field, in any order, and unknown keys are passed over;
or it is an array of the values in the order of the fields. Values are gathered in a draft, in
which every field may still be open.
-/

namespace Shipyard.Json

structure Field (σ : Type) where
  name : String
  /-- Whether the field may be left out at the end of an array. -/
  omissible : Bool
  filled : σ → Bool
  read : Nat → Bytes → σ → Except Refusal (σ × Bytes)
  ofValue : Value → σ → Except Misfit σ

def Field.ofCodec {σ β : Type} (name : String) (c : Codec β) (get : σ → Option β)
    (set : σ → β → σ) : Field σ where
  name := name
  omissible := false
  filled s := (get s).isSome
  read depth bs s := do
    let (x, rest) ← c.read depth bs
    .ok (set s x, rest)
  ofValue v s := (c.ofValue v).map (set s)

structure Record (σ α : Type) where
  name : String
  blank : σ
  fields : List (Field σ)
  /-- The record of a draft, unless a field that is needed is still open. -/
  finish : σ → Except Misfit α

namespace Record

variable {σ α : Type}

def needed {β : Type} (name : String) : Option β → Except Misfit β
  | some x => .ok x
  | none => .error (.missing name)

def expected (r : Record σ α) : String := "struct " ++ r.name

def tooShort (r : Record σ α) (i : Nat) : Misfit :=
  let count := r.fields.length
  .length i (r.expected ++ " with " ++ Text.decimal count ++
    (if count = 1 then " element" else " elements"))

/-- Reads the values of the remaining fields, `i` of them being read. -/
def readItems (r : Record σ α) (depth : Nat) :
    List (Field σ) → Nat → σ → Bytes → Except Refusal (σ × Bytes)
  | [], _, s, bs => .ok (s, bs)
  | f :: fs, i, s, bs => do
    let (more, rest) ← nextItem (i = 0) bs
    if more then
      let (s, rest) ← Codec.inside (.index i) (f.read depth rest s)
      r.readItems depth fs (i + 1) s rest
    else if f.omissible then r.readItems depth fs (i + 1) s rest
    else .error (.unfit [] (r.tooShort i))

/-- One key with its value. A key that comes again is refused before its value is looked at. -/
def readField (r : Record σ α) (depth : Nat) (s : σ) (bs : Bytes) :
    Except Refusal (σ × Bytes) := do
  let (name, rest) ← string bs
  match r.fields.find? fun f => f.name = name with
  | some f =>
    if f.filled s then .error (.unfit [] (.duplicate name))
    else Codec.inside (.field name) (f.read depth (← colon rest) s)
  | none => do .ok (s, ← passValue (← colon rest))

/-- Reads keys up to the closing brace, which is left. Fuel is the length of the input. -/
def readFields (r : Record σ α) (depth : Nat) :
    Nat → Bool → σ → Bytes → Except Refusal (σ × Bytes)
  | 0, _, _, _ => .error .truncated
  | n + 1, first, s, bs => do
    let (more, rest) ← nextKey first bs
    if more then
      let (s, rest) ← r.readField depth s rest
      r.readFields depth n false s rest
    else .ok (s, rest)

def read (r : Record σ α) (depth : Nat) (bs : Bytes) : Except Refusal (α × Bytes) :=
  match skipBlanks bs, depth with
  | 91 :: _, 0 => .error .illFormed
  | 123 :: _, 0 => .error .illFormed
  | 91 :: rest, d + 1 => do
    let (s, rest) ← r.readItems d r.fields 0 r.blank rest
    let x ← fit (r.finish s)
    .ok (x, ← closing 93 rest)
  | 123 :: rest, d + 1 => do
    let (s, rest) ← r.readFields d (rest.length + 1) true r.blank rest
    let x ← fit (r.finish s)
    .ok (x, ← closing 125 rest)
  | bs, _ => .error (mismatch r.expected bs)

def takeItems (r : Record σ α) : List (Field σ) → Nat → σ → List Value → Except Misfit σ
  | [], i, s, vs => if vs.isEmpty then .ok s
      else .error (.length (i + vs.length) "fewer elements in array")
  | f :: fs, i, s, [] =>
    if f.omissible then r.takeItems fs (i + 1) s [] else .error (r.tooShort i)
  | f :: fs, i, s, v :: vs => do r.takeItems fs (i + 1) (← f.ofValue v s) vs

def takeField (r : Record σ α) (s : σ) (entry : String × Value) : Except Misfit σ :=
  match r.fields.find? fun f => f.name = entry.1 with
  | some f => f.ofValue entry.2 s
  | none => .ok s

def ofValue (r : Record σ α) : Value → Except Misfit α
  | .array vs => do r.finish (← r.takeItems r.fields 0 r.blank vs)
  | .object fields => do r.finish (← fields.foldlM r.takeField r.blank)
  | v => .error (.type v.found r.expected)

def codec (r : Record σ α) : Codec α := ⟨r.read, r.ofValue⟩

end Record
end Shipyard.Json

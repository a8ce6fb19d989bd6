import Shipyard.Json.Value

/-!
# Reading typed values

A codec reads a value of one type from a text, and also from a tree that has been read before. The
two agree on what fits; where nothing fits they may put it in different words.
-/

namespace Shipyard.Json

structure Codec (α : Type) where
  /-- Reads a text in which so many containers may stand inside each other. -/
  read : Nat → Bytes → Except Refusal (α × Bytes)
  ofValue : Value → Except Misfit α

def fit {α : Type} : Except Misfit α → Except Refusal α
  | .ok x => .ok x
  | .error m => .error (.unfit [] m)

/-- The refusal of a text, blanks skipped, with something else than what is expected. -/
def mismatch (expected : String) : Bytes → Refusal
  | [] => .truncated
  | b :: rest =>
    if b = 91 then .unfit [] (.type .sequence expected)
    else if b = 123 then .unfit [] (.type .map expected)
    else
      match scalar b rest with
      | .ok (v, _) => .unfit [] (.type v.found expected)
      | .error r => r

namespace Codec

variable {α β : Type}

/-- Reads a whole text. -/
def decode (c : Codec α) (bs : Bytes) : Except Refusal α := do
  let (x, rest) ← c.read deepest bs
  if (skipBlanks rest).isEmpty then .ok x else .error .illFormed

/-- A value without parts. -/
def atom (expected : String) (take : Value → Except Misfit α) : Codec α where
  read _ bs :=
    match skipBlanks bs with
    | [] => .error .truncated
    | b :: rest =>
      if b = 91 ∨ b = 123 then .error (mismatch expected (b :: rest))
      else do
        let (v, rest) ← scalar b rest
        .ok (← fit (take v), rest)
  ofValue := take

def text : Codec String :=
  atom "a string" fun
    | .text s => .ok s
    | v => .error (.type v.found "a string")

/-- A text that is read further. -/
def textAs (expected : String) (take : String → Except Misfit α) : Codec α :=
  atom expected fun
    | .text s => take s
    | v => .error (.type v.found expected)

def integer (expected : String) (low high : Int) : Codec Int :=
  atom expected fun
    | .number (.integer n) =>
      if low ≤ n ∧ n ≤ high then .ok n
      else .error (.value (.number (.integer n)) expected)
    | v => .error (.type v.found expected)

def natural (expected : String) (bits : Nat) : Codec Nat :=
  atom expected fun
    | .number (.integer n) =>
      if 0 ≤ n ∧ n < Nat.pow 2 bits then .ok n.toNat
      else .error (.value (.number (.integer n)) expected)
    | v => .error (.type v.found expected)

def boolean : Codec Bool :=
  atom "a boolean" fun
    | .boolean b => .ok b
    | v => .error (.type v.found "a boolean")

def unit : Codec Unit :=
  atom "unit" fun
    | .null => .ok ()
    | v => .error (.type v.found "unit")

/-- Any value. -/
def any : Codec Value := ⟨value, .ok⟩

def map (c : Codec α) (f : α → β) : Codec β where
  read depth bs := (c.read depth bs).map fun (x, rest) => (f x, rest)
  ofValue v := (c.ofValue v).map f

/-- A value or `null`. -/
def optional (c : Codec α) : Codec (Option α) where
  read depth bs :=
    match skipBlanks bs with
    | 110 :: rest => (word [117, 108, 108] rest).map fun rest => (none, rest)
    | bs => (c.read depth bs).map fun (x, rest) => (some x, rest)
  ofValue
    | .null => .ok none
    | v => (c.ofValue v).map some

def inside {γ : Type} (step : Step) : Except Refusal γ → Except Refusal γ :=
  Except.mapError (Refusal.inside step)

def list (c : Codec α) : Codec (List α) where
  read depth bs :=
    match skipBlanks bs, depth with
    | 91 :: _, 0 => .error .illFormed
    | 91 :: rest, d + 1 => do
      let (xs, rest) ←
        items (fun i bs => inside (.index i) (c.read d bs)) (rest.length + 1) 0 rest
      .ok (xs, ← closing 93 rest)
    | bs, _ => .error (mismatch "a sequence" bs)
  ofValue
    | .array xs => xs.mapM c.ofValue
    | v => .error (.type v.found "a sequence")

def pick (options : List (String × α)) (s : String) : Except Misfit α :=
  match options.find? fun o => o.1 = s with
  | some o => .ok o.2
  | none => .error (.variant s (options.map Prod.fst))

/-- One of several names, as a text or as an object with that name as key of `null`. A key that is
no text makes the whole text ill-formed. -/
def choice (options : List (String × α)) : Codec α where
  read depth bs :=
    match skipBlanks bs, depth with
    | [], _ => .error .truncated
    | 34 :: rest, _ => do
      let (s, rest) ← string rest
      .ok (← fit (pick options s), rest)
    | 123 :: _, 0 => .error .illFormed
    | 123 :: rest, d + 1 =>
      match skipBlanks rest with
      | [] => .error .truncated
      | 34 :: rest => do
        let (s, rest) ← string rest
        let x ← fit (pick options s)
        let (_, rest) ← inside (.field s) (unit.read d (← colon rest))
        .ok (x, ← closing 125 rest)
      | _ => .error .illFormed
    | _, _ => .error .illFormed
  ofValue
    | .text s => pick options s
    | .object [(s, v)] => do
      let x ← pick options s
      unit.ofValue v
      .ok x
    | .object _ => .error (.value .map "map with a single key")
    | v => .error (.type v.found "string or map")

end Codec
end Shipyard.Json

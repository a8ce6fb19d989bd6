import Shipyard.Decimal.Layout
import Shipyard.Text.Quoted

/-!
# Why a JSON text is refused

A text may be no JSON, may end too early, or may be JSON of the wrong shape. For the last there
is a message, and the path to the value that does not fit.
-/

namespace Shipyard.Json

/-- A number with a fraction, an exponent, the text `-0` or too large a magnitude is no integer. -/
inductive Number
  | integer (n : Int)
  | float (negative : Bool) (x : Binary)
deriving DecidableEq, Repr

/-- What stands where something else is wanted. -/
inductive Found
  | number (n : Number)
  | boolean (b : Bool)
  | text (s : String)
  | null
  | sequence
  | map
deriving DecidableEq, Repr

def Found.message : Found → String
  | .number (.integer n) => "integer `" ++ Text.signed n ++ "`"
  | .number (.float negative x) =>
    "floating point `" ++ Decimal.message.numberText negative x ++ "`"
  | .boolean b => "boolean `" ++ (if b then "true" else "false") ++ "`"
  | .text s => "string " ++ Text.quoted s
  | .null => "null"
  | .sequence => "sequence"
  | .map => "map"

inductive Misfit
  | type (found : Found) (expected : String)
  | value (found : Found) (expected : String)
  | length (n : Nat) (expected : String)
  | variant (name : String) (known : List String)
  | missing (field : String)
  | duplicate (field : String)
  | other (message : String)
deriving DecidableEq, Repr

def named (s : String) : String := "`" ++ s ++ "`"

def Misfit.message : Misfit → String
  | .type f e => "invalid type: " ++ f.message ++ ", expected " ++ e
  | .value f e => "invalid value: " ++ f.message ++ ", expected " ++ e
  | .length n e => "invalid length " ++ Text.decimal n ++ ", expected " ++ e
  | .variant s known =>
    "unknown variant " ++ named s ++ ", expected one of " ++ ", ".intercalate (known.map named)
  | .missing f => "missing field " ++ named f
  | .duplicate f => "duplicate field " ++ named f
  | .other m => m

inductive Step
  | field (name : String)
  | index (n : Nat)
deriving DecidableEq, Repr

inductive Refusal
  | illFormed
  | truncated
  | unfit (path : List Step) (cause : Misfit)
deriving DecidableEq, Repr

/-- A refusal seen from the value around. -/
def Refusal.inside (step : Step) : Refusal → Refusal
  | .unfit path cause => .unfit (step :: path) cause
  | r => r

/-- A step that follows another: a point stands before a field. -/
def Step.after : Step → String
  | .field f => "." ++ f
  | .index n => "[" ++ Text.decimal n ++ "]"

/-- Fields are divided by points, and indices stand between brackets. -/
def pathText : List Step → String
  | [] => ""
  | .field f :: rest => f ++ String.join (rest.map Step.after)
  | .index n :: rest => (Step.index n).after ++ String.join (rest.map Step.after)

end Shipyard.Json

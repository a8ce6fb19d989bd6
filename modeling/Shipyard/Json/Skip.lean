import Shipyard.Json.Scan

/-!
# Passing over values

The value of a key that nobody asked for is only passed over, to any depth. Its strings and
numbers are checked less strictly than those that are read.
-/

namespace Shipyard.Json

/-- The containers that are open, the innermost first. -/
inductive Frame
  | array
  | object
deriving DecidableEq, Repr

/-- What is to be done next. -/
inductive Place
  /-- A value has to come. -/
  | value
  /-- A container has just been opened. -/
  | opened
  /-- A value has ended. -/
  | ended
deriving DecidableEq, Repr

/-- A key with its colon. -/
def passKey (bs : Bytes) : Except Refusal Bytes :=
  match skipBlanks bs with
  | [] => .error .truncated
  | b :: rest =>
    if b ≠ 34 then .error .illFormed
    else do
      let rest ← passString (rest.length + 1) rest
      match skipBlanks rest with
      | [] => .error .truncated
      | b :: rest => if b = 58 then .ok rest else .error .illFormed

/-- A value that is no container. -/
def passScalar (b : UInt8) (rest : Bytes) : Except Refusal Bytes :=
  if b = 110 then word [117, 108, 108] rest
  else if b = 116 then word [114, 117, 101] rest
  else if b = 102 then word [97, 108, 115, 101] rest
  else if b = 34 then passString (rest.length + 1) rest
  else if b = 45 then passNumber rest
  else if Text.isDigit b then passNumber (b :: rest)
  else .error .illFormed

/-- The position before the next value of the innermost container. -/
def enter (frame : Frame) (bs : Bytes) : Except Refusal Bytes :=
  match frame with
  | .array => .ok bs
  | .object => passKey bs

def closes (frame : Frame) (b : UInt8) : Bool :=
  match frame with
  | .array => b = 93
  | .object => b = 125

/-- Fuel counts steps; two for every byte are enough. -/
def pass : Nat → Place → List Frame → Bytes → Except Refusal Bytes
  | 0, _, _, _ => .error .truncated
  | n + 1, .value, frames, bs =>
    match skipBlanks bs with
    | [] => .error .truncated
    | b :: rest =>
      if b = 91 then pass n .opened (.array :: frames) rest
      else if b = 123 then pass n .opened (.object :: frames) rest
      else
        match passScalar b rest with
        | .ok rest => pass n .ended frames rest
        | .error r => .error r
  | _ + 1, .ended, [], bs => .ok bs
  | _ + 1, .opened, [], bs => .ok bs
  | n + 1, place, frame :: frames, bs =>
    match skipBlanks bs with
    | [] => .error .truncated
    | b :: rest =>
      if closes frame b then pass n .ended frames rest
      else if place = .opened then
        match enter frame (b :: rest) with
        | .ok rest => pass n .value (frame :: frames) rest
        | .error r => .error r
      else if b = 44 then
        match enter frame rest with
        | .ok rest => pass n .value (frame :: frames) rest
        | .error r => .error r
      else .error .illFormed

/-- Passes over one value. -/
def passValue (bs : Bytes) : Except Refusal Bytes :=
  pass (2 * bs.length + 2) .value [] bs

end Shipyard.Json

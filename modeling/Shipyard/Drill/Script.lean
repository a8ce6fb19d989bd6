import Shipyard.Handler

/-!
# Scripted handlers

A handler that follows a script: for each payload the outcomes of its successive deliveries, of
which the last one repeats. A payload without script is accepted.
-/

namespace Shipyard.Drill

inductive Verdict
  | accept
  | fail (reason : String)
  | undecodable (reason : String)

inductive Outcome
  | cancel
  /-- Waits, then commits an offset for the group, then gives a verdict. -/
  | act (delay : Option Span) (commit : Option Nat) (verdict : Verdict)

def Verdict.result : Verdict → Except HandlerError Unit
  | .accept => .ok ()
  | .fail r => .error (.failed r)
  | .undecodable r => .error (.undecodable r)

abbrev Script : Type := List (String × List Outcome)

def outcomes (script : Script) (payload : Bytes) : List Outcome :=
  match script.find? fun e => Text.bytes e.1 = payload with
  | some e => e.2
  | none => []

/-- How often a payload was delivered. -/
def seen (history : List Delivery) (payload : Bytes) : Nat :=
  (history.filter fun d => d.message.payload = payload).length

/-- The outcome of the latest delivery. -/
def outcome (script : Script) (history : List Delivery) (payload : Bytes) : Outcome :=
  let os := outcomes script payload
  (os[seen history payload - 1]?.or os.getLast?).getD (.act none none .accept)

def commitThen (group : String) (m : Bus.Message) (v : Verdict) :
    Option Nat → Job (Except HandlerError Unit)
  | none => .done v.result
  | some next =>
    .ask (.commit group m.topic m.partition next) fun
      | .ok () => .done v.result
      | .error e => .done (.error (.failed e.message))

def handler (group : String) (script : Script) : Handler := fun history m _ =>
  match outcome script history m.payload with
  | .cancel => .done (.error .cancelled)
  | .act none next v => commitThen group m v next
  | .act (some s) next v => (Job.sleep s none).bind fun _ => commitThen group m v next

end Shipyard.Drill

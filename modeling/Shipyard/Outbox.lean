import Shipyard.Text.Digits

/-!
# The outbox

A channel that keeps what was sent through it, the oldest first.
-/

namespace Shipyard

/-- Why a channel did not deliver. -/
inductive ChannelError
  | request (reason : String)
  | rejected (status : Nat) (description : String)
  | unavailable (reason : String)
deriving DecidableEq, Repr

def ChannelError.message : ChannelError → String
  | .request r => "Channel request failed: " ++ r
  | .rejected status d =>
    "Channel rejected message (" ++ Text.decimal status ++ "): " ++ d
  | .unavailable r => "Channel unavailable: " ++ r

structure Outbox where
  sent : List String
  down : Bool

namespace Outbox

def empty : Outbox := ⟨[], false⟩

def name : String := "in-memory"

def send (o : Outbox) (text : String) : Except ChannelError Outbox :=
  if o.down then .error (.unavailable "send refused")
  else .ok { o with sent := o.sent ++ [text] }

end Outbox
end Shipyard

import Shipyard.Event
import Shipyard.Wire

/-!
# Events in JSON

An event travels in an envelope with the version of its form. The topic tells its kind. The
envelope is read first, with the event as a tree; an event of another version is not looked at.
-/

namespace Shipyard

open Json (Codec Field Record Value Misfit)

namespace PaymentCompleted

structure Draft where
  event : Option EventId
  order : Option OrderId
  user : Option UserId
  method : Option PaymentMethod
  transaction : Option TransactionId

def record : Record Draft PaymentCompleted where
  name := "PaymentCompleted"
  blank := ⟨none, none, none, none, none⟩
  fields := [
    .ofCodec "event_id" EventId.codec Draft.event fun s x => { s with event := some x },
    .ofCodec "order_id" OrderId.codec Draft.order fun s x => { s with order := some x },
    .ofCodec "user_id" UserId.codec Draft.user fun s x => { s with user := some x },
    .ofCodec "payment_method" PaymentMethod.codec Draft.method
      fun s x => { s with method := some x },
    .ofCodec "transaction_id" TransactionId.codec Draft.transaction
      fun s x => { s with transaction := some x }]
  finish s := do
    let event ← Record.needed "event_id" s.event
    let order ← Record.needed "order_id" s.order
    let user ← Record.needed "user_id" s.user
    let method ← Record.needed "payment_method" s.method
    let transaction ← Record.needed "transaction_id" s.transaction
    .ok { event, order, user, method, transaction }

def codec : Codec PaymentCompleted := record.codec

def toJson (p : PaymentCompleted) : Value :=
  .object [
    ("event_id", p.event.toJson),
    ("order_id", p.order.toJson),
    ("user_id", p.user.toJson),
    ("payment_method", p.method.toJson),
    ("transaction_id", p.transaction.toJson)]

end PaymentCompleted

namespace BuildCompleted

structure Draft where
  event : Option EventId
  order : Option OrderId
  user : Option UserId
  seconds : Option Nat

def record : Record Draft BuildCompleted where
  name := "BuildCompleted"
  blank := ⟨none, none, none, none⟩
  fields := [
    .ofCodec "event_id" EventId.codec Draft.event fun s x => { s with event := some x },
    .ofCodec "order_id" OrderId.codec Draft.order fun s x => { s with order := some x },
    .ofCodec "user_id" UserId.codec Draft.user fun s x => { s with user := some x },
    .ofCodec "build_time_sec" (.natural "u64" 64) Draft.seconds
      fun s x => { s with seconds := some x }]
  finish s := do
    let event ← Record.needed "event_id" s.event
    let order ← Record.needed "order_id" s.order
    let user ← Record.needed "user_id" s.user
    let seconds ← Record.needed "build_time_sec" s.seconds
    if h : seconds < 0x10000000000000000 then .ok { event, order, user, seconds, inRange := h }
    else .error (.value (.number (.integer seconds)) "u64")

def codec : Codec BuildCompleted := record.codec

def toJson (b : BuildCompleted) : Value :=
  .object [
    ("event_id", b.event.toJson),
    ("order_id", b.order.toJson),
    ("user_id", b.user.toJson),
    ("build_time_sec", Json.ofNat b.seconds)]

end BuildCompleted

/-- An event as it travels, not yet looked at. -/
structure Envelope where
  version : Nat
  event : Value

namespace Envelope

structure Draft where
  version : Option Nat
  event : Option Value

def record : Record Draft Envelope where
  name := "RawEnvelope"
  blank := ⟨none, none⟩
  fields := [
    .ofCodec "version" (.natural "u32" 32) Draft.version
      fun s x => { s with version := some x },
    .ofCodec "event" .any Draft.event fun s x => { s with event := some x }]
  finish s := do
    let version ← Record.needed "version" s.version
    let event ← Record.needed "event" s.event
    .ok { version, event }

def codec : Codec Envelope := record.codec

def toJson (e : Envelope) : Value :=
  .object [("version", Json.ofNat e.version), ("event", e.event)]

end Envelope

namespace Event

/-- The version that is written, and the only one that is read. -/
def version : Nat := 1

inductive Refusal
  | malformed (cause : Json.Refusal)
  | unsupportedVersion (n : Nat)
  | unexpected (topic : Topic) (expected : Kind)
deriving DecidableEq, Repr

def malformedText : Json.Refusal → String
  | .illFormed => "not JSON"
  | .truncated => "unexpected end of JSON"
  | .unfit _ cause => cause.message

def Refusal.message : Refusal → String
  | .malformed r => "Malformed payload: " ++ malformedText r
  | .unsupportedVersion n => "Unsupported schema version " ++ Text.decimal n
  | .unexpected t k => "Topic " ++ t.name ++ " does not carry " ++ k.name

def toJson : Event → Value
  | .payment p => p.toJson
  | .build b => b.toJson

def encode (e : Event) : Bytes := Value.bytes (Envelope.toJson ⟨version, e.toJson⟩)

def ofValue (kind : Kind) (v : Value) : Except Misfit Event :=
  match kind with
  | .payment => (PaymentCompleted.codec.ofValue v).map .payment
  | .build => (BuildCompleted.codec.ofValue v).map .build

/-- Reads the payload of a record on a topic. -/
def decode (topic : Topic) (payload : Bytes) : Except Refusal Event :=
  match Envelope.codec.decode payload with
  | .error r => .error (.malformed r)
  | .ok envelope =>
    if envelope.version ≠ version then .error (.unsupportedVersion envelope.version)
    else
      match ofValue (kindOf topic) envelope.event with
      | .ok e => .ok e
      | .error m => .error (.malformed (.unfit [] m))

end Event

def PaymentCompleted.decode (topic : Topic) (payload : Bytes) :
    Except Event.Refusal PaymentCompleted := do
  match ← Event.decode topic payload with
  | .payment p => .ok p
  | .build _ => .error (.unexpected topic .payment)

def BuildCompleted.decode (topic : Topic) (payload : Bytes) :
    Except Event.Refusal BuildCompleted := do
  match ← Event.decode topic payload with
  | .build b => .ok b
  | .payment _ => .error (.unexpected topic .build)

end Shipyard

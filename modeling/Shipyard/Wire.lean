import Shipyard.Instant.Reading
import Shipyard.Json.Printer
import Shipyard.Json.Record
import Shipyard.Order
import Shipyard.Part
import Shipyard.Topic

/-!
# Names, amounts and moments in JSON

Identifiers and moments are strings, an amount is its number of cents, and a status, a way to pay
or a topic is its name.
-/

namespace Shipyard

open Json (Codec Misfit Value)

def Uuid.codec : Codec Uuid :=
  .textAs "a formatted UUID string" fun s =>
    match Uuid.parse s with
    | .ok u => .ok u
    | .error r => .error (.other ("UUID parsing failed: " ++ r.message))

def Uuid.toJson (u : Uuid) : Value := .text u.text

def OrderId.codec : Codec OrderId := Uuid.codec.map OrderId.mk

def OrderId.toJson (id : OrderId) : Value := id.uuid.toJson

def EventId.codec : Codec EventId := Uuid.codec.map EventId.mk

def EventId.toJson (id : EventId) : Value := id.uuid.toJson

def TransactionId.codec : Codec TransactionId := Uuid.codec.map TransactionId.mk

def TransactionId.toJson (id : TransactionId) : Value := id.uuid.toJson

def UserId.codec : Codec UserId := Codec.text.map UserId.mk

def UserId.toJson (id : UserId) : Value := .text id.text

def PartId.codec : Codec PartId := Codec.text.map PartId.mk

def PartId.toJson (id : PartId) : Value := .text id.text

def int64 : Codec Int := .integer "i64" (-0x8000000000000000) 0x7fffffffffffffff

def Money.codec : Codec Money :=
  .atom "i64" fun v => do
    let n ← int64.ofValue v
    match Money.ofInt? n with
    | some m => .ok m
    | none => .error (.value (.number (.integer n)) "i64")

def Money.toJson (m : Money) : Value := Json.ofInt m.cents

def PaymentMethod.codec : Codec PaymentMethod :=
  .choice (PaymentMethod.all.map fun m => (m.name, m))

def PaymentMethod.toJson (m : PaymentMethod) : Value := .text m.name

def Order.Status.codec : Codec Order.Status :=
  .choice (Order.Status.all.map fun s => (s.name, s))

def Order.Status.toJson (s : Order.Status) : Value := .text s.name

def Topic.codec : Codec Topic := .choice (Topic.all.map fun t => (t.name, t))

def Topic.toJson (t : Topic) : Value := .text t.name

def Instant.codec : Codec Instant :=
  .textAs "an RFC 3339 formatted date and time string" fun s =>
    match Instant.parse s with
    | .ok i => .ok i
    | .error r => .error (.other r.message)

def Instant.toJson (i : Instant) : Value := .text i.text

end Shipyard

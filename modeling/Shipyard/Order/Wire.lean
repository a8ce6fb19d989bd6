import Shipyard.Wire

/-!
# Orders in JSON

An order has two forms: its record, which can be read back, and the answer that clients get, in
which names differ and moments carry their offset in numbers.
-/

namespace Shipyard.Order

open Json (Codec Field Record Value)

structure Draft where
  id : Option OrderId
  user : Option UserId
  parts : Option (List PartId)
  total : Option Money
  method : Option (Option PaymentMethod)
  transaction : Option (Option TransactionId)
  status : Option Status
  createdAt : Option Instant
  updatedAt : Option Instant

def record : Record Draft Order where
  name := "Order"
  blank := ⟨none, none, none, none, none, none, none, none, none⟩
  fields := [
    .ofCodec "id" OrderId.codec Draft.id fun s x => { s with id := some x },
    .ofCodec "user_id" UserId.codec Draft.user fun s x => { s with user := some x },
    .ofCodec "part_ids" PartId.codec.list Draft.parts fun s x => { s with parts := some x },
    .ofCodec "total_price" Money.codec Draft.total fun s x => { s with total := some x },
    .ofCodec "payment_method" PaymentMethod.codec.optional Draft.method
      fun s x => { s with method := some x },
    .ofCodec "transaction_id" TransactionId.codec.optional Draft.transaction
      fun s x => { s with transaction := some x },
    .ofCodec "status" Status.codec Draft.status fun s x => { s with status := some x },
    .ofCodec "created_at" Instant.codec Draft.createdAt
      fun s x => { s with createdAt := some x },
    .ofCodec "updated_at" Instant.codec Draft.updatedAt
      fun s x => { s with updatedAt := some x }]
  finish s := do
    let id ← Record.needed "id" s.id
    let user ← Record.needed "user_id" s.user
    let parts ← Record.needed "part_ids" s.parts
    let total ← Record.needed "total_price" s.total
    let status ← Record.needed "status" s.status
    let createdAt ← Record.needed "created_at" s.createdAt
    let updatedAt ← Record.needed "updated_at" s.updatedAt
    .ok {
      id, user, parts, total, status, createdAt, updatedAt
      method := s.method.join
      transaction := s.transaction.join }

def codec : Codec Order := record.codec

def toJson (o : Order) : Value :=
  .object [
    ("id", o.id.toJson),
    ("user_id", o.user.toJson),
    ("part_ids", .array (o.parts.map PartId.toJson)),
    ("total_price", o.total.toJson),
    ("payment_method", Json.ofOption PaymentMethod.toJson o.method),
    ("transaction_id", Json.ofOption TransactionId.toJson o.transaction),
    ("status", o.status.toJson),
    ("created_at", o.createdAt.toJson),
    ("updated_at", o.updatedAt.toJson)]

/-- The order as clients see it. -/
def answer (o : Order) : Value :=
  .object [
    ("order_uuid", o.id.toJson),
    ("user_uuid", o.user.toJson),
    ("part_uuids", .array (o.parts.map PartId.toJson)),
    ("total_price", o.total.toJson),
    ("transaction_uuid", Json.ofOption TransactionId.toJson o.transaction),
    ("payment_method", Json.ofOption PaymentMethod.toJson o.method),
    ("status", o.status.toJson),
    ("created_at", .text o.createdAt.offsetText),
    ("updated_at", .text o.updatedAt.offsetText)]

end Shipyard.Order

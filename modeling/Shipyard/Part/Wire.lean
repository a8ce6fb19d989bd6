import Shipyard.Wire

/-!
# Parts in JSON
-/

namespace Shipyard.Part

open Json (Codec Field Record Value)

structure Draft where
  id : Option PartId
  name : Option String
  price : Option Money
  quantity : Option Int

def record : Record Draft Part where
  name := "Part"
  blank := ⟨none, none, none, none⟩
  fields := [
    .ofCodec "id" PartId.codec Draft.id fun s x => { s with id := some x },
    .ofCodec "name" Codec.text Draft.name fun s x => { s with name := some x },
    .ofCodec "price" Money.codec Draft.price fun s x => { s with price := some x },
    .ofCodec "stock_quantity" int64 Draft.quantity fun s x => { s with quantity := some x }]
  finish s := do
    let id ← Record.needed "id" s.id
    let name ← Record.needed "name" s.name
    let price ← Record.needed "price" s.price
    let quantity ← Record.needed "stock_quantity" s.quantity
    .ok { id, name, price, quantity }

def codec : Codec Part := record.codec

def toJson (p : Part) : Value :=
  .object [
    ("id", p.id.toJson),
    ("name", .text p.name),
    ("price", p.price.toJson),
    ("stock_quantity", Json.ofInt p.quantity)]

end Shipyard.Part

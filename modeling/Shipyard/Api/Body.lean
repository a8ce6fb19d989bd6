import Shipyard.Json.Record

/-!
# Request bodies of the order API
-/

namespace Shipyard.Api

open Json (Codec Field Record)

/-- What is ordered. The way to pay is not looked at yet. -/
structure NewOrder where
  parts : List String
  method : Option String
deriving DecidableEq, Repr

namespace NewOrder

structure Draft where
  parts : Option (List String)
  method : Option (Option String)

def record : Record Draft NewOrder where
  name := "CreateOrderRequest"
  blank := ⟨none, none⟩
  fields := [
    .ofCodec "part_uuids" Codec.text.list Draft.parts fun s x => { s with parts := some x },
    { Field.ofCodec "payment_method" Codec.text.optional Draft.method
        fun s x => { s with method := some x } with omissible := true }]
  finish s := do
    let parts ← Record.needed "part_uuids" s.parts
    .ok { parts, method := s.method.join }

def codec : Codec NewOrder := record.codec

end NewOrder

/-- How an order is paid. -/
structure NewPayment where
  method : String
deriving DecidableEq, Repr

namespace NewPayment

def record : Record (Option String) NewPayment where
  name := "PayOrderRequest"
  blank := none
  fields := [.ofCodec "payment_method" Codec.text id fun _ x => some x]
  finish s := do .ok ⟨← Record.needed "payment_method" s⟩

def codec : Codec NewPayment := record.codec

end NewPayment
end Shipyard.Api

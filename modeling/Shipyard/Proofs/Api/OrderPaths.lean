import Shipyard.Api
import Shipyard.Event
import Shipyard.Bus.Partition
import Shipyard.Proofs.Uuid.Spellings

/-!
# Orders and the paths that name them

A path may spell the identifier of an order in any way that is read as the same digits. What is done
and answered is the same, and so are the key and the partition of whatever is announced.
-/

namespace Shipyard.Api

variable {q : Web.Request} {c : Config}

/-- The routes to one order, by its segment of the path. -/
def orderRoutes : List (Bytes → Route) := [.order, .pay, .cancel]

theorem pathText_bytes (s : String) : pathText (Text.bytes s) = .ok s := by
  rw [pathText, Text.ofBytes?_bytes]

/-- What is done for an order depends on what its segment is read as, and not on the target. -/
theorem handle_congr {s t : String} (same : readId s = readId t) {route : Bytes → Route}
    (mem : route ∈ orderRoutes) (a b : String) :
    handle c { q with target := a } (route (Text.bytes s)) =
      handle c { q with target := b } (route (Text.bytes t)) := by
  simp only [orderRoutes, List.mem_cons, List.not_mem_nil, or_false] at mem
  rcases mem with rfl | rfl | rfl
  · simp only [handle, find, pathText_bytes, bind, Except.bind, same]
    rfl
  · simp only [handle, pay, pathText_bytes, bind, Except.bind, same]
    rfl
  · simp only [handle, cancel, pathText_bytes, bind, Except.bind, same]
    rfl

theorem isRead_congr {route : Bytes → Route} (mem : route ∈ orderRoutes) (x y : Bytes) :
    (route x).isRead = (route y).isRead := by
  simp only [orderRoutes, List.mem_cons, List.not_mem_nil, or_false] at mem
  rcases mem with rfl | rfl | rfl <;> rfl

theorem serve_congr {s t : String} (same : readId s = readId t) {route : Bytes → Route}
    (mem : route ∈ orderRoutes) {a b : String}
    (found : Route.ofTarget? a = some (route (Text.bytes s)))
    (found' : Route.ofTarget? b = some (route (Text.bytes t))) :
    serve c { q with target := a } = serve c { q with target := b } := by
  have read := isRead_congr mem (Text.bytes s) (Text.bytes t)
  have options' : options { q with target := a } = options { q with target := b } := by
    simp only [options, found, found', allowHeader, Route.allowed, read]
  have routed' : routed c { q with target := a } = routed c { q with target := b } := by
    simp only [routed, found, found', Route.accepts, allowHeader, Route.allowed, read,
      handle_congr same mem a b]
  rw [serve, serve, options', routed']

/-- Two texts that name one order: they are read as one identifier, requests with them in the path
are served alike, and what is announced of the order has the given key. -/
structure NameOneOrder (key s t : String) : Prop where
  read : ∃ id, OrderId.parse s = .ok id ∧ OrderId.parse t = .ok id
  served : ∀ (c : Config) (q : Web.Request), ∀ route ∈ orderRoutes, ∀ a b,
    Route.ofTarget? a = some (route (Text.bytes s)) →
      Route.ofTarget? b = some (route (Text.bytes t)) →
        serve c { q with target := a } = serve c { q with target := b }
  keyed : ∀ x y : Event, OrderId.parse s = .ok x.order → OrderId.parse t = .ok y.order →
    x.key = key ∧ y.key = key ∧ ∀ n, Bus.partitionOf x.key n = Bus.partitionOf y.key n

theorem nameOneOrder_of_spells {ds es : Uuid.Digits} (same : ds.lowered = es.lowered) {s t : String}
    (spelled : Uuid.Spells ds s.toList) (spelled' : Uuid.Spells es t.toList) :
    NameOneOrder (String.ofList (Uuid.grouped ds.lowered)) s t := by
  obtain ⟨u, read, shown⟩ := spelled.parse
  obtain ⟨v, read', shown'⟩ := spelled'.parse
  have text : u.text = String.ofList (Uuid.grouped ds.lowered) := by rw [Uuid.text, shown]
  have text' : v.text = u.text := by rw [Uuid.text, shown', ← same, text]
  obtain rfl : v = u := Uuid.text_injective text'
  have parsed : OrderId.parse s = .ok ⟨v⟩ := by rw [OrderId.parse, read]; rfl
  have parsed' : OrderId.parse t = .ok ⟨v⟩ := by rw [OrderId.parse, read']; rfl
  constructor
  · exact ⟨⟨v⟩, parsed, parsed'⟩
  · intro c q route mem a b found found'
    have ids : readId s = readId t := by rw [readId, readId, parsed, parsed']
    exact serve_congr ids mem found found'
  · intro x y order order'
    rw [parsed] at order
    rw [parsed'] at order'
    have key : x.key = v.text := by rw [Event.key, ← Except.ok.inj order]; rfl
    have key' : y.key = v.text := by rw [Event.key, ← Except.ok.inj order']; rfl
    rw [key, key']
    exact ⟨text, text, fun _ => rfl⟩

theorem exists_parse_orderId_iff {s : String} :
    (∃ id, OrderId.parse s = .ok id) ↔ ∃ ds, Uuid.Spells ds s.toList := by
  rw [← Uuid.exists_parse_iff]
  constructor
  · rintro ⟨id, read⟩
    rw [OrderId.parse] at read
    cases parsed : Uuid.parse s with
    | ok u => exact ⟨u, rfl⟩
    | error e =>
      rw [parsed] at read
      cases read
  · rintro ⟨u, read⟩
    exact ⟨⟨u⟩, by rw [OrderId.parse, read]; rfl⟩

/-- The texts of order identifiers. An identifier is read from its text, which no other one has; the
four ways to spell thirty-two digits are read, and nothing else is; and all that is spelled with the
same digits up to case names one order, by whatever path it is asked for. -/
theorem order_ids_exact :
    (∀ id : OrderId, OrderId.parse id.text = .ok id) ∧
      (∀ a b : OrderId, a.text = b.text → a = b) ∧
      (∀ s, (∃ id, OrderId.parse s = .ok id) ↔ ∃ ds, Uuid.Spells ds s.toList) ∧
      ∀ (ds es : Uuid.Digits) (s t : String), ds.lowered = es.lowered →
        Uuid.Spells ds s.toList → Uuid.Spells es t.toList →
          NameOneOrder (String.ofList (Uuid.grouped ds.lowered)) s t := by
  refine ⟨?_, fun _ _ same => OrderId.text_injective same, fun s => exists_parse_orderId_iff, ?_⟩
  · intro id
    rw [OrderId.parse, OrderId.text, Uuid.parse_text]
    rfl
  · intro ds es s t same spelled spelled'
    exact nameOneOrder_of_spells same spelled spelled'

/-- Capital digits alone, and small ones in groups after a word with an escape in it, in the path of a
payment. -/
theorem order_ids_exact_two_paths :
    Route.ofTarget? "/orders/67E5504410B1426F9247BB680E5FE0C8/pay" =
        some (.pay (Text.bytes "67E5504410B1426F9247BB680E5FE0C8")) ∧
      Route.ofTarget? "/orders/Urn%3Auuid:67e55044-10b1-426f-9247-bb680e5fe0c8/pay" =
        some (.pay (Text.bytes "Urn:uuid:67e55044-10b1-426f-9247-bb680e5fe0c8")) ∧
      NameOneOrder "67e55044-10b1-426f-9247-bb680e5fe0c8" "67E5504410B1426F9247BB680E5FE0C8"
        "Urn:uuid:67e55044-10b1-426f-9247-bb680e5fe0c8" := by
  let capital : Uuid.Digits :=
    ⟨"67E5504410B1426F9247BB680E5FE0C8".toList, by decide +kernel, by decide +kernel⟩
  let small : Uuid.Digits :=
    ⟨"67e5504410b1426f9247bb680e5fe0c8".toList, by decide +kernel, by decide +kernel⟩
  have urn : "Urn:uuid:67e55044-10b1-426f-9247-bb680e5fe0c8".toList =
      "Urn:uuid:".toList ++ Uuid.grouped small.chars := by
    decide +kernel
  have key : "67e55044-10b1-426f-9247-bb680e5fe0c8" =
      String.ofList (Uuid.grouped capital.lowered) := by
    decide +kernel
  refine ⟨by decide +kernel, by decide +kernel, ?_⟩
  rw [key]
  refine order_ids_exact.2.2.2 capital small _ _ (by decide +kernel) .plain ?_
  rw [urn]
  exact .urn (by decide +kernel)

end Shipyard.Api

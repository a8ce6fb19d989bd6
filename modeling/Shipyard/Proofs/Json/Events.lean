import Shipyard.Event.Wire
import Shipyard.Proofs.Identifiers
import Shipyard.Proofs.Json.Objects

/-!
# Events that were written

An event is read back from its payload on every topic of its kind, and on no other. Its fields are
written in one order and read in the order of their names.
-/

namespace Shipyard

open Json (Codec Field Reads Record Value)

section Parts

@[simp] theorem Uuid.ofValue_toJson (u : Uuid) : Uuid.codec.ofValue u.toJson = .ok u := by
  simp [Uuid.codec, Codec.textAs, Codec.atom, Uuid.toJson, Uuid.parse_text]

@[simp] theorem OrderId.ofValue_toJson (id : OrderId) :
    OrderId.codec.ofValue id.toJson = .ok id := by
  simp [OrderId.codec, Codec.map, OrderId.toJson, Except.map]

@[simp] theorem EventId.ofValue_toJson (id : EventId) :
    EventId.codec.ofValue id.toJson = .ok id := by
  simp [EventId.codec, Codec.map, EventId.toJson, Except.map]

@[simp] theorem TransactionId.ofValue_toJson (id : TransactionId) :
    TransactionId.codec.ofValue id.toJson = .ok id := by
  simp [TransactionId.codec, Codec.map, TransactionId.toJson, Except.map]

@[simp] theorem UserId.ofValue_toJson (id : UserId) :
    UserId.codec.ofValue id.toJson = .ok id := by
  simp [UserId.codec, Codec.map, UserId.toJson, Codec.text, Codec.atom, Except.map]

@[simp] theorem PaymentMethod.ofValue_toJson (m : PaymentMethod) :
    PaymentMethod.codec.ofValue m.toJson = .ok m := by
  cases m <;> rfl

theorem Json.ofValue_ofNat (expected : String) {bits n : Nat} (fits : n < Nat.pow 2 bits) :
    (Codec.natural expected bits).ofValue (Json.ofNat n) = .ok n := by
  have inside : (n : Int) < 2 ^ bits := by exact_mod_cast fits
  simp [Codec.natural, Codec.atom, Json.ofNat, inside]

end Parts

namespace PaymentCompleted

/-- A payment as it is read, with its fields in the order of their names. -/
def tree (p : PaymentCompleted) : Value :=
  .object [
    ("event_id", p.event.toJson),
    ("order_id", p.order.toJson),
    ("payment_method", p.method.toJson),
    ("transaction_id", p.transaction.toJson),
    ("user_id", p.user.toJson)]

theorem reads_toJson (p : PaymentCompleted) : Reads (Json.value 126) p.toJson.chars p.tree := by
  refine Json.value_object_sorted 125 ?_ fun f mem => ?_
  · simp only [List.foldl_cons, List.foldl_nil, Json.putField, reduceIte, String.reduceEq,
      String.reduceLT]
  · simp only [List.mem_cons, List.not_mem_nil, or_false] at mem
    rcases mem with rfl | rfl | rfl | rfl | rfl
    all_goals exact Json.value_text 125 _

theorem ofValue_tree (p : PaymentCompleted) : codec.ofValue p.tree = .ok p := by
  have event := Json.takeField_of_find record "event_id" rfl p.event.ofValue_toJson
  have order := Json.takeField_of_find record "order_id" rfl p.order.ofValue_toJson
  have user := Json.takeField_of_find record "user_id" rfl p.user.ofValue_toJson
  have method := Json.takeField_of_find record "payment_method" rfl p.method.ofValue_toJson
  have transaction :=
    Json.takeField_of_find record "transaction_id" rfl p.transaction.ofValue_toJson
  refine Json.ofValue_object
    (s := ⟨some p.event, some p.order, some p.user, some p.method, some p.transaction⟩) ?_ rfl
  rw [Json.foldlM_takeField (event _), Json.foldlM_takeField (order _),
    Json.foldlM_takeField (method _), Json.foldlM_takeField (transaction _),
    Json.foldlM_takeField (user _)]
  rfl

/-- A payment is no build: it took no time. -/
theorem misfits_build (p : PaymentCompleted) :
    BuildCompleted.codec.ofValue p.tree = .error (.missing "build_time_sec") := by
  have event := Json.takeField_of_find BuildCompleted.record "event_id" rfl p.event.ofValue_toJson
  have order := Json.takeField_of_find BuildCompleted.record "order_id" rfl p.order.ofValue_toJson
  have user := Json.takeField_of_find BuildCompleted.record "user_id" rfl p.user.ofValue_toJson
  refine Json.ofValue_object_unfinished
    (s := ⟨some p.event, some p.order, some p.user, none⟩) ?_ rfl
  rw [Json.foldlM_takeField (event _), Json.foldlM_takeField (order _),
    Json.foldlM_takeField (Json.takeField_unknown rfl _),
    Json.foldlM_takeField (Json.takeField_unknown rfl _), Json.foldlM_takeField (user _)]
  rfl

end PaymentCompleted

namespace BuildCompleted

/-- A build as it is read, with its fields in the order of their names. -/
def tree (b : BuildCompleted) : Value :=
  .object [
    ("build_time_sec", Json.ofNat b.seconds),
    ("event_id", b.event.toJson),
    ("order_id", b.order.toJson),
    ("user_id", b.user.toJson)]

theorem reads_toJson (b : BuildCompleted) : Reads (Json.value 126) b.toJson.chars b.tree := by
  refine Json.value_object_sorted 125 ?_ fun f mem => ?_
  · simp only [List.foldl_cons, List.foldl_nil, Json.putField, reduceIte, String.reduceEq,
      String.reduceLT]
  · simp only [List.mem_cons, List.not_mem_nil, or_false] at mem
    rcases mem with rfl | rfl | rfl | rfl
    · exact Json.value_text 125 _
    · exact Json.value_text 125 _
    · exact Json.value_text 125 _
    · exact Json.value_natural 125 b.inRange

theorem ofValue_tree (b : BuildCompleted) : codec.ofValue b.tree = .ok b := by
  have small : b.seconds < Nat.pow 2 64 := lt_of_lt_of_eq b.inRange (by decide)
  have event := Json.takeField_of_find record "event_id" rfl b.event.ofValue_toJson
  have order := Json.takeField_of_find record "order_id" rfl b.order.ofValue_toJson
  have user := Json.takeField_of_find record "user_id" rfl b.user.ofValue_toJson
  have seconds := Json.takeField_of_find record "build_time_sec" rfl
    (Json.ofValue_ofNat "u64" small)
  have finished : record.finish ⟨some b.event, some b.order, some b.user, some b.seconds⟩ =
      .ok b := by
    simp [record, Record.needed, bind, Except.bind, b.inRange]
  refine Json.ofValue_object ?_ finished
  rw [Json.foldlM_takeField (seconds _), Json.foldlM_takeField (event _),
    Json.foldlM_takeField (order _), Json.foldlM_takeField (user _)]
  rfl

/-- A build is no payment: nothing was paid with. -/
theorem misfits_payment (b : BuildCompleted) :
    PaymentCompleted.codec.ofValue b.tree = .error (.missing "payment_method") := by
  have event := Json.takeField_of_find PaymentCompleted.record "event_id" rfl b.event.ofValue_toJson
  have order := Json.takeField_of_find PaymentCompleted.record "order_id" rfl b.order.ofValue_toJson
  have user := Json.takeField_of_find PaymentCompleted.record "user_id" rfl b.user.ofValue_toJson
  refine Json.ofValue_object_unfinished
    (s := ⟨some b.event, some b.order, some b.user, none, none⟩) ?_ rfl
  rw [Json.foldlM_takeField (Json.takeField_unknown rfl _), Json.foldlM_takeField (event _),
    Json.foldlM_takeField (order _), Json.foldlM_takeField (user _)]
  rfl

end BuildCompleted

/-- An envelope is read with the event as the tree that it is read as. -/
theorem Envelope.decode_bytes {v w : Value} (reads : Reads (Json.value 126) v.chars w) :
    codec.decode (Value.bytes (toJson ⟨Event.version, v⟩)) = .ok ⟨Event.version, w⟩ := by
  let version := Json.fieldText "version" (Json.ofNat Event.version).chars
  let event := 44 :: 34 :: (Json.fieldText "event" v.chars ++ [125])
  have text : Value.bytes (toJson ⟨Event.version, v⟩) = 123 :: 34 :: (version ++ event) := by
    have object := Json.encoded_object [("version", Json.ofNat Event.version), ("event", v)] []
    rw [Json.encoded_separated] at object
    simpa [Json.fieldsText, Value.bytes, Value.print, Text.bytes_ofList, toJson] using object
  have readVersion := Json.natural_reads "u32" (show Event.version < Nat.pow 2 32 by decide)
    (by decide) 126 event (Json.endsNumber_comma _)
  have readEvent : Codec.any.read 126 (Text.encoded v.chars ++ [125]) = .ok (w, [125]) :=
    reads [125] (Json.endsNumber_brace [])
  have fields (n : Nat) (long : 2 < n) :
      record.readFields 126 n true record.blank (34 :: (version ++ event)) =
        .ok (⟨some Event.version, some w⟩, [125]) := by
    obtain ⟨m, rfl⟩ : ∃ m, n = m + 3 := ⟨n - 3, by omega⟩
    rw [Json.readFields_field (Json.nextKey_first _) rfl rfl readVersion,
      Json.readFields_field (Json.nextKey_comma _) rfl rfl readEvent]
    exact Json.readFields_brace
  have visible := Json.skipBlanks_cons (show Json.isBlank 123 = false by decide)
    (34 :: (version ++ event))
  have long : 2 < (34 :: (version ++ event)).length + 1 := by
    simp only [event, List.length_cons, List.length_append]
    omega
  have read : record.read 127 (123 :: 34 :: (version ++ event)) =
      .ok (⟨Event.version, w⟩, []) := by
    simp only [Record.read, visible, fields _ long, bind, Except.bind]
    simp [record, Record.needed, Json.fit, Json.closing_brace, bind, Except.bind]
  rw [text]
  simp [Codec.decode, codec, Record.codec, Json.deepest, read, Json.skipBlanks, bind, Except.bind]

namespace Event

/-- An event as it is read. -/
def tree : Event → Value
  | .payment p => p.tree
  | .build b => b.tree

theorem reads_toJson (e : Event) : Reads (Json.value 126) e.toJson.chars e.tree := by
  cases e with
  | payment p => exact p.reads_toJson
  | build b => exact b.reads_toJson

theorem ofValue_tree (e : Event) : ofValue (kindOf e.topic) e.tree = .ok e := by
  cases e with
  | payment p =>
    show (PaymentCompleted.codec.ofValue p.tree).map Event.payment = .ok (.payment p)
    rw [p.ofValue_tree]
    rfl
  | build b =>
    show (BuildCompleted.codec.ofValue b.tree).map Event.build = .ok (.build b)
    rw [b.ofValue_tree]
    rfl

/-- An event of one kind is none of the other. -/
theorem misfits_other {kind : Kind} {e : Event} (other : kind ≠ kindOf e.topic) :
    ∃ cause, ofValue kind e.tree = .error cause := by
  cases e with
  | payment p =>
    cases kind with
    | payment => exact absurd rfl other
    | build =>
      refine ⟨.missing "build_time_sec", ?_⟩
      show (BuildCompleted.codec.ofValue p.tree).map Event.build = .error _
      rw [p.misfits_build]
      rfl
  | build b =>
    cases kind with
    | payment =>
      refine ⟨.missing "payment_method", ?_⟩
      show (PaymentCompleted.codec.ofValue b.tree).map Event.payment = .error _
      rw [b.misfits_payment]
      rfl
    | build => exact absurd rfl other

/-- What is read from the payload of an event, on any topic. -/
theorem decode_encode_eq (t : Topic) (e : Event) :
    decode t e.encode = match ofValue (kindOf t) e.tree with
      | .ok e => .ok e
      | .error m => .error (.malformed (.unfit [] m)) := by
  have read := Envelope.decode_bytes e.reads_toJson
  cases found : ofValue (kindOf t) e.tree with
  | error m => simp [decode, encode, read, found]
  | ok e' => simp [decode, encode, read, found]

/-- An event is read back from its payload. -/
theorem decode_encode {t : Topic} {e : Event} (kind : kindOf t = kindOf e.topic) :
    decode t e.encode = .ok e := by
  rw [decode_encode_eq, kind, e.ofValue_tree]

theorem kindOf_eq_iff (t : Topic) (e : Event) :
    kindOf t = kindOf e.topic ↔ t = e.topic ∨ t = e.topic.deadLetters := by
  cases e <;> cases t <;> simp [kindOf, topic, Topic.deadLetters]

/-- What is decoded on a topic is of the kind of the topic. -/
theorem kind_of_decode {t : Topic} {payload : Bytes} {e : Event}
    (decoded : decode t payload = .ok e) : kindOf e.topic = kindOf t := by
  rw [decode] at decoded
  split at decoded
  · cases decoded
  · next envelope _ =>
    split at decoded
    · cases decoded
    · split at decoded
      · next e' read =>
        cases decoded
        cases kind : kindOf t with
        | payment =>
          rw [kind, ofValue] at read
          cases payment : PaymentCompleted.codec.ofValue envelope.event with
          | error m =>
            rw [payment] at read
            cases read
          | ok p =>
            rw [payment] at read
            cases read
            rfl
        | build =>
          rw [kind, ofValue] at read
          cases build : BuildCompleted.codec.ofValue envelope.event with
          | error m =>
            rw [build] at read
            cases read
          | ok b =>
            rw [build] at read
            cases read
            rfl
      · cases decoded

/-- The payload of an event gives the event on its topic and among the dead letters of that; on the
topics of the other kind it is malformed. -/
theorem wire_round_trip (e : Event) (t : Topic) :
    if t = e.topic ∨ t = e.topic.deadLetters then decode t e.encode = .ok e
    else ∃ cause, decode t e.encode = .error (.malformed cause) := by
  split
  · next own => exact decode_encode ((kindOf_eq_iff t e).mpr own)
  · next other =>
    obtain ⟨cause, misfit⟩ := misfits_other (mt (kindOf_eq_iff t e).mp other)
    exact ⟨_, by rw [decode_encode_eq, misfit]⟩

end Event

theorem PaymentCompleted.decode_encode (p : PaymentCompleted) :
    decode .paid (Event.payment p).encode = .ok p := by
  have read : Event.decode .paid (Event.payment p).encode = .ok (.payment p) :=
    Event.decode_encode rfl
  simp [decode, read, bind, Except.bind]

theorem BuildCompleted.decode_encode (b : BuildCompleted) :
    decode .assembled (Event.build b).encode = .ok b := by
  have read : Event.decode .assembled (Event.build b).encode = .ok (.build b) :=
    Event.decode_encode rfl
  simp [decode, read, bind, Except.bind]

end Shipyard

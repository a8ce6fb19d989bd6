import Mathlib.Data.List.Nodup
import Shipyard.Proofs.Json.Events
import Shipyard.Proofs.Json.Passing

/-!
# Envelopes of others

A producer may write the members of an envelope and of its event in another order than this one
does, with other blanks and escapes, and with members that nobody knows here. The event is read all
the same. Of an envelope with another version nothing but the version counts.
-/

namespace Shipyard

namespace Json

/-- The fields of an object; nothing else has any. -/
def Value.fields : Value → List (String × Value)
  | .object fields => fields
  | _ => []

/-- The bytes are a text of an object with these fields, in this order. -/
inductive SpellsObject : Nat → Bytes → List (String × Value) → Prop
  | mk {d : Nat} {before blanks after : Bytes} {members : List Member} :
    AreBlank before → AreBlank blanks → AreBlank after →
      (∀ m ∈ members, m.IsKeyed) → (∀ m ∈ members, Spells d m.text m.value) →
      SpellsObject (d + 1)
        (before ++ 123 :: (blanks ++ (joined (members.map Member.bytes) ++ 125 :: after)))
        (members.map Member.field)

section Distinct

variable {fields : List (String × Value)}

theorem putField_perm {name : String} (v : Value) (new : name ∉ fields.map Prod.fst) :
    (putField name v fields).Perm ((name, v) :: fields) := by
  induction fields with
  | nil => exact List.Perm.refl _
  | cons f fields ih =>
    obtain ⟨n, w⟩ := f
    rw [List.map_cons, List.mem_cons, not_or] at new
    rw [putField, if_neg new.1]
    split
    · exact List.Perm.refl _
    · exact ((ih new.2).cons (n, w)).trans (List.Perm.swap ..)

/-- Fields with different names are only put into another order. -/
theorem ordered_perm (distinct : (fields.map Prod.fst).Nodup) : (ordered fields).Perm fields := by
  have onto (fields taken : List (String × Value))
      (distinct : ((taken ++ fields).map Prod.fst).Nodup) :
      (fields.foldl (fun fields f => putField f.1 f.2 fields) taken).Perm (taken ++ fields) := by
    induction fields generalizing taken with
    | nil => simp
    | cons f fields ih =>
      have new : f.1 ∉ taken.map Prod.fst := by
        rw [List.map_append, List.map_cons, List.nodup_append] at distinct
        intro mem
        exact distinct.2.2 f.1 mem f.1 (by simp) rfl
      have put := putField_perm f.2 new
      have moved : (putField f.1 f.2 taken ++ fields).Perm (taken ++ f :: fields) :=
        (put.append_right fields).trans List.perm_middle.symm
      exact (ih _ ((moved.map Prod.fst).nodup_iff.mpr distinct)).trans moved
  exact onto fields [] distinct

theorem eq_of_distinct (distinct : (fields.map Prod.fst).Nodup) {f g : String × Value}
    (mem : f ∈ fields) (mem' : g ∈ fields) (same : f.1 = g.1) : f = g :=
  List.inj_on_of_nodup_map distinct mem mem' same

end Distinct

section Records

variable {σ α : Type} {d n : Nat} {bs rest left : Bytes} {v : Value}

/-- A value without parts is read as it would be from a tree. -/
theorem atom_read {expected : String} {take : Value → Except Misfit α}
    (read : value d bs = .ok (v, left)) (noArray : ∀ xs, v ≠ .array xs)
    (noObject : ∀ fields, v ≠ .object fields) :
    (Codec.atom expected take).read d bs = (fit (take v)).map fun x => (x, left) := by
  unfold value at read
  cases shape : skipBlanks bs with
  | nil =>
    rw [shape] at read
    cases read
  | cons b later =>
    rw [shape] at read
    simp only at read
    split at read
    · cases d with
      | zero => cases read
      | succ d =>
        obtain ⟨xs, -, read⟩ := bind_eq_ok read
        obtain ⟨r, -, read⟩ := bind_eq_ok read
        cases read
        exact absurd rfl (noArray _)
    · next bracket =>
      split at read
      · cases d with
        | zero => cases read
        | succ d =>
          obtain ⟨xs, -, read⟩ := bind_eq_ok read
          obtain ⟨r, -, read⟩ := bind_eq_ok read
          cases read
          exact absurd rfl (noObject _)
      · next brace =>
        simp only [Codec.atom, shape, bracket, brace, or_self, if_false, read, bind, Except.bind]
        cases fit (take v) <;> rfl

theorem natural_read (expected : String) {bits n : Nat} (fits : n < Nat.pow 2 bits)
    (read : value d bs = .ok (ofNat n, left)) :
    (Codec.natural expected bits).read d bs = .ok (n, left) := by
  have inside : (n : Int) < 2 ^ bits := by exact_mod_cast fits
  rw [Codec.natural, atom_read read (by simp [ofNat]) (by simp [ofNat])]
  simp [ofNat, inside, fit, Except.map]

/-- What a record has gathered from keys goes by which of them were seen. A key with its value is
read onto that, unless the key was seen before. -/
def Gathers (r : Record σ α) (d : Nat) (draft : List String → σ) (m : Member) : Prop :=
  ∀ seen rest, m.name ∉ seen → EndsNumber rest → ∃ left, AreBlank left ∧
    r.readField d (draft seen) (m.key ++ 34 :: (m.between ++ 58 :: (m.text ++ rest))) =
      .ok (draft (m.name :: seen), left ++ rest)

variable {r : Record σ α} {draft : List String → σ}

theorem readField_known {β : Type} {m : Member} (keyed : m.IsKeyed) {c : Codec β}
    {get : σ → Option β} {set : σ → β → σ} {s : σ} {x : β}
    (known : (r.fields.find? fun f => f.name = m.name) = some (.ofCodec m.name c get set))
    (unfilled : get s = none) (read : c.read d (m.text ++ rest) = .ok (x, left ++ rest)) :
    r.readField d s (m.key ++ 34 :: (m.between ++ 58 :: (m.text ++ rest))) =
      .ok (set s x, left ++ rest) := by
  simp [Record.readField, string_member keyed, known, Field.ofCodec, unfilled, colon_member keyed,
    read, inside_ok, bind, Except.bind]

theorem readField_unknown {m : Member} (keyed : m.IsKeyed) (spells : Spells d m.text m.value)
    (unknown : (r.fields.find? fun f => f.name = m.name) = none) (ends : EndsNumber rest) (s : σ) :
    ∃ left, AreBlank left ∧
      r.readField d s (m.key ++ 34 :: (m.between ++ 58 :: (m.text ++ rest))) =
        .ok (s, left ++ rest) := by
  obtain ⟨left, blank, passed⟩ := spells.passValue ends
  refine ⟨left, blank, ?_⟩
  simp [Record.readField, string_member keyed, unknown, colon_member keyed, passed, bind,
    Except.bind]

theorem readFields_member {m : Member} (keyed : m.IsKeyed) (gathers : Gathers r d draft m)
    (ends : EndsNumber rest) (blank : AreBlank left) (first : Bool) {seen : List String}
    (new : m.name ∉ seen) :
    ∃ left', AreBlank left' ∧ ∀ n : Nat,
      r.readFields d (n + 1) first (draft seen) (left ++ (lead first ++ (m.bytes ++ rest))) =
        r.readFields d n false (draft (m.name :: seen)) (left' ++ rest) := by
  obtain ⟨left', blank', read⟩ := gathers seen rest new ends
  refine ⟨left', blank', fun n => ?_⟩
  simp [Record.readFields, nextKey_member keyed blank, read, bind, Except.bind]

theorem readFields_end (blank : AreBlank left) (first : Bool) (s : σ) (n : Nat) (rest : Bytes) :
    r.readFields d (n + 1) first s (left ++ 125 :: rest) = .ok (s, 125 :: rest) := by
  simp [Record.readFields, nextKey_end blank, bind, Except.bind]

theorem readFields_later {members : List Member} (keyed : ∀ m ∈ members, m.IsKeyed)
    (gathers : ∀ m ∈ members, Gathers r d draft m) (blank : AreBlank left) {seen : List String}
    (distinct : ((members.map Member.name).reverse ++ seen).Nodup) (rest : Bytes)
    (fuel : members.length < n) :
    r.readFields d n false (draft seen)
        (left ++ ((members.map Member.bytes).flatMap (44 :: ·) ++ 125 :: rest)) =
      .ok (draft ((members.map Member.name).reverse ++ seen), 125 :: rest) := by
  induction members generalizing n left seen with
  | nil =>
    obtain ⟨k, rfl⟩ : ∃ k, n = k + 1 := ⟨n - 1, by omega⟩
    exact readFields_end blank false _ k rest
  | cons m members ih =>
    rw [List.length_cons] at fuel
    obtain ⟨k, rfl⟩ : ∃ k, n = k + 1 := ⟨n - 1, by omega⟩
    have turned : ((m :: members).map Member.name).reverse ++ seen =
        (members.map Member.name).reverse ++ m.name :: seen := by simp
    rw [turned] at distinct ⊢
    have new : m.name ∉ seen := (List.nodup_cons.mp (List.nodup_append.mp distinct).2.1).1
    have ends := endsNumber_parts (endsNumber_brace rest) (members.map Member.bytes)
    obtain ⟨left', blank', step⟩ :=
      readFields_member (keyed m (by simp)) (gathers m (by simp)) ends blank false new
    have others := ih (fun m mem => keyed m (List.mem_cons_of_mem _ mem))
      (fun m mem => gathers m (List.mem_cons_of_mem _ mem)) blank' distinct
      (by omega : members.length < k)
    have step := step k
    rw [others] at step
    simpa [lead] using step

/-- All members of an object, in whatever order, are gathered. -/
theorem readFields_members {members : List Member} (keyed : ∀ m ∈ members, m.IsKeyed)
    (gathers : ∀ m ∈ members, Gathers r d draft m) (blank : AreBlank left)
    (distinct : (members.map Member.name).Nodup) (rest : Bytes) (fuel : members.length < n) :
    r.readFields d n true (draft []) (left ++ (joined (members.map Member.bytes) ++ 125 :: rest)) =
      .ok (draft (members.map Member.name).reverse, 125 :: rest) := by
  obtain ⟨k, rfl⟩ : ∃ k, n = k + 1 := ⟨n - 1, by omega⟩
  cases members with
  | nil => exact readFields_end blank true _ k rest
  | cons m members =>
    rw [List.length_cons] at fuel
    have turned : ((m :: members).map Member.name).reverse =
        (members.map Member.name).reverse ++ [m.name] := by simp
    have distinct' : ((members.map Member.name).reverse ++ [m.name]).Nodup := by
      rw [← turned]
      exact List.nodup_reverse.mpr distinct
    have ends := endsNumber_parts (endsNumber_brace rest) (members.map Member.bytes)
    obtain ⟨left', blank', step⟩ := readFields_member (keyed m (by simp)) (gathers m (by simp)) ends
      blank true (List.not_mem_nil)
    have others := readFields_later (fun m mem => keyed m (List.mem_cons_of_mem _ mem))
      (fun m mem => gathers m (List.mem_cons_of_mem _ mem)) blank' distinct' rest
      (by omega : members.length < k)
    have step := step k
    rw [others, ← turned] at step
    simpa [lead, joined] using step

/-- An object is read as a record if the values of its members are enough for one. -/
theorem read_brace {before after : Bytes} {s : σ} {x : α} (blank : AreBlank before)
    (read : r.readFields d (bs.length + 1) true r.blank bs = .ok (s, 125 :: after))
    (finished : r.finish s = .ok x) : r.read (d + 1) (before ++ 123 :: bs) = .ok (x, after) := by
  have shape := skipBlanks_mark blank (by decide : isBlank 123 = false) bs
  simp [Record.read, shape, read, finished, fit, closing_brace, bind, Except.bind]

theorem decode_of_read {c : Codec α} {after : Bytes} {x : α}
    (read : c.read deepest bs = .ok (x, after)) (blank : AreBlank after) : c.decode bs = .ok x := by
  have none : skipBlanks after = [] := by
    have all := skipBlanks_append blank []
    rwa [List.append_nil] at all
  simp [Codec.decode, read, none, bind, Except.bind]

/-- What was gathered from the fields of a tree goes by their names as well. -/
theorem foldlM_takeFields {fields : List (String × Value)}
    (takes : ∀ f ∈ fields, ∀ seen, r.takeField (draft seen) f = .ok (draft (f.1 :: seen))) :
    fields.foldlM r.takeField (draft []) = .ok (draft (fields.map Prod.fst).reverse) := by
  have onto (seen : List String) : fields.foldlM r.takeField (draft seen) =
      .ok (draft ((fields.map Prod.fst).reverse ++ seen)) := by
    induction fields generalizing seen with
    | nil => rfl
    | cons f fields ih =>
      rw [foldlM_takeField (takes f (by simp) seen), ih fun f mem => takes f (by simp [mem])]
      simp
  have all := onto []
  rwa [List.append_nil] at all

theorem name_seen {fields : List (String × Value)} {name : String} {v : Value}
    (mem : (name, v) ∈ fields) : name ∈ (fields.map Prod.fst).reverse :=
  List.mem_reverse.mpr (List.mem_map_of_mem mem)

end Records

end Json

open Json (AreBlank Codec EndsNumber Field Member Record Spells SpellsObject Value)

namespace Envelope

/-- What was gathered of an envelope when some of its keys were seen. -/
def draft (n : Nat) (v : Value) (seen : List String) : Draft :=
  ⟨if "version" ∈ seen then some n else none, if "event" ∈ seen then some v else none⟩

variable {d n : Nat} {v : Value} {m : Member}

theorem gathers (small : n < 0x100000000) (keyed : m.IsKeyed) (spells : Spells d m.text m.value)
    (version : m.name = "version" → m.value = Json.ofNat n)
    (event : m.name = "event" → m.value = v) : Json.Gathers record d (draft n v) m := by
  intro seen rest new ends
  by_cases isVersion : m.name = "version"
  · obtain ⟨left, blank, read⟩ := spells.takes rest ends
    rw [version isVersion] at read
    have fits : n < Nat.pow 2 32 := lt_of_lt_of_eq small (by decide)
    have number := Json.natural_read "u32" fits read
    have known : (record.fields.find? fun f => f.name = m.name) =
        some (.ofCodec m.name (.natural "u32" 32) Draft.version
          fun s x => { s with version := some x }) := by
      rw [isVersion]
      rfl
    rw [isVersion] at new
    refine ⟨left, blank, ?_⟩
    rw [Json.readField_known keyed known (by simp [draft, new]) number]
    simp [draft, isVersion]
  by_cases isEvent : m.name = "event"
  · obtain ⟨left, blank, read⟩ := spells.takes rest ends
    rw [event isEvent] at read
    have known : (record.fields.find? fun f => f.name = m.name) =
        some (.ofCodec m.name .any Draft.event fun s x => { s with event := some x }) := by
      rw [isEvent]
      rfl
    rw [isEvent] at new
    refine ⟨left, blank, ?_⟩
    rw [Json.readField_known keyed known (by simp [draft, new]) read]
    simp [draft, isEvent]
  · have unknown : (record.fields.find? fun f => f.name = m.name) = none := by
      simp [record, Field.ofCodec, Ne.symm isVersion, Ne.symm isEvent]
    obtain ⟨left, blank, read⟩ :=
      Json.readField_unknown keyed spells unknown ends (draft n v seen)
    refine ⟨left, blank, ?_⟩
    rw [read]
    simp [draft, Ne.symm isVersion, Ne.symm isEvent]

/-- The payload is a text of an object with this version and this event, among other members with
other names. -/
def Carries (payload : Bytes) (n : Nat) (v : Value) : Prop :=
  ∃ fields, SpellsObject Json.deepest payload fields ∧ (fields.map Prod.fst).Nodup ∧
    ("version", Json.ofNat n) ∈ fields ∧ ("event", v) ∈ fields

/-- An envelope is read from any text that carries it. -/
theorem decode_of_carries {payload : Bytes} (small : n < 0x100000000)
    (carries : Carries payload n v) : codec.decode payload = .ok ⟨n, v⟩ := by
  obtain ⟨fields, spells, distinct, version, event⟩ := carries
  generalize deep : Json.deepest = depth at spells
  cases spells with
  | @mk d before blanks after members blank blank' blank'' keyed spells =>
    have names : (members.map Member.field).map Prod.fst = members.map Member.name := by
      rw [List.map_map]
      rfl
    have gathers : ∀ m ∈ members, Json.Gathers record d (draft n v) m := by
      intro m mem
      have listed : m.field ∈ members.map Member.field := List.mem_map_of_mem mem
      refine gathers small (keyed m mem) (spells m mem) (fun same => ?_) fun same => ?_
      · exact congrArg Prod.snd (Json.eq_of_distinct distinct listed version same)
      · exact congrArg Prod.snd (Json.eq_of_distinct distinct listed event same)
    have short := Json.length_le_joined (members.map Member.bytes)
    rw [List.length_map] at short
    rw [names] at distinct
    have read := Json.readFields_members keyed gathers blank' distinct after
      (n := (blanks ++ (Json.joined (members.map Member.bytes) ++ 125 :: after)).length + 1)
      (by simp only [List.length_append, List.length_cons]; omega)
    have seen : draft n v (members.map Member.name).reverse = ⟨some n, some v⟩ := by
      rw [← names, draft, if_pos (Json.name_seen version), if_pos (Json.name_seen event)]
    have nothing : draft n v [] = record.blank := by simp [record, draft]
    rw [seen, nothing] at read
    refine Json.decode_of_read ?_ blank''
    rw [deep]
    exact Json.read_brace blank read rfl

end Envelope

section Events

variable {fields : List (String × Value)}

namespace PaymentCompleted

/-- What was gathered of a payment when some of its keys were seen. -/
def draft (p : PaymentCompleted) (seen : List String) : Draft :=
  ⟨if "event_id" ∈ seen then some p.event else none,
    if "order_id" ∈ seen then some p.order else none,
    if "user_id" ∈ seen then some p.user else none,
    if "payment_method" ∈ seen then some p.method else none,
    if "transaction_id" ∈ seen then some p.transaction else none⟩

theorem takeField_draft {p : PaymentCompleted} (distinct : (fields.map Prod.fst).Nodup)
    (own : p.toJson.fields ⊆ fields) {f : String × Value} (mem : f ∈ fields)
    (seen : List String) : record.takeField (draft p seen) f = .ok (draft p (f.1 :: seen)) := by
  simp only [toJson, Value.fields, List.cons_subset] at own
  obtain ⟨event, order, user, method, transaction, -⟩ := own
  by_cases isEvent : f.1 = "event_id"
  · rw [Json.eq_of_distinct distinct mem event isEvent,
      Json.takeField_of_find record "event_id" rfl p.event.ofValue_toJson]
    simp [draft]
  by_cases isOrder : f.1 = "order_id"
  · rw [Json.eq_of_distinct distinct mem order isOrder,
      Json.takeField_of_find record "order_id" rfl p.order.ofValue_toJson]
    simp [draft]
  by_cases isUser : f.1 = "user_id"
  · rw [Json.eq_of_distinct distinct mem user isUser,
      Json.takeField_of_find record "user_id" rfl p.user.ofValue_toJson]
    simp [draft]
  by_cases isMethod : f.1 = "payment_method"
  · rw [Json.eq_of_distinct distinct mem method isMethod,
      Json.takeField_of_find record "payment_method" rfl p.method.ofValue_toJson]
    simp [draft]
  by_cases isTransaction : f.1 = "transaction_id"
  · rw [Json.eq_of_distinct distinct mem transaction isTransaction,
      Json.takeField_of_find record "transaction_id" rfl p.transaction.ofValue_toJson]
    simp [draft]
  · have unknown : (record.fields.find? fun g => g.name = f.1) = none := by
      simp [record, Field.ofCodec, Ne.symm isEvent, Ne.symm isOrder, Ne.symm isUser,
        Ne.symm isMethod, Ne.symm isTransaction]
    rw [Json.takeField_unknown unknown]
    simp [draft, Ne.symm isEvent, Ne.symm isOrder, Ne.symm isUser, Ne.symm isMethod,
      Ne.symm isTransaction]

/-- A payment is read from an object that has its fields, whatever else it has. -/
theorem ofValue_of_fields {p : PaymentCompleted} (distinct : (fields.map Prod.fst).Nodup)
    (own : p.toJson.fields ⊆ fields) : codec.ofValue (.object fields) = .ok p := by
  have taken := Json.foldlM_takeFields fun f mem => takeField_draft distinct own mem
  have nothing : draft p [] = record.blank := by simp [draft, record]
  simp only [toJson, Value.fields, List.cons_subset] at own
  obtain ⟨event, order, user, method, transaction, -⟩ := own
  have whole : draft p (fields.map Prod.fst).reverse =
      ⟨some p.event, some p.order, some p.user, some p.method, some p.transaction⟩ := by
    rw [draft, if_pos (Json.name_seen event), if_pos (Json.name_seen order),
      if_pos (Json.name_seen user), if_pos (Json.name_seen method),
      if_pos (Json.name_seen transaction)]
  rw [nothing, whole] at taken
  exact Json.ofValue_object taken rfl

end PaymentCompleted

namespace BuildCompleted

/-- What was gathered of a build when some of its keys were seen. -/
def draft (b : BuildCompleted) (seen : List String) : Draft :=
  ⟨if "event_id" ∈ seen then some b.event else none,
    if "order_id" ∈ seen then some b.order else none,
    if "user_id" ∈ seen then some b.user else none,
    if "build_time_sec" ∈ seen then some b.seconds else none⟩

theorem takeField_draft {b : BuildCompleted} (distinct : (fields.map Prod.fst).Nodup)
    (own : b.toJson.fields ⊆ fields) {f : String × Value} (mem : f ∈ fields)
    (seen : List String) : record.takeField (draft b seen) f = .ok (draft b (f.1 :: seen)) := by
  simp only [toJson, Value.fields, List.cons_subset] at own
  obtain ⟨event, order, user, seconds, -⟩ := own
  by_cases isEvent : f.1 = "event_id"
  · rw [Json.eq_of_distinct distinct mem event isEvent,
      Json.takeField_of_find record "event_id" rfl b.event.ofValue_toJson]
    simp [draft]
  by_cases isOrder : f.1 = "order_id"
  · rw [Json.eq_of_distinct distinct mem order isOrder,
      Json.takeField_of_find record "order_id" rfl b.order.ofValue_toJson]
    simp [draft]
  by_cases isUser : f.1 = "user_id"
  · rw [Json.eq_of_distinct distinct mem user isUser,
      Json.takeField_of_find record "user_id" rfl b.user.ofValue_toJson]
    simp [draft]
  by_cases isSeconds : f.1 = "build_time_sec"
  · have small : b.seconds < Nat.pow 2 64 := lt_of_lt_of_eq b.inRange (by decide)
    rw [Json.eq_of_distinct distinct mem seconds isSeconds,
      Json.takeField_of_find record "build_time_sec" rfl (Json.ofValue_ofNat "u64" small)]
    simp [draft]
  · have unknown : (record.fields.find? fun g => g.name = f.1) = none := by
      simp [record, Field.ofCodec, Ne.symm isEvent, Ne.symm isOrder, Ne.symm isUser,
        Ne.symm isSeconds]
    rw [Json.takeField_unknown unknown]
    simp [draft, Ne.symm isEvent, Ne.symm isOrder, Ne.symm isUser, Ne.symm isSeconds]

/-- A build is read from an object that has its fields, whatever else it has. -/
theorem ofValue_of_fields {b : BuildCompleted} (distinct : (fields.map Prod.fst).Nodup)
    (own : b.toJson.fields ⊆ fields) : codec.ofValue (.object fields) = .ok b := by
  have taken := Json.foldlM_takeFields fun f mem => takeField_draft distinct own mem
  have nothing : draft b [] = record.blank := by simp [draft, record]
  simp only [toJson, Value.fields, List.cons_subset] at own
  obtain ⟨event, order, user, seconds, -⟩ := own
  have whole : draft b (fields.map Prod.fst).reverse =
      ⟨some b.event, some b.order, some b.user, some b.seconds⟩ := by
    rw [draft, if_pos (Json.name_seen event), if_pos (Json.name_seen order),
      if_pos (Json.name_seen user), if_pos (Json.name_seen seconds)]
  have finished : record.finish ⟨some b.event, some b.order, some b.user, some b.seconds⟩ =
      .ok b := by
    simp [record, Record.needed, bind, Except.bind, b.inRange]
  rw [nothing, whole] at taken
  exact Json.ofValue_object taken finished

end BuildCompleted

namespace Event

theorem ofValue_of_fields {e : Event} (distinct : (fields.map Prod.fst).Nodup)
    (own : e.toJson.fields ⊆ fields) : ofValue (kindOf e.topic) (.object fields) = .ok e := by
  cases e with
  | payment p =>
    show (PaymentCompleted.codec.ofValue (.object fields)).map Event.payment = .ok (.payment p)
    rw [PaymentCompleted.ofValue_of_fields distinct own]
    rfl
  | build b =>
    show (BuildCompleted.codec.ofValue (.object fields)).map Event.build = .ok (.build b)
    rw [BuildCompleted.ofValue_of_fields distinct own]
    rfl

theorem decode_of_known {t : Topic} {payload : Bytes} {v : Value}
    (carries : Envelope.Carries payload version v) :
    decode t payload =
      match ofValue (kindOf t) v with
      | .ok e => .ok e
      | .error m => .error (.malformed (.unfit [] m)) := by
  rw [decode, Envelope.decode_of_carries (by decide) carries]
  exact if_neg (not_not_intro rfl)

theorem decode_of_other {t : Topic} {payload : Bytes} {n : Nat} {v : Value}
    (small : n < 0x100000000) (other : n ≠ version) (carries : Envelope.Carries payload n v) :
    decode t payload = .error (.unsupportedVersion n) := by
  rw [decode, Envelope.decode_of_carries small carries]
  exact if_pos other

end Event

/-- No payment is read where builds are announced. -/
theorem PaymentCompleted.decode_ne_ok {t : Topic} (other : Event.kindOf t ≠ .payment)
    (payload : Bytes) (p : PaymentCompleted) : decode t payload ≠ .ok p := by
  intro decoded
  obtain ⟨e, read, taken⟩ := Json.bind_eq_ok decoded
  have kind := Event.kind_of_decode read
  cases e with
  | payment p' => exact other kind.symm
  | build b => cases taken

/-- No build is read where payments are announced. -/
theorem BuildCompleted.decode_ne_ok {t : Topic} (other : Event.kindOf t ≠ .build)
    (payload : Bytes) (b : BuildCompleted) : decode t payload ≠ .ok b := by
  intro decoded
  obtain ⟨e, read, taken⟩ := Json.bind_eq_ok decoded
  have kind := Event.kind_of_decode read
  cases e with
  | payment p => cases taken
  | build b' => exact other kind.symm

namespace Event

/-- An envelope of the known version gives its event on the topics of that, in whatever order its
members and those of the event are, and whatever other members there are. An envelope of another
version gives its version on every topic, whatever its event is. And no topic ever gives an event
of the kind that it does not carry. -/
theorem envelopes_compatible :
    (∀ (e : Event) (payload : Bytes) (fields : List (String × Value)),
      (fields.map Prod.fst).Nodup → e.toJson.fields ⊆ fields →
      Envelope.Carries payload 1 (.object (Json.ordered fields)) →
      ∀ t, t = e.topic ∨ t = e.topic.deadLetters → decode t payload = .ok e) ∧
    (∀ (payload : Bytes) (n : Nat) (v : Value), n < 0x100000000 → n ≠ 1 →
      Envelope.Carries payload n v → ∀ t,
        decode t payload = .error (.unsupportedVersion n) ∧
        PaymentCompleted.decode t payload = .error (.unsupportedVersion n) ∧
        BuildCompleted.decode t payload = .error (.unsupportedVersion n)) ∧
    ∀ payload : Bytes,
      (∀ p, PaymentCompleted.decode .assembled payload ≠ .ok p ∧
        PaymentCompleted.decode .assembledDeadLetters payload ≠ .ok p) ∧
      ∀ b, BuildCompleted.decode .paid payload ≠ .ok b ∧
        BuildCompleted.decode .paidDeadLetters payload ≠ .ok b := by
  refine ⟨?_, ?_, fun payload => ⟨fun p => ⟨?_, ?_⟩, fun b => ⟨?_, ?_⟩⟩⟩
  · intro e payload fields distinct own carries t topic
    have same := Json.ordered_perm distinct
    have distinct' : ((Json.ordered fields).map Prod.fst).Nodup :=
      (same.map Prod.fst).nodup_iff.mpr distinct
    have own' : e.toJson.fields ⊆ Json.ordered fields := fun f mem => same.mem_iff.mpr (own mem)
    rw [decode_of_known carries, (kindOf_eq_iff t e).mpr topic, ofValue_of_fields distinct' own']
  · intro payload n v small other carries t
    have refused : decode t payload = .error (.unsupportedVersion n) :=
      decode_of_other small other carries
    refine ⟨refused, ?_, ?_⟩
    · rw [PaymentCompleted.decode, refused]
      rfl
    · rw [BuildCompleted.decode, refused]
      rfl
  · exact PaymentCompleted.decode_ne_ok (by decide) payload p
  · exact PaymentCompleted.decode_ne_ok (by decide) payload p
  · exact BuildCompleted.decode_ne_ok (by decide) payload b
  · exact BuildCompleted.decode_ne_ok (by decide) payload b

/-- A build that was announced by somebody else. -/
def foreign : BuildCompleted := ⟨⟨⟨1⟩⟩, ⟨⟨2⟩⟩, ⟨"u"⟩, 5, by decide⟩

/-- Its members come in another order and with another one among them, a letter is written by its
number, and the version is the last to be told. -/
def foreignText : Bytes :=
  [" \x7b\"event\":\x7b\"build_time_sec\":5 ,",
    "\"parts\":[null, true],", "\"user_id\":\"\\u0075\",",
    "\"order_id\":\"00000000-0000-0000-", "0000-000000000002\",",
    "\"event_id\":\"00000000-0000-0000-", "0000-000000000001\"\x7d,",
    "\"trace\":\"x\",\"version\":1\x7d\n"].flatMap Text.bytes

def member (name : String) (text : Bytes) (v : Value) : Member :=
  ⟨[], Text.bytes name, [], text, name, v⟩

def innerMembers : List Member :=
  [member "build_time_sec" [53, 32] (Json.ofNat 5),
    member "parts" (Text.bytes "[null, true]") (.array [.null, .boolean true]),
    member "user_id" (34 :: ([92, 117, 48, 48, 55, 53] ++ [34])) (.text "u"),
    member "order_id" (34 :: (Text.bytes foreign.order.text ++ [34])) foreign.order.toJson,
    member "event_id" (34 :: (Text.bytes foreign.event.text ++ [34])) foreign.event.toJson]

def innerText : Bytes := 123 :: (Json.joined (innerMembers.map Member.bytes) ++ [125])

def outerMembers : List Member :=
  [member "event" innerText (.object (Json.ordered (innerMembers.map Member.field))),
    member "trace" (34 :: (Text.bytes "x" ++ [34])) (.text "x"),
    member "version" [49] (Json.ofNat 1)]

/-- Whether a text may be written without escapes. -/
def isPlain (s : String) : Bool := s.toList.all fun c => c ≠ '"' ∧ c ≠ '\\' ∧ ¬ c.toNat < 32

theorem spelt_of_isPlain {s : String} (plain : isPlain s = true) :
    Json.Spelt (Text.bytes s) s.toList :=
  .of_plain fun c mem => of_decide_eq_true (List.all_eq_true.mp plain c mem)

theorem member_isKeyed {name : String} {text : Bytes} {v : Value} (plain : isPlain name = true) :
    (member name text v).IsKeyed :=
  ⟨Json.areBlank_nil, spelt_of_isPlain plain, Json.areBlank_nil⟩

theorem spells_quoted {d : Nat} {s : String} (plain : isPlain s = true) :
    Spells d (34 :: (Text.bytes s ++ [34])) (.text s) :=
  .text (spelt_of_isPlain plain)

theorem spells_innerText :
    Spells 126 innerText (.object (Json.ordered (innerMembers.map Member.field))) := by
  refine @Spells.object 125 [] innerMembers Json.areBlank_nil ?_ ?_
  · simp only [innerMembers, List.forall_mem_cons]
    refine ⟨?_, ?_, ?_, ?_, ?_, List.forall_mem_nil _⟩
    all_goals exact member_isKeyed (by decide +kernel)
  · simp only [innerMembers, List.forall_mem_cons]
    refine ⟨?_, ?_, ?_, spells_quoted (by decide +kernel), spells_quoted (by decide +kernel),
      List.forall_mem_nil _⟩
    · exact @Spells.after 125 32 [53] _ rfl (.number rfl)
    · refine @Spells.array 124 [] [([110, 117, 108, 108], .null), ([32, 116, 114, 117, 101],
        .boolean true)] Json.areBlank_nil ?_
      simp only [List.forall_mem_cons]
      exact ⟨.null, .before rfl .true, List.forall_mem_nil _⟩
    · have letter : "u".toList = ['u'] := by decide +kernel
      refine @Spells.text 125 [92, 117, 48, 48, 55, 53] "u" ?_
      rw [letter]
      exact .unit rfl .nil

theorem carries_foreign :
    Envelope.Carries foreignText 1
      (.object (Json.ordered (innerMembers.map Member.field))) := by
  have text : foreignText =
      [32] ++ 123 :: ([] ++ (Json.joined (outerMembers.map Member.bytes) ++ 125 :: [10])) := by
    decide +kernel
  refine ⟨outerMembers.map Member.field, ?_, by decide +kernel,
    by simp [outerMembers, member, Member.field], by simp [outerMembers, member, Member.field]⟩
  rw [text]
  refine .mk (Json.areBlank_singleton rfl) Json.areBlank_nil (Json.areBlank_singleton rfl) ?_ ?_
  · simp only [outerMembers, List.forall_mem_cons]
    refine ⟨?_, ?_, ?_, List.forall_mem_nil _⟩
    all_goals exact member_isKeyed (by decide +kernel)
  · simp only [outerMembers, List.forall_mem_cons]
    exact ⟨spells_innerText, spells_quoted (by decide +kernel), .number rfl,
      List.forall_mem_nil _⟩

def laterMembers : List Member :=
  [member "version" [50] (Json.ofNat 2), member "event" [110, 117, 108, 108] .null]

theorem carries_later :
    Envelope.Carries (Text.bytes "\x7b\"version\":2,\"event\":null\x7d") 2 .null := by
  have text : Text.bytes "\x7b\"version\":2,\"event\":null\x7d" =
      [] ++ 123 :: ([] ++ (Json.joined (laterMembers.map Member.bytes) ++ 125 :: [])) := by
    decide +kernel
  refine ⟨laterMembers.map Member.field, ?_, by decide +kernel,
    by simp [laterMembers, member, Member.field], by simp [laterMembers, member, Member.field]⟩
  rw [text]
  refine .mk Json.areBlank_nil Json.areBlank_nil Json.areBlank_nil ?_ ?_
  · simp only [laterMembers, List.forall_mem_cons]
    exact ⟨member_isKeyed (by decide +kernel), member_isKeyed (by decide +kernel),
      List.forall_mem_nil _⟩
  · simp only [laterMembers, List.forall_mem_cons]
    exact ⟨.number rfl, .null, List.forall_mem_nil _⟩

theorem envelopes_compatible_foreign_and_later :
    decode .assembledDeadLetters foreignText = .ok (.build foreign) ∧
      PaymentCompleted.decode .assembled (Text.bytes "\x7b\"version\":2,\"event\":null\x7d") =
        .error (.unsupportedVersion 2) := by
  obtain ⟨known, other, -⟩ := envelopes_compatible
  refine ⟨known (.build foreign) _ (innerMembers.map Member.field) (by decide +kernel) ?_
    carries_foreign _ (Or.inr rfl), (other _ 2 .null (by decide) (by decide) carries_later _).2.1⟩
  simp [toJson, BuildCompleted.toJson, UserId.toJson, Value.fields, innerMembers, member,
    Member.field, foreign]

end Event

end Events

end Shipyard

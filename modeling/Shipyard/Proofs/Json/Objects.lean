import Shipyard.Json.Record
import Shipyard.Proofs.Json.Numbers

/-!
# Objects that were written

An object of texts and natural numbers is read again, as a tree or as a record. `Reads` says that
a reader takes what was written for something off the front of a text.
-/

namespace Shipyard.Json

variable {α : Type}

/-- The reader takes these characters for `x`, before anything that can be no part of a number. -/
def Reads (read : Bytes → Except Refusal (α × Bytes)) (cs : List Char) (x : α) : Prop :=
  ∀ rest, EndsNumber rest → read (Text.encoded cs ++ rest) = .ok (x, rest)

theorem skipBlanks_cons {b : UInt8} (visible : isBlank b = false) (bs : Bytes) :
    skipBlanks (b :: bs) = b :: bs := by
  simp [skipBlanks, visible]

theorem encoded_quoted (s : String) (rest : Bytes) :
    Text.encoded (quoted s) ++ rest =
      34 :: (Text.encoded (s.toList.flatMap escapeChar) ++ 34 :: rest) := by
  have quote : String.utf8EncodeChar '"' = [34] := by decide
  simp [quoted, quote]

theorem signed_natCast (n : Nat) : Text.signed n = Text.decimal n := by
  have positive : ¬ (n : Int) < 0 := by omega
  simp [Text.signed, positive]

section Scalars

theorem scalar_quoted (s : String) (rest : Bytes) :
    scalar 34 (Text.encoded (s.toList.flatMap escapeChar) ++ 34 :: rest) =
      .ok (.text s, rest) := by
  simp [scalar, string_quoted, bind, Except.bind]

/-- A digit is no other first byte of a value. -/
theorem digit_ne {b : UInt8} (digit : Text.isDigit b = true) :
    isBlank b = false ∧ b ≠ 91 ∧ b ≠ 123 ∧ b ≠ 110 ∧ b ≠ 116 ∧ b ≠ 102 ∧ b ≠ 34 ∧ b ≠ 45 := by
  have all : ∀ n < 256, Text.isDigit (UInt8.ofNat n) = true →
      isBlank (UInt8.ofNat n) = false ∧ UInt8.ofNat n ≠ 91 ∧ UInt8.ofNat n ≠ 123 ∧
        UInt8.ofNat n ≠ 110 ∧ UInt8.ofNat n ≠ 116 ∧ UInt8.ofNat n ≠ 102 ∧
        UInt8.ofNat n ≠ 34 ∧ UInt8.ofNat n ≠ 45 := by
    decide +kernel
  have same : UInt8.ofNat b.toNat = b := UInt8.ofNat_toNat
  rw [← same] at digit ⊢
  exact all b.toNat b.toNat_lt digit

/-- A natural number of 64 bits, by its first byte. -/
theorem scalar_natural {n : Nat} (bounded : n < 0x10000000000000000) :
    ∃ b bs, Text.encoded (ofNat n).chars = b :: bs ∧ Text.isDigit b = true ∧
      ∀ rest, EndsNumber rest → scalar b (bs ++ rest) = .ok (ofNat n, rest) := by
  have written : (ofNat n).chars = (Text.decimal n).toList := by
    simp [ofNat, Value.chars, Number.chars, signed_natCast]
  obtain ⟨b, bs, same, digit, -⟩ :=
    number_decimal bounded (show EndsNumber [] from fun _ _ h => by cases h)
  refine ⟨b, bs, by rw [written, same], digit, fun rest ends => ?_⟩
  obtain ⟨b', bs', same', -, read⟩ := number_decimal bounded ends
  obtain ⟨rfl, rfl⟩ : b = b' ∧ bs = bs' := by
    rw [same] at same'
    exact List.cons.inj same'
  obtain ⟨-, -, -, null, true', false', quote, minus⟩ := digit_ne digit
  simp [scalar, null, true', false', quote, minus, digit, read, ofNat, bind, Except.bind]

end Scalars

theorem value_scalar {b : UInt8} (visible : isBlank b = false) (bracket : b ≠ 91)
    (brace : b ≠ 123) (depth : Nat) (rest : Bytes) :
    value depth (b :: rest) = scalar b rest := by
  rw [value]
  simp only [skipBlanks_cons visible, bracket, brace, if_false]

theorem value_text (depth : Nat) (s : String) : Reads (value depth) (quoted s) (.text s) := by
  intro rest _
  rw [encoded_quoted, value_scalar (by decide) (by decide) (by decide)]
  exact scalar_quoted s rest

theorem value_natural (depth : Nat) {n : Nat} (bounded : n < 0x10000000000000000) :
    Reads (value depth) (ofNat n).chars (ofNat n) := by
  intro rest ends
  obtain ⟨b, bs, same, digit, read⟩ := scalar_natural bounded
  obtain ⟨visible, bracket, brace, -⟩ := digit_ne digit
  rw [same, List.cons_append, value_scalar visible bracket brace]
  exact read rest ends

section Keys

theorem nextKey_first (rest : Bytes) : nextKey true (34 :: rest) = .ok (true, rest) := by
  simp [nextKey, skipBlanks_cons (show isBlank 34 = false by decide)]

theorem nextKey_comma (rest : Bytes) : nextKey false (44 :: 34 :: rest) = .ok (true, rest) := by
  simp [nextKey, skipBlanks_cons (show isBlank 44 = false by decide),
    skipBlanks_cons (show isBlank 34 = false by decide)]

theorem nextKey_brace (first : Bool) (rest : Bytes) :
    nextKey first (125 :: rest) = .ok (false, 125 :: rest) := by
  simp [nextKey, skipBlanks_cons (show isBlank 125 = false by decide)]

theorem colon_cons (rest : Bytes) : colon (58 :: rest) = .ok rest := by
  simp [colon, closing, skipBlanks_cons (show isBlank 58 = false by decide)]

theorem closing_brace (rest : Bytes) : closing 125 (125 :: rest) = .ok rest := by
  simp [closing, skipBlanks_cons (show isBlank 125 = false by decide)]

/-- A field as it is written, without the quote that opens its name. -/
def fieldText (name : String) (cs : List Char) : Bytes :=
  Text.encoded (name.toList.flatMap escapeChar) ++ 34 :: 58 :: Text.encoded cs

theorem encoded_field (name : String) (cs : List Char) :
    Text.encoded (quoted name ++ ':' :: cs) = 34 :: fieldText name cs := by
  have colon : String.utf8EncodeChar ':' = [58] := by decide
  rw [Text.encoded_append, Text.encoded_cons, encoded_quoted, colon]
  rfl

theorem string_fieldText (name : String) (cs : List Char) (rest : Bytes) :
    string (fieldText name cs ++ rest) = .ok (name, 58 :: (Text.encoded cs ++ rest)) := by
  have read := string_quoted name (58 :: (Text.encoded cs ++ rest))
  simpa [fieldText] using read

theorem endsNumber_comma (rest : Bytes) : EndsNumber (44 :: rest) := by
  rintro b bs ⟨⟩
  decide

theorem endsNumber_brace (rest : Bytes) : EndsNumber (125 :: rest) := by
  rintro b bs ⟨⟩
  decide

end Keys

/-- Further fields as they are written, each after a comma. -/
def fieldsText (fs : List (String × Value)) : Bytes :=
  fs.flatMap fun f => 44 :: 34 :: fieldText f.1 f.2.chars

theorem endsNumber_fieldsText (fs : List (String × Value)) (rest : Bytes) :
    EndsNumber (fieldsText fs ++ 125 :: rest) := by
  cases fs with
  | nil => exact endsNumber_brace rest
  | cons f fs => exact endsNumber_comma _

theorem fieldsOnto_fieldsText {item : Bytes → Except Refusal (Value × Bytes)}
    {fs : List (String × Value)} (reads : ∀ f ∈ fs, Reads item f.2.chars f.2) {n : Nat}
    (fields : List (String × Value)) {rest : Bytes}
    (fuel : (fieldsText fs ++ 125 :: rest).length < n) :
    fieldsOnto item n false fields (fieldsText fs ++ 125 :: rest) =
      .ok (fs.foldl (fun fields f => putField f.1 f.2 fields) fields, 125 :: rest) := by
  induction fs generalizing n fields with
  | nil =>
    obtain ⟨m, rfl⟩ : ∃ m, n = m + 1 := ⟨n - 1, by omega⟩
    simp [fieldsText, fieldsOnto, nextKey_brace, bind, Except.bind]
  | cons f fs ih =>
    obtain ⟨m, rfl⟩ : ∃ m, n = m + 1 := ⟨n - 1, by omega⟩
    have text : fieldsText (f :: fs) ++ 125 :: rest =
        44 :: 34 :: (fieldText f.1 f.2.chars ++ (fieldsText fs ++ 125 :: rest)) := by
      simp [fieldsText]
    rw [text] at fuel ⊢
    have read := reads f (by simp) _ (endsNumber_fieldsText fs rest)
    simp only [List.length_cons, List.length_append] at fuel
    have later := ih (fun f mem => reads f (by simp [mem])) (putField f.1 f.2 fields) (n := m)
      (by simp only [List.length_append, List.length_cons]; omega)
    simp [fieldsOnto, nextKey_comma, string_fieldText, colon_cons, read, later, bind, Except.bind]

theorem encoded_separated (f : String × Value) (fs : List (String × Value)) :
    Text.encoded (separated (fieldsChars (f :: fs))) =
      34 :: (fieldText f.1 f.2.chars ++ fieldsText fs) := by
  have comma : String.utf8EncodeChar ',' = [44] := by decide
  induction fs generalizing f with
  | nil =>
    have only : separated (fieldsChars [f]) = quoted f.1 ++ ':' :: f.2.chars := rfl
    rw [only, encoded_field]
    simp [fieldsText]
  | cons g fs ih =>
    have step : separated (fieldsChars (f :: g :: fs)) =
        (quoted f.1 ++ ':' :: f.2.chars) ++ ',' :: separated (fieldsChars (g :: fs)) := by
      simp [fieldsChars, separated]
    rw [step, Text.encoded_append, encoded_field, Text.encoded_cons, comma, ih]
    simp [fieldsText]

theorem encoded_object (fs : List (String × Value)) (rest : Bytes) :
    Text.encoded (Value.object fs).chars ++ rest =
      123 :: (Text.encoded (separated (fieldsChars fs)) ++ 125 :: rest) := by
  have braces : String.utf8EncodeChar '\x7b' = [123] ∧ String.utf8EncodeChar '\x7d' = [125] := by
    decide
  simp [Value.chars, braces]

/-- An object is read with its fields in the order of their names. -/
theorem value_object (depth : Nat) {fs : List (String × Value)}
    (reads : ∀ f ∈ fs, Reads (value depth) f.2.chars f.2) :
    Reads (value (depth + 1)) (Value.object fs).chars
      (.object (fs.foldl (fun fields f => putField f.1 f.2 fields) [])) := by
  intro rest _
  have visible : isBlank 123 = false := by decide
  have fields (n : Nat)
      (fuel : (Text.encoded (separated (fieldsChars fs)) ++ 125 :: rest).length < n) :
      fieldsOnto (value depth) n true []
          (Text.encoded (separated (fieldsChars fs)) ++ 125 :: rest) =
        .ok (fs.foldl (fun fields f => putField f.1 f.2 fields) [], 125 :: rest) := by
    obtain ⟨m, rfl⟩ : ∃ m, n = m + 1 := ⟨n - 1, by omega⟩
    cases fs with
    | nil => simp [fieldsChars, separated, fieldsOnto, nextKey_brace, bind, Except.bind]
    | cons f fs =>
      rw [encoded_separated, List.cons_append, List.append_assoc] at fuel ⊢
      have read := reads f (by simp) _ (endsNumber_fieldsText fs rest)
      simp only [List.length_cons, List.length_append] at fuel
      have others : ∀ g ∈ fs, Reads (value depth) g.2.chars g.2 := fun g mem =>
        reads g (List.mem_cons_of_mem _ mem)
      have enough : (fieldsText fs ++ 125 :: rest).length < m := by
        simp only [List.length_append, List.length_cons]
        omega
      have later := fieldsOnto_fieldsText others (putField f.1 f.2 []) enough
      simp [fieldsOnto, nextKey_first, string_fieldText, colon_cons, read, later, bind, Except.bind]
  rw [encoded_object]
  rw [value]
  simp [skipBlanks_cons visible, fields, closing_brace, bind, Except.bind]

theorem value_object_sorted (depth : Nat) {fs sorted : List (String × Value)}
    (order : fs.foldl (fun fields f => putField f.1 f.2 fields) [] = sorted)
    (reads : ∀ f ∈ fs, Reads (value depth) f.2.chars f.2) :
    Reads (value (depth + 1)) (Value.object fs).chars (.object sorted) :=
  order ▸ value_object depth reads

section Records

variable {σ : Type}

theorem inside_ok {γ : Type} (step : Step) (x : γ) : Codec.inside step (.ok x) = .ok x := rfl

/-- One more field of a record. -/
theorem readFields_field {β : Type} {r : Record σ α} {depth n : Nat} {first : Bool} {s : σ}
    {name : String} {cs : List Char} {bs rest : Bytes} {c : Codec β} {get : σ → Option β}
    {set : σ → β → σ} {x : β}
    (key : nextKey first bs = .ok (true, fieldText name cs ++ rest))
    (known : (r.fields.find? fun f => f.name = name) = some (.ofCodec name c get set))
    (unfilled : get s = none) (read : c.read depth (Text.encoded cs ++ rest) = .ok (x, rest)) :
    r.readFields depth (n + 1) first s bs = r.readFields depth n false (set s x) rest := by
  simp [Record.readFields, Record.readField, key, known, unfilled, string_fieldText, colon_cons,
    read, inside_ok, bind, Except.bind, Field.ofCodec]

theorem readFields_brace {r : Record σ α} {depth n : Nat} {first : Bool} {s : σ} {rest : Bytes} :
    r.readFields depth (n + 1) first s (125 :: rest) = .ok (s, 125 :: rest) := by
  simp [Record.readFields, nextKey_brace, bind, Except.bind]

theorem takeField_of_find {β : Type} (r : Record σ α) (name : String) {v : Value} {c : Codec β}
    {get : σ → Option β} {set : σ → β → σ} {x : β}
    (known : (r.fields.find? fun f => f.name = name) = some (.ofCodec name c get set))
    (fits : c.ofValue v = .ok x) (s : σ) : r.takeField s (name, v) = .ok (set s x) := by
  simp [Record.takeField, known, Field.ofCodec, fits, Except.map]

/-- A field that the record does not have is passed over. -/
theorem takeField_unknown {r : Record σ α} {f : String × Value}
    (unknown : (r.fields.find? fun g => g.name = f.1) = none) (s : σ) :
    r.takeField s f = .ok s := by
  simp [Record.takeField, unknown]

/-- One more field of a tree. -/
theorem foldlM_takeField {r : Record σ α} {s s' : σ} {f : String × Value}
    (taken : r.takeField s f = .ok s') (fs : List (String × Value)) :
    (f :: fs).foldlM r.takeField s = fs.foldlM r.takeField s' := by
  simp [taken, bind, Except.bind]

theorem ofValue_object {r : Record σ α} {fs : List (String × Value)} {s : σ} {x : α}
    (taken : fs.foldlM r.takeField r.blank = .ok s) (finished : r.finish s = .ok x) :
    r.codec.ofValue (.object fs) = .ok x := by
  simp [Record.codec, Record.ofValue, taken, finished, bind, Except.bind]

theorem ofValue_object_unfinished {r : Record σ α} {fs : List (String × Value)} {s : σ}
    {cause : Misfit} (taken : fs.foldlM r.takeField r.blank = .ok s)
    (unfinished : r.finish s = .error cause) : r.codec.ofValue (.object fs) = .error cause := by
  simp [Record.codec, Record.ofValue, taken, unfinished, bind, Except.bind]

/-- A codec without parts reads a natural number. -/
theorem natural_reads (expected : String) {bits n : Nat} (fits : n < Nat.pow 2 bits)
    (bounded : n < 0x10000000000000000) (depth : Nat) :
    Reads ((Codec.natural expected bits).read depth) (ofNat n).chars n := by
  intro rest ends
  obtain ⟨b, bs, same, digit, read⟩ := scalar_natural bounded
  obtain ⟨visible, bracket, brace, -⟩ := digit_ne digit
  have inside : (n : Int) < 2 ^ bits := by exact_mod_cast fits
  rw [same, List.cons_append]
  simp [Codec.natural, Codec.atom, skipBlanks_cons visible, bracket, brace, read rest ends,
    ofNat, inside, fit, bind, Except.bind]

end Records

end Shipyard.Json

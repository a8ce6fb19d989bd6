import Shipyard.Proofs.Json.Scanning

/-!
# Texts of a value

A value has many texts: blanks may stand between its parts, strings and numbers may be written in
more than one way, and the members of an object may come in any order. The reader takes each text
for its value and stops behind it, whatever follows.
-/

namespace Shipyard.Json

/-- Parts with a comma between them. -/
def joined : List Bytes → Bytes
  | [] => []
  | p :: ps => p ++ ps.flatMap (44 :: ·)

/-- Fields in the order of their names, a later one in the place of an earlier one with its
name. -/
def ordered (fields : List (String × Value)) : List (String × Value) :=
  fields.foldl (fun fields f => putField f.1 f.2 fields) []

/-- A member of an object as it is written, with the blanks around its key. -/
structure Member where
  before : Bytes
  key : Bytes
  between : Bytes
  text : Bytes
  name : String
  value : Value

namespace Member

def bytes (m : Member) : Bytes := m.before ++ 34 :: (m.key ++ 34 :: (m.between ++ 58 :: m.text))

def field (m : Member) : String × Value := (m.name, m.value)

structure IsKeyed (m : Member) : Prop where
  before : AreBlank m.before
  key : Spelt m.key m.name.toList
  between : AreBlank m.between

end Member

/-- The bytes are a text of the value, in which so many containers stand inside each other at
most. A number is one that the reader of numbers has room for. -/
inductive Spells : Nat → Bytes → Value → Prop
  | before {d : Nat} {b : UInt8} {bs : Bytes} {v : Value} :
    isBlank b = true → Spells d bs v → Spells d (b :: bs) v
  | after {d : Nat} {b : UInt8} {bs : Bytes} {v : Value} :
    isBlank b = true → Spells d bs v → Spells d (bs ++ [b]) v
  | null {d : Nat} : Spells d [110, 117, 108, 108] .null
  | true {d : Nat} : Spells d [116, 114, 117, 101] (.boolean true)
  | false {d : Nat} : Spells d [102, 97, 108, 115, 101] (.boolean false)
  | negative {d : Nat} {bs : Bytes} {n : Number} :
    number true bs = .ok (n, []) → Spells d (45 :: bs) (.number n)
  | number {d : Nat} {bs : Bytes} {n : Number} :
    number false bs = .ok (n, []) → Spells d bs (.number n)
  | text {d : Nat} {bs : Bytes} {s : String} :
    Spelt bs s.toList → Spells d (34 :: (bs ++ [34])) (.text s)
  | array {d : Nat} {blanks : Bytes} {parts : List (Bytes × Value)} :
    AreBlank blanks → (∀ p ∈ parts, Spells d p.1 p.2) →
      Spells (d + 1) (91 :: (blanks ++ (joined (parts.map Prod.fst) ++ [93])))
        (.array (parts.map Prod.snd))
  | object {d : Nat} {blanks : Bytes} {members : List Member} :
    AreBlank blanks → (∀ m ∈ members, m.IsKeyed) → (∀ m ∈ members, Spells d m.text m.value) →
      Spells (d + 1) (123 :: (blanks ++ (joined (members.map Member.bytes) ++ [125])))
        (.object (ordered (members.map Member.field)))

variable {d n : Nat} {bs rest left : Bytes} {v : Value}

section Reading

/-- A reader goes on from where blanks end. -/
theorem value_congr {bs' : Bytes} (same : skipBlanks bs = skipBlanks bs') :
    value d bs = value d bs' := by
  unfold value
  rw [same]

theorem value_skipBlanks (bs : Bytes) : value d (skipBlanks bs) = value d bs :=
  value_congr (skipBlanks_skipBlanks bs)

/-- A value does not begin with what would end an array or go on with it. -/
theorem value_head (read : value d bs = .ok (v, left)) :
    ∃ b later, skipBlanks bs = b :: later ∧ b ≠ 93 := by
  cases shape : skipBlanks bs with
  | nil =>
    unfold value at read
    rw [shape] at read
    cases read
  | cons b later =>
    refine ⟨b, later, rfl, ?_⟩
    rintro rfl
    unfold value at read
    rw [shape] at read
    cases read

/-- The reader takes a text for the value and leaves nothing but blanks of it. -/
def Takes (d : Nat) (bs : Bytes) (v : Value) : Prop :=
  ∀ rest, EndsNumber rest → ∃ left, AreBlank left ∧ value d (bs ++ rest) = .ok (v, left ++ rest)

theorem endsNumber_bracket (rest : Bytes) : EndsNumber (93 :: rest) := by
  rintro b bs ⟨⟩
  decide

theorem skipBlanks_mark {mark : UInt8} (blank : AreBlank left) (visible : isBlank mark = false)
    (rest : Bytes) : skipBlanks (left ++ mark :: rest) = mark :: rest := by
  rw [skipBlanks_append blank, skipBlanks_cons visible]

theorem closing_mark {mark : UInt8} (blank : AreBlank left) (visible : isBlank mark = false)
    (rest : Bytes) : closing mark (left ++ mark :: rest) = .ok rest := by
  simp [closing, skipBlanks_mark blank visible]

/-- The comma that parts other than the first one stand behind. -/
def lead (first : Bool) : Bytes := if first then [] else [44]

theorem endsNumber_parts {mark : UInt8} (ends : EndsNumber (mark :: rest)) (parts : List Bytes) :
    EndsNumber (parts.flatMap (44 :: ·) ++ mark :: rest) := by
  cases parts with
  | nil => exact ends
  | cons p parts => exact endsNumber_comma _

/-- One item of an array is read, and the reader goes on behind it. -/
theorem items_part {bs : Bytes} (takes : Takes d bs v) (ends : EndsNumber rest)
    (blank : AreBlank left) (i : Nat) :
    ∃ left', AreBlank left' ∧ ∀ {n : Nat} {xs : List Value} {r : Bytes},
      items (fun _ => value d) n (i + 1) (left' ++ rest) = .ok (xs, r) →
        items (fun _ => value d) (n + 1) i (left ++ (lead (i = 0) ++ (bs ++ rest))) =
          .ok (v :: xs, r) := by
  obtain ⟨left', blank', read⟩ := takes rest ends
  obtain ⟨b, later, shape, open'⟩ := value_head read
  have read' : value d (b :: later) = .ok (v, left' ++ rest) := by
    rw [← shape, value_skipBlanks]
    exact read
  have more : nextItem (i = 0) (left ++ (lead (i = 0) ++ (bs ++ rest))) =
      .ok (true, b :: later) := by
    by_cases first : i = 0
    · simp [lead, first, nextItem, skipBlanks_append blank, shape, open']
    · simp [lead, first, nextItem, skipBlanks_mark blank (by decide : isBlank 44 = false), shape,
        open']
  refine ⟨left', blank', fun {n xs r} others => ?_⟩
  simp [items, more, read', others, bind, Except.bind]

theorem items_end (blank : AreBlank left) (n i : Nat) (rest : Bytes) :
    items (fun _ => value d) (n + 1) i (left ++ 93 :: rest) = .ok ([], 93 :: rest) := by
  simp [items, nextItem, skipBlanks_mark blank (by decide : isBlank 93 = false), bind,
    Except.bind]

/-- Items after the first one, each behind a comma. -/
theorem items_later {parts : List (Bytes × Value)} (takes : ∀ p ∈ parts, Takes d p.1 p.2)
    (blank : AreBlank left) (i : Nat) (rest : Bytes) (fuel : parts.length < n) :
    items (fun _ => value d) n (i + 1)
        (left ++ ((parts.map Prod.fst).flatMap (44 :: ·) ++ 93 :: rest)) =
      .ok (parts.map Prod.snd, 93 :: rest) := by
  induction parts generalizing n i left with
  | nil =>
    obtain ⟨m, rfl⟩ : ∃ m, n = m + 1 := ⟨n - 1, by omega⟩
    exact items_end blank m (i + 1) rest
  | cons p parts ih =>
    rw [List.length_cons] at fuel
    obtain ⟨m, rfl⟩ : ∃ m, n = m + 1 := ⟨n - 1, by omega⟩
    have ends := endsNumber_parts (endsNumber_bracket rest) (parts.map Prod.fst)
    obtain ⟨left', blank', step⟩ := items_part (takes p (by simp)) ends blank (i + 1)
    have others := ih (fun q mem => takes q (List.mem_cons_of_mem _ mem)) blank' (i + 1)
      (by omega : parts.length < m)
    simpa [lead] using step others

theorem items_parts {parts : List (Bytes × Value)} (takes : ∀ p ∈ parts, Takes d p.1 p.2)
    (blank : AreBlank left) (rest : Bytes) (fuel : parts.length < n) :
    items (fun _ => value d) n 0 (left ++ (joined (parts.map Prod.fst) ++ 93 :: rest)) =
      .ok (parts.map Prod.snd, 93 :: rest) := by
  obtain ⟨m, rfl⟩ : ∃ m, n = m + 1 := ⟨n - 1, by omega⟩
  cases parts with
  | nil => exact items_end blank m 0 rest
  | cons p parts =>
    rw [List.length_cons] at fuel
    have ends := endsNumber_parts (endsNumber_bracket rest) (parts.map Prod.fst)
    obtain ⟨left', blank', step⟩ := items_part (takes p (by simp)) ends blank 0
    have others := items_later (fun q mem => takes q (List.mem_cons_of_mem _ mem)) blank' 0 rest
      (by omega : parts.length < m)
    simpa [lead, joined] using step others

theorem nextKey_member {m : Member} (keyed : m.IsKeyed) (blank : AreBlank left) (first : Bool)
    (rest : Bytes) :
    nextKey first (left ++ (lead first ++ (m.bytes ++ rest))) =
      .ok (true, m.key ++ 34 :: (m.between ++ 58 :: (m.text ++ rest))) := by
  have key : skipBlanks (m.before ++ 34 :: (m.key ++ 34 :: (m.between ++ 58 :: (m.text ++ rest)))) =
      34 :: (m.key ++ 34 :: (m.between ++ 58 :: (m.text ++ rest))) :=
    skipBlanks_mark keyed.before (by decide) _
  cases first with
  | true => simp [lead, nextKey, Member.bytes, skipBlanks_append blank, key]
  | false =>
    simp [lead, nextKey, Member.bytes, skipBlanks_mark blank (by decide : isBlank 44 = false), key]

theorem string_member {m : Member} (keyed : m.IsKeyed) (rest : Bytes) :
    string (m.key ++ 34 :: rest) = .ok (m.name, rest) := by
  rw [string_spelt keyed.key, String.ofList_toList]

theorem colon_member {m : Member} (keyed : m.IsKeyed) (rest : Bytes) :
    colon (m.between ++ 58 :: rest) = .ok rest :=
  closing_mark keyed.between (by decide) rest

theorem nextKey_end (blank : AreBlank left) (first : Bool) (rest : Bytes) :
    nextKey first (left ++ 125 :: rest) = .ok (false, 125 :: rest) := by
  simp [nextKey, skipBlanks_mark blank (by decide : isBlank 125 = false)]

/-- One member of an object is read, and the reader goes on behind it. -/
theorem fieldsOnto_member {m : Member} (keyed : m.IsKeyed) (takes : Takes d m.text m.value)
    (ends : EndsNumber rest) (blank : AreBlank left) (first : Bool)
    (fields : List (String × Value)) :
    ∃ left', AreBlank left' ∧ ∀ n : Nat,
      fieldsOnto (value d) (n + 1) first fields (left ++ (lead first ++ (m.bytes ++ rest))) =
        fieldsOnto (value d) n false (putField m.name m.value fields) (left' ++ rest) := by
  obtain ⟨left', blank', read⟩ := takes rest ends
  refine ⟨left', blank', fun n => ?_⟩
  simp [fieldsOnto, nextKey_member keyed blank, string_member keyed, colon_member keyed, read, bind,
    Except.bind]

theorem fieldsOnto_later {members : List Member} (keyed : ∀ m ∈ members, m.IsKeyed)
    (takes : ∀ m ∈ members, Takes d m.text m.value) (blank : AreBlank left)
    (fields : List (String × Value)) (rest : Bytes) (fuel : members.length < n) :
    fieldsOnto (value d) n false fields
        (left ++ ((members.map Member.bytes).flatMap (44 :: ·) ++ 125 :: rest)) =
      .ok ((members.map Member.field).foldl (fun fields f => putField f.1 f.2 fields) fields,
        125 :: rest) := by
  induction members generalizing n fields left with
  | nil =>
    obtain ⟨m, rfl⟩ : ∃ m, n = m + 1 := ⟨n - 1, by omega⟩
    simp [fieldsOnto, nextKey_end blank, bind, Except.bind]
  | cons m members ih =>
    rw [List.length_cons] at fuel
    obtain ⟨k, rfl⟩ : ∃ k, n = k + 1 := ⟨n - 1, by omega⟩
    have ends := endsNumber_parts (endsNumber_brace rest) (members.map Member.bytes)
    obtain ⟨left', blank', step⟩ :=
      fieldsOnto_member (keyed m (by simp)) (takes m (by simp)) ends blank false fields
    have others := ih (fun m mem => keyed m (List.mem_cons_of_mem _ mem))
      (fun m mem => takes m (List.mem_cons_of_mem _ mem)) blank' (putField m.name m.value fields)
      (by omega : members.length < k)
    have step := step k
    rw [others] at step
    simpa [lead, Member.field] using step

theorem fieldsOnto_members {members : List Member} (keyed : ∀ m ∈ members, m.IsKeyed)
    (takes : ∀ m ∈ members, Takes d m.text m.value) (blank : AreBlank left) (rest : Bytes)
    (fuel : members.length < n) :
    fieldsOnto (value d) n true [] (left ++ (joined (members.map Member.bytes) ++ 125 :: rest)) =
      .ok (ordered (members.map Member.field), 125 :: rest) := by
  obtain ⟨k, rfl⟩ : ∃ k, n = k + 1 := ⟨n - 1, by omega⟩
  cases members with
  | nil => simp [joined, ordered, fieldsOnto, nextKey_end blank, bind, Except.bind]
  | cons m members =>
    rw [List.length_cons] at fuel
    have ends := endsNumber_parts (endsNumber_brace rest) (members.map Member.bytes)
    obtain ⟨left', blank', step⟩ :=
      fieldsOnto_member (keyed m (by simp)) (takes m (by simp)) ends blank true []
    have others := fieldsOnto_later (fun m mem => keyed m (List.mem_cons_of_mem _ mem))
      (fun m mem => takes m (List.mem_cons_of_mem _ mem)) blank' (putField m.name m.value []) rest
      (by omega : members.length < k)
    have step := step k
    rw [others] at step
    simpa [lead, joined, ordered, Member.field] using step

theorem length_le_joined (parts : List Bytes) : parts.length ≤ (joined parts).length + 1 := by
  have commas (ps : List Bytes) : ps.length ≤ (ps.flatMap (44 :: ·)).length := by
    induction ps with
    | nil => exact Nat.le_refl _
    | cons p ps ih =>
      simp only [List.flatMap_cons, List.length_cons, List.length_append]
      omega
  cases parts with
  | nil => exact Nat.zero_le _
  | cons p ps =>
    have later := commas ps
    simp only [joined, List.length_cons, List.length_append]
    omega

/-- A number begins with a digit. -/
theorem number_head {negative : Bool} {n : Number}
    (read : Json.number negative bs = .ok (n, left)) :
    ∃ b later, bs = b :: later ∧ Text.isDigit b = true := by
  cases bs with
  | nil => cases read
  | cons b later =>
    refine ⟨b, later, rfl, ?_⟩
    rw [Json.number] at read
    split at read
    · next zero =>
      subst zero
      rfl
    · split at read
      · next digit => exact digit
      · cases read

theorem value_bracket {xs : List Value}
    (read : items (fun _ => value d) (bs.length + 1) 0 bs = .ok (xs, 93 :: rest)) :
    value (d + 1) (91 :: bs) = .ok (.array xs, rest) := by
  have close := closing_mark areBlank_nil (by decide : isBlank 93 = false) rest
  rw [List.nil_append] at close
  rw [value, skipBlanks_cons (by decide)]
  simp [read, close, bind, Except.bind]

theorem value_brace {fields : List (String × Value)}
    (read : fieldsOnto (value d) (bs.length + 1) true [] bs = .ok (fields, 125 :: rest)) :
    value (d + 1) (123 :: bs) = .ok (.object fields, rest) := by
  rw [value, skipBlanks_cons (by decide)]
  simp [read, closing_brace, bind, Except.bind]

theorem takes_of_scalar {b : UInt8}
    (read : ∀ rest, EndsNumber rest → scalar b (bs ++ rest) = .ok (v, rest))
    (visible : isBlank b = false) (bracket : b ≠ 91) (brace : b ≠ 123) : Takes d (b :: bs) v := by
  intro rest ends
  refine ⟨[], areBlank_nil, ?_⟩
  rw [List.cons_append, value_scalar visible bracket brace]
  exact read rest ends

theorem takes_array {blanks : Bytes} {parts : List (Bytes × Value)} (blank : AreBlank blanks)
    (takes : ∀ p ∈ parts, Takes d p.1 p.2) :
    Takes (d + 1) (91 :: (blanks ++ (joined (parts.map Prod.fst) ++ [93])))
      (.array (parts.map Prod.snd)) := by
  intro rest _
  have short := length_le_joined (parts.map Prod.fst)
  rw [List.length_map] at short
  have text : 91 :: (blanks ++ (joined (parts.map Prod.fst) ++ [93])) ++ rest =
      91 :: (blanks ++ (joined (parts.map Prod.fst) ++ 93 :: rest)) := by simp
  refine ⟨[], areBlank_nil, ?_⟩
  rw [text]
  exact value_bracket (items_parts takes blank rest
    (by simp only [List.length_append, List.length_cons]; omega))

theorem takes_object {blanks : Bytes} {members : List Member} (blank : AreBlank blanks)
    (keyed : ∀ m ∈ members, m.IsKeyed) (takes : ∀ m ∈ members, Takes d m.text m.value) :
    Takes (d + 1) (123 :: (blanks ++ (joined (members.map Member.bytes) ++ [125])))
      (.object (ordered (members.map Member.field))) := by
  intro rest _
  have short := length_le_joined (members.map Member.bytes)
  rw [List.length_map] at short
  have text : 123 :: (blanks ++ (joined (members.map Member.bytes) ++ [125])) ++ rest =
      123 :: (blanks ++ (joined (members.map Member.bytes) ++ 125 :: rest)) := by simp
  refine ⟨[], areBlank_nil, ?_⟩
  rw [text]
  exact value_brace (fieldsOnto_members keyed takes blank rest
    (by simp only [List.length_append, List.length_cons]; omega))

/-- A value is read from any of its texts. -/
theorem Spells.takes (spells : Spells d bs v) : Takes d bs v := by
  induction spells with
  | @before d b bs v blank _ ih =>
    intro rest ends
    obtain ⟨left, blank', read⟩ := ih rest ends
    have same : skipBlanks (b :: bs ++ rest) = skipBlanks (bs ++ rest) :=
      skipBlanks_append (areBlank_singleton blank) (bs ++ rest)
    exact ⟨left, blank', by rw [value_congr same, read]⟩
  | @after d b bs v blank _ ih =>
    intro rest ends
    obtain ⟨left, blank', read⟩ := ih (b :: rest) (ends.blank_append (areBlank_singleton blank))
    refine ⟨left ++ [b], blank'.append (areBlank_singleton blank), ?_⟩
    simpa using read
  | null => exact takes_of_scalar (fun _ _ => rfl) (by decide) (by decide) (by decide)
  | true => exact takes_of_scalar (fun _ _ => rfl) (by decide) (by decide) (by decide)
  | false => exact takes_of_scalar (fun _ _ => rfl) (by decide) (by decide) (by decide)
  | negative read =>
    refine takes_of_scalar (fun rest ends => ?_) (by decide) (by decide) (by decide)
    simp [scalar, number_append ends read, bind, Except.bind]
  | number read =>
    obtain ⟨b, later, rfl, digit⟩ := number_head read
    obtain ⟨visible, bracket, brace, null, true', false', quote, minus⟩ := digit_ne digit
    refine takes_of_scalar (fun rest ends => ?_) visible bracket brace
    have whole := number_append ends read
    rw [List.cons_append] at whole
    simp [scalar, null, true', false', quote, minus, digit, whole, bind, Except.bind]
  | text spelt =>
    refine takes_of_scalar (fun rest _ => ?_) (by decide) (by decide) (by decide)
    rw [List.append_assoc, List.singleton_append]
    simp [scalar, string_spelt spelt, bind, Except.bind]
  | array blank _ ih => exact takes_array blank ih
  | object blank keyed _ ih => exact takes_object blank keyed ih

end Reading

end Shipyard.Json

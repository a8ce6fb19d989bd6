import Mathlib.Data.List.Basic
import Mathlib.Data.Nat.Digits.Defs
import Shipyard.Proofs.Identifiers

/-!
# Spellings of identifiers

Thirty-two hexadecimal digits spell an identifier in four ways, and no other text is read as one.
Which of the ways it is, and in which case the letters are, makes no difference: the text of the
identifier has the same digits in small letters.
-/

namespace Shipyard.Uuid

/-! ## Digits -/

/-- The hexadecimal digits in either case. -/
def hexDigits : List Char := "0123456789abcdefABCDEF".toList

/-- Characters that are hexadecimal digits without exception. -/
def AreHex (cs : List Char) : Prop := ∀ c ∈ cs, c ∈ hexDigits

instance (cs : List Char) : Decidable (AreHex cs) := List.decidableBAll _ _

theorem hexDigit?_of_mem {c : Char} (mem : c ∈ hexDigits) :
    ∃ d < 16, hexDigit? c = some d ∧ Text.digitChar d = c.toLower := by
  have all : (hexDigits.all fun c => (List.range 16).any fun d =>
      hexDigit? c = some d ∧ Text.digitChar d = c.toLower) = true := by
    decide +kernel
  obtain ⟨d, below, same⟩ := List.any_eq_true.mp (List.all_eq_true.mp all c mem)
  exact ⟨d, List.mem_range.mp below, of_decide_eq_true same⟩

theorem mem_hexDigits {c : Char} {d : Nat} (value : hexDigit? c = some d) : c ∈ hexDigits := by
  have all : ∀ n < 128, (hexDigit? (Char.ofNat n)).isSome = true → Char.ofNat n ∈ hexDigits := by
    decide +kernel
  have small : c.toNat < 128 := by
    simp only [hexDigit?, Char.le_def, UInt32.le_iff_toNat_le] at value
    split at value
    · next digit =>
      have last : c.toNat ≤ 57 := digit.2
      omega
    · split at value
      · next letter =>
        have last : c.toNat ≤ 102 := letter.2
        omega
      · split at value
        · next capital =>
          have last : c.toNat ≤ 70 := capital.2
          omega
        · cases value
  have mem := all c.toNat small
  rw [Char.ofNat_toNat, value] at mem
  exact mem rfl

/-- Thirty-two hexadecimal digits. -/
structure Digits where
  chars : List Char
  length : chars.length = 32
  hex : AreHex chars

/-- The digits in small letters. -/
def Digits.lowered (ds : Digits) : List Char := ds.chars.map Char.toLower

theorem foldl_eq_ofDigits (ns : List Nat) :
    ns.foldl (fun n d => 16 * n + d) 0 = Nat.ofDigits 16 ns.reverse := by
  rw [Nat.ofDigits_eq_foldr, List.foldr_reverse]
  simp only [Nat.add_comm, Nat.cast_id]

/-- What thirty-two digits make up tells which digits they are. -/
theorem ofNibbles_injective {ms ns : List Nat} (length : ms.length = 32) (length' : ns.length = 32)
    (small : ∀ d ∈ ms, d < 16) (small' : ∀ d ∈ ns, d < 16) (same : ofNibbles ms = ofNibbles ns) :
    ms = ns := by
  have bound {ds : List Nat} (length : ds.length = 32) (small : ∀ d ∈ ds, d < 16) :
      Nat.ofDigits 16 ds.reverse < 2 ^ 128 := by
    have power : 16 ^ ds.reverse.length = 2 ^ 128 := by rw [List.length_reverse, length]; norm_num
    rw [← power]
    exact Nat.ofDigits_lt_base_pow_length (by omega) fun d mem => small d (List.mem_reverse.mp mem)
  have bits := congrArg (fun u => u.bits.toNat) same
  simp only [ofNibbles, foldl_eq_ofDigits, BitVec.toNat_ofNat, Nat.mod_eq_of_lt (bound length small),
    Nat.mod_eq_of_lt (bound length' small')] at bits
  apply List.reverse_inj.mp
  apply Nat.ofDigits_inj_of_len_eq (by omega : 1 < 16) (by simp [length, length'])
  · intro d mem
    exact small d (List.mem_reverse.mp mem)
  · intro d mem
    exact small' d (List.mem_reverse.mp mem)
  · exact bits

theorem nibbles_ofNibbles {ns : List Nat} (length : ns.length = 32) (small : ∀ d ∈ ns, d < 16) :
    (ofNibbles ns).nibbles = ns :=
  ofNibbles_injective (length_nibbles _) length (nibbles_lt _) small (ofNibbles_nibbles _)

theorem mapM_hexDigit?_of_hex {cs : List Char} (hex : AreHex cs) :
    ∃ ns, cs.mapM hexDigit? = some ns ∧ (∀ d ∈ ns, d < 16) ∧ ns.length = cs.length ∧
      ns.map Text.digitChar = cs.map Char.toLower := by
  induction cs with
  | nil => exact ⟨[], rfl, by simp, rfl, rfl⟩
  | cons c cs ih =>
    obtain ⟨d, small, value, letter⟩ := hexDigit?_of_mem (hex c (by simp))
    obtain ⟨ns, values, below, length, letters⟩ := ih fun c mem => hex c (List.mem_cons_of_mem _ mem)
    refine ⟨d :: ns, by rw [List.mapM_cons, value, values]; rfl, ?_, by simp [length],
      by simp [letter, letters]⟩
    rw [List.forall_mem_cons]
    exact ⟨small, below⟩

theorem hex_of_mapM {cs : List Char} {ns : List Nat} (values : cs.mapM hexDigit? = some ns) :
    AreHex cs := by
  induction cs generalizing ns with
  | nil => exact List.forall_mem_nil _
  | cons c cs ih =>
    simp only [List.mapM_cons, Option.bind_eq_bind, Option.bind_eq_some_iff] at values
    obtain ⟨d, value, rest, later, -⟩ := values
    exact List.forall_mem_cons.mpr ⟨mem_hexDigits value, ih later⟩

theorem ofDigits?_digits (ds : Digits) :
    ∃ u, ofDigits? ds.chars = some u ∧ u.chars = grouped ds.lowered := by
  obtain ⟨ns, values, small, length, letters⟩ := mapM_hexDigit?_of_hex ds.hex
  refine ⟨ofNibbles ns, by rw [ofDigits?, if_pos ds.length, values]; rfl, ?_⟩
  rw [chars, nibbles_ofNibbles (by rw [length, ds.length]) small, letters]
  rfl

theorem ofDigits?_some {cs : List Char} {u : Uuid} (read : ofDigits? cs = some u) :
    ∃ ds : Digits, cs = ds.chars := by
  unfold ofDigits? at read
  split at read
  · next length =>
    obtain ⟨ns, values, -⟩ := Option.map_eq_some_iff.mp read
    exact ⟨⟨cs, length, hex_of_mapM values⟩, rfl⟩
  · cases read

theorem ofDigits?_of_length {cs : List Char} (length : cs.length ≠ 32) : ofDigits? cs = none := by
  rw [ofDigits?, if_neg length]

/-! ## Groups -/

theorem length_grouped {cs : List Char} (length : cs.length = 32) : (grouped cs).length = 36 := by
  simp [grouped, length]

theorem ofGroups?_grouped {cs : List Char} (length : cs.length = 32) :
    ofGroups? (grouped cs) = ofDigits? cs := by
  rw [ofGroups?, ungrouped?_grouped length, Option.bind_some]

theorem ofGroups?_of_length {cs : List Char} (length : cs.length ≠ 36) : ofGroups? cs = none := by
  rw [ofGroups?, ungrouped?, if_neg fun all => length all.1]
  rfl

/-- Only the hyphens were taken out. -/
theorem grouped_of_ungrouped? {cs ds : List Char} (taken : ungrouped? cs = some ds) :
    cs = grouped ds := by
  unfold ungrouped? at taken
  split at taken
  · next all =>
    obtain ⟨length, first, second, third, fourth⟩ := all
    cases taken
    -- A text is what stands before a hyphen, the hyphen, and what is behind it.
    have cut {n : Nat} (hyphen : cs[n]? = some '-') : cs.drop n = '-' :: cs.drop (n + 1) := by
      obtain ⟨bound, same⟩ := List.getElem?_eq_some_iff.mp hyphen
      rw [List.drop_eq_getElem_cons bound, same]
    have group (n : Nat) : cs.drop n = (cs.drop n).take 4 ++ cs.drop (n + 4) := by
      rw [← List.drop_drop, List.take_append_drop]
    have whole : cs = cs.take 8 ++ '-' :: ((cs.drop 9).take 4 ++ '-' :: ((cs.drop 14).take 4 ++
        '-' :: ((cs.drop 19).take 4 ++ '-' :: cs.drop 24))) := by
      rw [← cut fourth, ← group 19, ← cut third, ← group 14, ← cut second, ← group 9, ← cut first,
        List.take_append_drop]
    rw [List.append_assoc, List.append_assoc, List.append_assoc, grouped_append]
    · exact whole
    all_goals simp [length]
  · cases taken

/-! ## The four ways -/

/-- The ways to spell an identifier with thirty-two digits. -/
inductive Spells (ds : Digits) : List Char → Prop
  | plain : Spells ds ds.chars
  | groups : Spells ds (grouped ds.chars)
  | braces : Spells ds ('{' :: grouped ds.chars ++ ['}'])
  | urn {word : List Char} (lowered : word.map Char.toLower = "urn:uuid:".toList) :
    Spells ds (word ++ grouped ds.chars)

theorem unbraced?_braces (cs : List Char) :
    unbraced? ('{' :: cs ++ ['}']) = some cs := by
  rw [List.cons_append, unbraced?, List.getLast?_append]
  simp

theorem eq_braces_of_unbraced? {cs inner : List Char} (taken : unbraced? cs = some inner) :
    cs = '{' :: inner ++ ['}'] := by
  unfold unbraced? at taken
  split at taken
  · next rest =>
    split at taken
    · next last =>
      obtain rfl := Option.some.inj taken
      rw [List.cons_append, List.dropLast_append_getLast? _ last]
    · cases taken
  · cases taken

theorem unbraced?_urn {word : List Char} (lowered : word.map Char.toLower = "urn:uuid:".toList)
    (cs : List Char) : unbraced? (word ++ cs) = none := by
  cases word with
  | nil => cases lowered
  | cons c word =>
    -- The word begins with the letter u.
    have brace : c ≠ '{' := by
      rintro rfl
      have first := congrArg List.head? lowered
      rw [List.map_cons, List.head?_cons] at first
      exact absurd first (by decide +kernel)
    rw [List.cons_append, unbraced?]
    intro rest same
    exact brace (List.cons.inj same).1

theorem length_urn {word : List Char} (lowered : word.map Char.toLower = "urn:uuid:".toList) :
    word.length = 9 := by
  have length := congrArg List.length lowered
  rw [List.length_map] at length
  exact length.trans (by decide +kernel)

theorem afterUrn?_urn {word : List Char} (lowered : word.map Char.toLower = "urn:uuid:".toList)
    (cs : List Char) : afterUrn? (word ++ cs) = some cs := by
  have length := length_urn lowered
  rw [afterUrn?, List.take_left' length, if_pos lowered, List.drop_left' length]

theorem ofChars?_eq (cs : List Char) :
    ofChars? cs = (ofDigits? cs).or ((ofGroups? cs).or
      (((unbraced? cs).bind ofGroups?).or ((afterUrn? cs).bind ofGroups?))) := by
  simp only [ofChars?, Option.orElse_eq_orElse, Option.orElse_eq_or]

/-- Every way to spell an identifier is read as its digits. -/
theorem Spells.ofChars? {ds : Digits} {cs : List Char} (h : Spells ds cs) :
    ofChars? cs = ofDigits? ds.chars := by
  have length := length_grouped ds.length
  have read := ofGroups?_grouped ds.length
  rw [ofChars?_eq]
  cases h with
  | plain =>
    obtain ⟨u, value, -⟩ := ofDigits?_digits ds
    rw [value, Option.some_or]
  | groups =>
    obtain ⟨u, value, -⟩ := ofDigits?_digits ds
    rw [ofDigits?_of_length (by omega), Option.none_or, read, value, Option.some_or]
  | braces =>
    obtain ⟨u, value, -⟩ := ofDigits?_digits ds
    have long : ('{' :: grouped ds.chars ++ ['}']).length = 38 := by simp [length]
    rw [ofDigits?_of_length (by omega), ofGroups?_of_length (by omega), Option.none_or,
      Option.none_or, unbraced?_braces, Option.bind_some, read, value, Option.some_or]
  | @urn word lowered =>
    have long : (word ++ grouped ds.chars).length = 45 := by simp [length, length_urn lowered]
    rw [ofDigits?_of_length (by omega), ofGroups?_of_length (by omega), Option.none_or,
      Option.none_or, unbraced?_urn lowered, Option.bind_none, Option.none_or,
      afterUrn?_urn lowered, Option.bind_some, read]

theorem ofGroups?_some {cs : List Char} {u : Uuid} (read : ofGroups? cs = some u) :
    ∃ ds : Digits, cs = grouped ds.chars := by
  obtain ⟨inner, taken, value⟩ := Option.bind_eq_some_iff.mp read
  obtain ⟨ds, rfl⟩ := ofDigits?_some value
  exact ⟨ds, grouped_of_ungrouped? taken⟩

/-- Nothing else is read. -/
theorem spells_of_ofChars? {cs : List Char} {u : Uuid} (read : ofChars? cs = some u) :
    ∃ ds, Spells ds cs := by
  rw [ofChars?_eq] at read
  simp only [Option.or_eq_some_iff] at read
  rcases read with plain | ⟨-, groups | ⟨-, braces | ⟨-, urn⟩⟩⟩
  · obtain ⟨ds, rfl⟩ := ofDigits?_some plain
    exact ⟨ds, .plain⟩
  · obtain ⟨ds, rfl⟩ := ofGroups?_some groups
    exact ⟨ds, .groups⟩
  · obtain ⟨inner, taken, groups⟩ := Option.bind_eq_some_iff.mp braces
    obtain ⟨ds, rfl⟩ := ofGroups?_some groups
    rw [eq_braces_of_unbraced? taken]
    exact ⟨ds, .braces⟩
  · obtain ⟨inner, taken, groups⟩ := Option.bind_eq_some_iff.mp urn
    obtain ⟨ds, rfl⟩ := ofGroups?_some groups
    unfold afterUrn? at taken
    split at taken
    · next lowered =>
      rw [← List.take_append_drop 9 cs, Option.some.inj taken]
      exact ⟨ds, .urn lowered⟩
    · cases taken

theorem parse_eq_ok_iff {s : String} {u : Uuid} : parse s = .ok u ↔ ofChars? s.toList = some u := by
  unfold parse
  split
  · next v read => rw [read, Except.ok.injEq, Option.some.injEq]
  · next read =>
    rw [read]
    constructor
    · intro h
      cases h
    · intro h
      cases h

/-- An identifier that was read has the digits that were spelled, in small letters. -/
theorem Spells.parse {ds : Digits} {s : String} (h : Spells ds s.toList) :
    ∃ u, parse s = .ok u ∧ u.chars = grouped ds.lowered := by
  obtain ⟨u, value, shown⟩ := ofDigits?_digits ds
  refine ⟨u, ?_, shown⟩
  rw [parse_eq_ok_iff, h.ofChars?, value]

theorem exists_parse_iff {s : String} : (∃ u, Uuid.parse s = .ok u) ↔ ∃ ds, Spells ds s.toList := by
  constructor
  · rintro ⟨u, read⟩
    exact spells_of_ofChars? (parse_eq_ok_iff.mp read)
  · rintro ⟨ds, spelled⟩
    obtain ⟨u, read, -⟩ := spelled.parse
    exact ⟨u, read⟩

end Shipyard.Uuid

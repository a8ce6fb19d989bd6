import Shipyard.Text.Percent

/-!
# What form values decode to

A form value is cut into tokens from the left: an escape of three bytes, a plus sign, or any other
byte. It decodes to the bytes that its tokens stand for if these are a text. A percent sign without
two hexadecimal digits behind it, wherever it is, leaves nothing decoded.
-/

namespace Shipyard.Text

/-- The byte of a hexadecimal digit in either case. -/
def IsHexDigit (n : Nat) (b : UInt8) : Prop :=
  n < 16 ∧ (b.toNat = (digitChar n).toNat ∨ b.toNat = (digitChar n).toUpper.toNat)

theorem hexValue?_lt {b : UInt8} {n : Nat} (value : hexValue? b = some n) : n < 16 := by
  simp only [hexValue?, Bool.and_eq_true, decide_eq_true_eq, UInt8.le_iff_toNat_le,
    UInt8.reduceToNat] at value
  split at value
  · have := Option.some.inj value
    omega
  · split at value
    · have := Option.some.inj value
      omega
    · split at value
      · have := Option.some.inj value
        omega
      · cases value

theorem hexValue?_eq_some_iff {b : UInt8} {n : Nat} :
    hexValue? b = some n ↔ IsHexDigit n b := by
  have all : ∀ k < 256, ∀ n < 16, hexValue? (UInt8.ofNat k) = some n ↔
      k = (digitChar n).toNat ∨ k = (digitChar n).toUpper.toNat := by
    decide +kernel
  have byte := all b.toNat b.toNat_lt
  rw [UInt8.ofNat_toNat] at byte
  constructor
  · intro value
    have small := hexValue?_lt value
    exact ⟨small, (byte n small).mp value⟩
  · rintro ⟨small, same⟩
    exact (byte n small).mpr same

/-- A percent sign is no digit, so no escape begins inside of another. -/
theorem IsHexDigit.ne_percent {b : UInt8} {n : Nat} (digit : IsHexDigit n b) : b ≠ 37 := by
  rintro rfl
  have none : hexValue? 37 = none := by decide
  rw [hexValue?_eq_some_iff.mpr digit] at none
  cases none

theorem hexByte?_eq_some_iff {a b x : UInt8} :
    hexByte? a b = some x ↔
      ∃ high low, IsHexDigit high a ∧ IsHexDigit low b ∧ x = UInt8.ofNat (16 * high + low) := by
  simp only [hexByte?, Option.bind_eq_bind, Option.bind_eq_some_iff, hexValue?_eq_some_iff,
    Option.some.injEq]
  constructor
  · rintro ⟨high, first, low, second, rfl⟩
    exact ⟨high, low, first, second, by rw [Nat.mul_comm]⟩
  · rintro ⟨high, low, first, second, rfl⟩
    exact ⟨high, first, low, second, by rw [Nat.mul_comm]⟩

/-! ## Tokens -/

/-- A token and the byte that it stands for. -/
inductive Token : Bytes → UInt8 → Prop
  | escape {a b : UInt8} {high low : Nat} :
    IsHexDigit high a → IsHexDigit low b → Token [37, a, b] (UInt8.ofNat (16 * high + low))
  | plus : Token [43] 32
  | plain {x : UInt8} : x ≠ 37 → x ≠ 43 → Token [x] x

/-- Bytes that are cut into tokens from the left, and the bytes that the tokens stand for. -/
inductive Splits : Bytes → Bytes → Prop
  | nil : Splits [] []
  | cons {token bs xs : Bytes} {x : UInt8} :
    Token token x → Splits bs xs → Splits (token ++ bs) (x :: xs)

/-- Two hexadecimal digits come first. -/
def BeginsWithDigits (bs : Bytes) : Prop :=
  ∃ a b high low rest, bs = a :: b :: rest ∧ IsHexDigit high a ∧ IsHexDigit low b

/-- Somewhere there is a percent sign without two digits behind it. -/
def HasBrokenEscape (bs : Bytes) : Prop :=
  ∃ front rest, bs = front ++ 37 :: rest ∧ ¬ BeginsWithDigits rest

theorem decodeForm_escape (a b : UInt8) (rest : Bytes) :
    decodeForm (37 :: a :: b :: rest) =
      (hexByte? a b).bind fun x => (decodeForm rest).map (x :: ·) := by
  rw [decodeForm]
  cases hexByte? a b with
  | none => rfl
  | some x => cases decodeForm rest <;> rfl

theorem decodeForm_plus (rest : Bytes) :
    decodeForm (43 :: rest) = (decodeForm rest).map (32 :: ·) := by
  rw [decodeForm]

theorem decodeForm_plain {x : UInt8} (percent : x ≠ 37) (plus : x ≠ 43) (rest : Bytes) :
    decodeForm (x :: rest) = (decodeForm rest).map (x :: ·) := by
  rw [decodeForm] <;> simp [percent, plus]

theorem Token.decodeForm {token : Bytes} {x : UInt8} (h : Token token x) (rest : Bytes) :
    decodeForm (token ++ rest) = (decodeForm rest).map (x :: ·) := by
  cases h with
  | escape first second =>
    have value := hexByte?_eq_some_iff.mpr ⟨_, _, first, second, rfl⟩
    exact (decodeForm_escape _ _ rest).trans (by rw [value, Option.bind_some])
  | plus => exact decodeForm_plus rest
  | plain percent plus => exact decodeForm_plain percent plus rest

theorem Splits.decodeForm {bs xs : Bytes} (h : Splits bs xs) : decodeForm bs = some xs := by
  induction h with
  | nil => rfl
  | cons token _ ih => rw [token.decodeForm, ih, Option.map_some]

theorem HasBrokenEscape.behind {bs : Bytes} (h : HasBrokenEscape bs) (token : Bytes) :
    HasBrokenEscape (token ++ bs) := by
  obtain ⟨front, rest, rfl, undigited⟩ := h
  exact ⟨token ++ front, rest, by rw [List.append_assoc], undigited⟩

theorem hexByte?_of_undigited {a b : UInt8} {rest : Bytes}
    (undigited : ¬ BeginsWithDigits (a :: b :: rest)) : hexByte? a b = none := by
  cases value : hexByte? a b with
  | none => rfl
  | some x =>
    obtain ⟨high, low, first, second, -⟩ := hexByte?_eq_some_iff.mp value
    exact absurd ⟨a, b, high, low, rest, rfl, first, second⟩ undigited

/-- One or the other is left: tokens throughout, or an escape that is broken off. -/
theorem splits_or_broken (bs : Bytes) :
    (∃ xs, Splits bs xs) ∨ HasBrokenEscape bs ∧ decodeForm bs = none := by
  -- What a token is put before keeps its side.
  have step {token rest : Bytes} {x : UInt8} (first : Token token x)
      (ih : (∃ xs, Splits rest xs) ∨ HasBrokenEscape rest ∧ decodeForm rest = none) :
      (∃ xs, Splits (token ++ rest) xs) ∨
        HasBrokenEscape (token ++ rest) ∧ decodeForm (token ++ rest) = none := by
    rcases ih with ⟨xs, later⟩ | ⟨broken, unread⟩
    · exact Or.inl ⟨x :: xs, .cons first later⟩
    · refine Or.inr ⟨broken.behind token, ?_⟩
      rw [first.decodeForm, unread, Option.map_none]
  induction bs using decodeForm.induct with
  | case1 => exact Or.inl ⟨[], .nil⟩
  | case2 a b rest ih =>
    by_cases digits : BeginsWithDigits (a :: b :: rest)
    · obtain ⟨a, b, high, low, rest, same, first, second⟩ := digits
      cases same
      exact step (.escape first second) ih
    · refine Or.inr ⟨⟨[], a :: b :: rest, rfl, digits⟩, ?_⟩
      rw [decodeForm_escape, hexByte?_of_undigited digits, Option.bind_none]
  | case3 tail short =>
    have undigited : ¬ BeginsWithDigits tail := by
      rintro ⟨a, b, high, low, rest, same, -⟩
      exact short a b rest same
    refine Or.inr ⟨⟨[], tail, rfl, undigited⟩, ?_⟩
    rw [decodeForm]
    exact short
  | case4 rest ih => exact step .plus ih
  | case5 x rest _ percent plus ih => exact step (.plain percent plus) ih

/-- What is cut into tokens has two digits behind every percent sign. -/
theorem Splits.digits_behind {bs xs : Bytes} (h : Splits bs xs) :
    ∀ front rest, bs = front ++ 37 :: rest → BeginsWithDigits rest := by
  induction h with
  | nil =>
    intro front rest same
    simp at same
  | cons token _ ih =>
    intro front rest same
    cases token with
    | @escape a b high low first second =>
      -- The percent sign is the one of this token, or it is behind the token.
      match front with
      | [] =>
        obtain rfl : a :: b :: _ = rest := (List.cons.inj same).2
        exact ⟨a, b, high, low, _, rfl, first, second⟩
      | [_] =>
        obtain ⟨-, same⟩ := List.cons.inj same
        exact absurd (List.cons.inj same).1 first.ne_percent
      | [_, _] =>
        obtain ⟨-, same⟩ := List.cons.inj same
        obtain ⟨-, same⟩ := List.cons.inj same
        exact absurd (List.cons.inj same).1 second.ne_percent
      | _ :: _ :: _ :: front =>
        obtain ⟨-, same⟩ := List.cons.inj same
        obtain ⟨-, same⟩ := List.cons.inj same
        exact ih front rest (List.cons.inj same).2
    | plus =>
      cases front with
      | nil => simp at same
      | cons _ front => exact ih front rest (List.cons.inj same).2
    | plain percent _ =>
      cases front with
      | nil => exact absurd (List.cons.inj same).1 percent
      | cons _ front => exact ih front rest (List.cons.inj same).2

theorem decodeForm_eq_some_iff {bs xs : Bytes} : decodeForm bs = some xs ↔ Splits bs xs := by
  constructor
  · intro read
    rcases splits_or_broken bs with ⟨ys, split⟩ | ⟨-, unread⟩
    · rw [split.decodeForm] at read
      rwa [← Option.some.inj read]
    · rw [unread] at read
      cases read
  · exact Splits.decodeForm

theorem decodeForm_eq_none_iff {bs : Bytes} : decodeForm bs = none ↔ HasBrokenEscape bs := by
  rcases splits_or_broken bs with ⟨xs, split⟩ | ⟨broken, unread⟩
  · constructor
    · intro unread
      rw [split.decodeForm] at unread
      cases unread
    · rintro ⟨front, rest, same, undigited⟩
      exact absurd (split.digits_behind front rest same) undigited
  · exact ⟨fun _ => broken, fun _ => unread⟩

/-! ## Positions -/

/-- How a scan by positions ends. -/
inductive Scan
  | ended (position : Nat) (out : Bytes)
  | refused
  /-- A byte was taken from behind the end. -/
  | overrun
deriving DecidableEq, Repr

/-- The same reading by positions. The byte at a position is taken; after a percent sign it is asked
first whether the next two are there. -/
def scan (bs : Bytes) (i : Nat) (out : Bytes) : Scan :=
  if i < bs.length then
    match bs[i]? with
    | none => .overrun
    | some x =>
      if x = 37 then
        match bs[i + 1]?.bind fun a => bs[i + 2]?.bind fun b => hexByte? a b with
        | none => .refused
        | some y => scan bs (i + 3) (out ++ [y])
      else scan bs (i + 1) (out ++ [if x = 43 then 32 else x])
  else .ended i out
termination_by bs.length - i

theorem scan_end (front out : Bytes) : scan front front.length out = .ended front.length out := by
  rw [scan, if_neg (Nat.lt_irrefl _)]

theorem scan_single {x : UInt8} (percent : x ≠ 37) (front rest out : Bytes) :
    scan (front ++ x :: rest) front.length out =
      scan ((front ++ [x]) ++ rest) (front ++ [x]).length (out ++ [if x = 43 then 32 else x]) := by
  have within : front.length < (front ++ x :: rest).length := by simp
  have taken : (front ++ x :: rest)[front.length]? = some x := by simp
  rw [scan, if_pos within, taken]
  simp [percent]

theorem scan_percent (front rest out : Bytes) :
    scan (front ++ 37 :: rest) front.length out =
      match rest[0]?.bind fun a => rest[1]?.bind fun b => hexByte? a b with
      | none => .refused
      | some y => scan (front ++ 37 :: rest) (front.length + 3) (out ++ [y]) := by
  have within : front.length < (front ++ 37 :: rest).length := by simp
  have taken : (front ++ 37 :: rest)[front.length]? = some 37 := by simp
  have first : (front ++ 37 :: rest)[front.length + 1]? = rest[0]? := by
    rw [List.getElem?_append_right (by omega)]
    simp
  have second : (front ++ 37 :: rest)[front.length + 2]? = rest[1]? := by
    rw [List.getElem?_append_right (by omega)]
    simp
  rw [scan, if_pos within, taken]
  simp only [if_true, first, second]

/-- Whatever was read before, the scan gives what the rest decodes to, and stops at the end. -/
theorem scan_append (front rest out : Bytes) :
    scan (front ++ rest) front.length out =
      match decodeForm rest with
      | some xs => .ended (front ++ rest).length (out ++ xs)
      | none => .refused := by
  induction rest using decodeForm.induct generalizing front out with
  | case1 => simpa [decodeForm] using scan_end front out
  | case2 a b rest ih =>
    rw [scan_percent, decodeForm_escape]
    cases value : hexByte? a b with
    | none => simp [value]
    | some y =>
      have later := ih (front ++ [37, a, b]) (out ++ [y])
      have same : front ++ [37, a, b] ++ rest = front ++ 37 :: a :: b :: rest := by simp
      rw [same, List.length_append] at later
      simp only [List.getElem?_cons_zero, List.getElem?_cons_succ, Option.bind_some, value]
      refine later.trans ?_
      cases decodeForm rest <;> simp
  | case3 tail short =>
    have unread : decodeForm (37 :: tail) = none := by
      rw [decodeForm]
      exact short
    rw [scan_percent, unread]
    match tail with
    | [] => rfl
    | [_] => rfl
    | a :: b :: rest => exact absurd rfl (short a b rest)
  | case4 rest ih =>
    rw [scan_single (by decide), decodeForm_plus, ih]
    cases decodeForm rest <;> simp
  | case5 x rest _ percent plus ih =>
    rw [scan_single percent, decodeForm_plain percent plus, ih, if_neg plus]
    cases decodeForm rest <;> simp

/-! ## Texts -/

theorem ofBytes?_eq_some_iff {bs : Bytes} {s : String} : ofBytes? bs = some s ↔ bs = bytes s := by
  constructor
  · intro read
    rw [ofBytes?, String.fromUTF8?] at read
    split at read
    · have same : s.toByteArray = bs.toByteArray := by rw [← Option.some.inj read]; rfl
      rw [← toByteArray_bytes] at same
      exact (List.toByteArray_inj.mp same).symm
    · cases read
  · rintro rfl
    exact ofBytes?_bytes s

theorem percentDecode?_eq_some_iff {v s : String} :
    percentDecode? v = some s ↔ Splits (bytes v) (bytes s) := by
  rw [percentDecode?, Option.bind_eq_some_iff]
  constructor
  · rintro ⟨xs, read, text⟩
    obtain rfl := ofBytes?_eq_some_iff.mp text
    exact decodeForm_eq_some_iff.mp read
  · intro split
    exact ⟨bytes s, split.decodeForm, ofBytes?_bytes s⟩

theorem percentDecode?_eq_none_iff {v : String} :
    percentDecode? v = none ↔
      HasBrokenEscape (bytes v) ∨ ∃ xs, Splits (bytes v) xs ∧ ∀ s, xs ≠ bytes s := by
  rw [percentDecode?, Option.bind_eq_none_iff]
  constructor
  · intro unread
    rcases splits_or_broken (bytes v) with ⟨xs, split⟩ | ⟨broken, -⟩
    · right
      refine ⟨xs, split, ?_⟩
      rintro s rfl
      have none := unread _ split.decodeForm
      rw [ofBytes?_bytes] at none
      cases none
    · exact Or.inl broken
  · intro fault xs read
    rcases fault with broken | ⟨ys, split, noText⟩
    · rw [decodeForm_eq_none_iff.mpr broken] at read
      cases read
    · rw [split.decodeForm] at read
      cases read
      rw [Option.eq_none_iff_forall_ne_some]
      intro s text
      exact noText s (ofBytes?_eq_some_iff.mp text)

theorem bytes_injective {s t : String} (same : bytes s = bytes t) : s = t := by
  have read := ofBytes?_bytes s
  rw [same, ofBytes?_bytes] at read
  exact (Option.some.inj read).symm

/-- What a form value decodes to, exactly. It is the text of its tokens; it is nothing only if an
escape is broken off somewhere or the tokens stand for no text. A scan by positions comes to the
same, ends at the last byte and takes none from behind it. Nothing but the empty value decodes to
the empty text. -/
theorem percent_decoding_exact (v : String) :
    (∀ s, percentDecode? v = some s ↔ Splits (bytes v) (bytes s)) ∧
      (percentDecode? v = none ↔
        HasBrokenEscape (bytes v) ∨ ∃ xs, Splits (bytes v) xs ∧ ∀ s, xs ≠ bytes s) ∧
      (HasBrokenEscape (bytes v) ∧ scan (bytes v) 0 [] = .refused ∨
        ∃ xs, Splits (bytes v) xs ∧ scan (bytes v) 0 [] = .ended (bytes v).length xs) ∧
      (percentDecode? v = some "" → v = "") := by
  refine ⟨fun s => percentDecode?_eq_some_iff, percentDecode?_eq_none_iff, ?_, ?_⟩
  · have whole := scan_append [] (bytes v) []
    rcases splits_or_broken (bytes v) with ⟨xs, split⟩ | ⟨broken, unread⟩
    · rw [split.decodeForm] at whole
      exact Or.inr ⟨xs, split, whole⟩
    · rw [unread] at whole
      exact Or.inl ⟨broken, whole⟩
  · intro empty
    have split := percentDecode?_eq_some_iff.mp empty
    have nothing : bytes "" = [] := rfl
    rw [nothing] at split
    apply bytes_injective
    generalize bytes v = bs at split
    cases split
    rfl

end Shipyard.Text

import Shipyard.Proofs.Gateway.Cookies
import Shipyard.Proofs.Json.Strings
import Shipyard.Proofs.Text.Escapes

/-!
# Session tokens in cookies

A token is written into a cookie byte by byte: a few characters may stand for themselves, every
byte may be an escape, and a blank may be a plus sign. None of the ways to write it has a character
that a cookie header is divided by, so the token is read from the header whatever else is there.
-/

namespace Shipyard.Gateway

/-- The characters that stand for themselves in a token. -/
def unreserved : List Char :=
  "ABCDEFGHIJKLMNOPQRSTUVWXYZabcdefghijklmnopqrstuvwxyz0123456789-._~".toList

/-- A hexadecimal digit in either case. -/
def IsHexDigit (n : Nat) (c : Char) : Prop :=
  c = Text.digitChar n ∨ c = (Text.digitChar n).toUpper

instance (n : Nat) (c : Char) : Decidable (IsHexDigit n c) := inferInstanceAs (Decidable (_ ∨ _))

/-- Characters that write bytes in a cookie. -/
inductive Writes : List Char → Bytes → Prop
  | nil : Writes [] []
  | plain {c : Char} {cs : List Char} {bs : Bytes} :
    c ∈ unreserved → Writes cs bs → Writes (c :: cs) (UInt8.ofNat c.toNat :: bs)
  | plus {cs : List Char} {bs : Bytes} : Writes cs bs → Writes ('+' :: cs) (32 :: bs)
  | escape {b : UInt8} {high low : Char} {cs : List Char} {bs : Bytes} :
    IsHexDigit (b.toNat / 16) high → IsHexDigit (b.toNat % 16) low → Writes cs bs →
      Writes ('%' :: high :: low :: cs) (b :: bs)

/-- A character that may come up in a written token: no cookie is divided there, nor are blanks and
quotes mistaken for it. -/
def IsInner (c : Char) : Prop := c ≠ ';' ∧ c ≠ '"' ∧ Text.isBlank c = false

instance (c : Char) : Decidable (IsInner c) := inferInstanceAs (Decidable (_ ∧ _))

/-- What a character is to the reader of a token. -/
theorem unreserved_spec {c : Char} (mem : c ∈ unreserved) :
    c.toNat < 0x80 ∧ UInt8.ofNat c.toNat ≠ 37 ∧ UInt8.ofNat c.toNat ≠ 43 ∧ IsInner c := by
  have all : (unreserved.all fun c => c.toNat < 0x80 ∧ UInt8.ofNat c.toNat ≠ 37 ∧
      UInt8.ofNat c.toNat ≠ 43 ∧ IsInner c) = true := by
    decide +kernel
  exact of_decide_eq_true (List.all_eq_true.mp all c mem)

theorem hexDigit_spec {n : Nat} (small : n < 16) {c : Char} (digit : IsHexDigit n c) :
    c.toNat < 0x80 ∧ Text.hexValue? (UInt8.ofNat c.toNat) = some n ∧ IsInner c := by
  have all : ((List.range 16).all fun n =>
      [Text.digitChar n, (Text.digitChar n).toUpper].all fun c =>
        c.toNat < 0x80 ∧ Text.hexValue? (UInt8.ofNat c.toNat) = some n ∧ IsInner c) = true := by
    decide +kernel
  have each := List.all_eq_true.mp all n (List.mem_range.mpr small)
  exact of_decide_eq_true (List.all_eq_true.mp each c (by simpa [IsHexDigit] using digit))

theorem Writes.inner {cs : List Char} {bs : Bytes} (h : Writes cs bs) : ∀ c ∈ cs, IsInner c := by
  induction h with
  | nil => simp
  | plain mem _ ih =>
    rw [List.forall_mem_cons]
    exact ⟨(unreserved_spec mem).2.2.2, ih⟩
  | plus _ ih =>
    rw [List.forall_mem_cons]
    exact ⟨by decide, ih⟩
  | @escape b _ _ _ _ high low _ ih =>
    have small := b.toNat_lt
    simp only [List.forall_mem_cons]
    exact ⟨by decide, (hexDigit_spec (by omega) high).2.2, (hexDigit_spec (by omega) low).2.2, ih⟩

/-- What was written is read. -/
theorem Writes.decodeForm {cs : List Char} {bs : Bytes} (h : Writes cs bs) :
    Text.decodeForm (Text.encoded cs) = some bs := by
  induction h with
  | nil => rfl
  | plain mem _ ih =>
    obtain ⟨small, percent, plus, -⟩ := unreserved_spec mem
    rw [Text.encoded_cons, Text.utf8EncodeChar_small small, List.singleton_append,
      Text.decodeForm_plain percent plus, ih]
    rfl
  | plus _ ih =>
    have byte : String.utf8EncodeChar '+' = [43] := by decide
    rw [Text.encoded_cons, byte, List.singleton_append, Text.decodeForm, ih]
    rfl
  | @escape b _ _ _ _ high low _ ih =>
    have byte : String.utf8EncodeChar '%' = [37] := by decide
    have bound := b.toNat_lt
    obtain ⟨small, value, -⟩ := hexDigit_spec (by omega) high
    obtain ⟨small', value', -⟩ := hexDigit_spec (by omega) low
    have whole : UInt8.ofNat (b.toNat / 16 * 16 + b.toNat % 16) = b := by
      rw [Nat.div_add_mod' b.toNat 16, UInt8.ofNat_toNat]
    simp only [Text.encoded_cons, byte, Text.utf8EncodeChar_small small,
      Text.utf8EncodeChar_small small', List.singleton_append, Text.decodeForm, Text.hexByte?,
      value, value', Option.bind_eq_bind, Option.bind_some, ih, whole]

theorem Writes.ne_nil {cs : List Char} {s : String} (h : Writes cs (Text.bytes s))
    (some : s ≠ "") : cs ≠ [] := by
  rintro rfl
  have read := h.decodeForm
  have bytes : Text.bytes s = Text.bytes "" := (Option.some.inj read).symm
  exact some (Text.bytes_injective bytes)

theorem tokenOf_writes {cs : List Char} {s : String} (h : Writes cs (Text.bytes s))
    (some : s ≠ "") : tokenOf cs = .some s := by
  have filled : cs.isEmpty = false := by
    rw [List.isEmpty_eq_false_iff]
    exact h.ne_nil some
  rw [tokenOf, filled, Text.percentDecode?, Text.bytes_ofList, h.decodeForm, Option.bind_some,
    Text.ofBytes?_bytes]
  rfl

/-- A written token as the value of a cookie, as it is or between quotes. -/
def IsValue (written value : List Char) : Prop :=
  value = written ∨ value = '"' :: (written ++ ['"'])

theorem IsValue.solid {written value : List Char} (h : IsValue written value)
    (inner : ∀ c ∈ written, IsInner c) : ∀ c ∈ value, c ≠ ';' ∧ Text.isBlank c = false := by
  have quote : '"' ≠ ';' ∧ Text.isBlank '"' = false := by decide
  intro c mem
  rcases h with rfl | rfl
  · exact ⟨(inner c mem).1, (inner c mem).2.2⟩
  · rcases List.mem_cons.mp mem with rfl | mem
    · exact quote
    · rcases List.mem_append.mp mem with mem | mem
      · exact ⟨(inner c mem).1, (inner c mem).2.2⟩
      · rw [List.mem_singleton.mp mem]
        exact quote

theorem IsValue.unquote {written value : List Char} (h : IsValue written value)
    (inner : ∀ c ∈ written, IsInner c) : unquote value = written := by
  rcases h with rfl | rfl
  · cases value with
    | nil => rfl
    | cons c cs =>
      have plain : c ≠ '"' := (inner c (by simp)).2.1
      rw [Gateway.unquote]
      rintro cs' same
      exact absurd (List.cons.inj same).1 plain
  · rw [Gateway.unquote, List.getLast?_append]
    simp

/-- The first pieces of a text that is put together from pieces. -/
theorem pieces_intercalate {mark : Char} {before : List (List Char)} {piece : List Char}
    (absent : ∀ p ∈ before, mark ∉ p) (absent' : mark ∉ piece) (after : List (List Char)) :
    ∃ rest, pieces mark ([mark].intercalate (before ++ piece :: after)) =
      before ++ piece :: rest := by
  induction before with
  | nil =>
    cases after with
    | nil =>
      refine ⟨[], ?_⟩
      exact (congrArg _ List.intercalate_singleton).trans (pieces_of_notMem absent')
    | cons q qs =>
      refine ⟨pieces mark ([mark].intercalate (q :: qs)), ?_⟩
      rw [List.nil_append, List.intercalate_cons_cons, List.append_assoc, List.singleton_append,
        pieces_append, pieces_of_notMem absent']
      rfl
  | cons p ps ih =>
    obtain ⟨rest, later⟩ := ih fun p mem => absent p (List.mem_cons_of_mem _ mem)
    obtain ⟨q, qs, shape⟩ := List.exists_cons_of_ne_nil
      (List.append_ne_nil_of_right_ne_nil ps (List.cons_ne_nil piece after))
    refine ⟨rest, ?_⟩
    rw [List.cons_append, shape, List.intercalate_cons_cons, List.append_assoc,
      List.singleton_append, pieces_append, pieces_of_notMem (absent p (by simp)), ← shape, later]
    rfl

/-- The pair of the session, with blanks around it, its name and its value. -/
def sessionPair (a b c d value : List Char) : List Char :=
  a ++ sessionCookie.toList ++ b ++ '=' :: (c ++ value ++ d)

section Pair

variable {written value a b c d : List Char}

theorem notMem_sessionPair (blank : Text.IsBlank (a ++ b ++ c ++ d)) (absent : ';' ∉ value) :
    ';' ∉ sessionPair a b c d value := by
  have outside := blank.notMem (by decide : Text.isBlank ';' = false)
  have name : ';' ∉ sessionCookie.toList := by decide +kernel
  simp only [List.mem_append, not_or] at outside
  simp [sessionPair, outside, name, absent]

theorem sessionValue?_sessionPair (blank : Text.IsBlank (a ++ b ++ c ++ d))
    (solid : ∀ x ∈ value, Text.isBlank x = false) :
    sessionValue? (sessionPair a b c d value) = some (unquote value) := by
  simp only [Text.isBlank_append] at blank
  obtain ⟨⟨⟨blankA, blankB⟩, blankC⟩, blankD⟩ := blank
  have solid' : Text.isBlank '=' = false := by decide
  have name : '=' ∉ sessionCookie.toList := by decide +kernel
  have first : '=' ∉ a ++ sessionCookie.toList ++ b := by
    simp [blankA.notMem solid', blankB.notMem solid', name]
  have session : Text.trim (a ++ sessionCookie.toList ++ b) = sessionCookie.toList := by
    rw [Text.trim_append_blanks blankA blankB]
    decide +kernel
  have value' : Text.trim (c ++ value ++ d) = value := by
    rw [Text.trim_append_blanks blankC blankD]
    exact Text.trim_of_solid (fun x mem => solid x (List.mem_of_head? mem))
      fun x mem => solid x (List.mem_of_getLast? mem)
  rw [sessionPair, sessionValue?_append first session, value']

end Pair

/-- A written token is read from a cookie header: its pair may be anywhere behind pieces that do
not name the session, whatever follows, with blanks of any kind around name and value. -/
theorem session_token_round_trip {s : String} (filled : s ≠ "") {written : List Char}
    (token : Writes written (Text.bytes s)) {value : List Char} (whole : IsValue written value)
    {a b c d : List Char} (blank : Text.IsBlank (a ++ b ++ c ++ d))
    (before after : List (List Char)) (others : ∀ p ∈ before, ';' ∉ p ∧ ¬ NamesSession p) :
    sessionToken? (String.ofList
      ([';'].intercalate (before ++ sessionPair a b c d value :: after))) = some s := by
  have solid := whole.solid token.inner
  have undivided := notMem_sessionPair blank fun mem => (solid ';' mem).1 rfl
  obtain ⟨rest, divided⟩ := pieces_intercalate (fun p mem => (others p mem).1) undivided after
  have passed : before.findSome? sessionValue? = none := by
    rw [List.findSome?_eq_none_iff]
    exact fun p mem => sessionValue?_eq_none_iff.mpr (others p mem).2
  have found := sessionValue?_sessionPair blank fun x mem => (solid x mem).2
  rw [sessionToken?, String.toList_ofList, divided, List.findSome?_append, passed, Option.none_or,
    List.findSome?_cons, found, whole.unquote token.inner]
  exact tokenOf_writes token filled

/-- A token with a blank and a letter of two bytes, behind a pair that is named in small letters. -/
theorem session_token_round_trip_with_blank_and_accent :
    sessionToken? "x-session-uuid=1;  X-Session-Uuid\t= \"%c3%A9+a\" ;X-Session-Uuid=2" =
      some "é a" := by
  have token : Writes "%c3%A9+a".toList (Text.bytes "é a") := by
    have chars : "%c3%A9+a".toList = ['%', 'c', '3', '%', 'A', '9', '+', 'a'] := by decide +kernel
    have bytes : Text.bytes "é a" = [0xc3, 0xa9, 32, 97] := by decide +kernel
    rw [chars, bytes]
    exact .escape (by decide) (by decide) (.escape (by decide) (by decide)
      (.plus (.plain (by decide +kernel) .nil)))
  have read := session_token_round_trip (by decide +kernel) token (Or.inr rfl)
    (a := [' ', ' ']) (b := ['\t']) (c := [' ']) (d := [' ']) (by decide +kernel)
    ["x-session-uuid=1".toList] ["X-Session-Uuid=2".toList] (by decide +kernel)
  refine Eq.trans (congrArg sessionToken? ?_) read
  decide +kernel

end Shipyard.Gateway

import Mathlib.Data.List.TakeWhile
import Shipyard.Money
import Shipyard.Proofs.Text.Digits

/-!
# Texts of amounts

An amount is written as a decimal number of units with two places, and is read from that text again.
Only the least amount has no text.
-/

namespace Shipyard.Money

open Text (AreDigits IsDecimal valueOf)

/-- The least amount. Its magnitude is out of range. -/
def least : Money := ⟨-0x8000000000000000, by omega⟩

def sign (cents : Int) : List Char := if cents < 0 then ['-'] else []

/-- A text of an amount: a minus sign if it is negative, the units, a point and two places. -/
inductive Shows (cents : Int) : List Char → Prop
  | mk {units places : List Char} (whole : IsDecimal (cents.natAbs / 100) units)
    (digits : AreDigits places) (two : places.length = 2)
    (value : valueOf places = cents.natAbs % 100) :
    Shows cents (sign cents ++ units ++ '.' :: places)

/-- Reads a decimal number with two places as a number of hundredths, by leaving out the point. -/
def hundredths? (cs : List Char) : Option Nat :=
  let units := cs.takeWhile (· ≠ '.')
  match cs.dropWhile (· ≠ '.') with
  | ['.', a, b] =>
    if units ≠ [] ∧ AreDigits (units ++ [a, b]) then some (valueOf (units ++ [a, b])) else none
  | _ => none

def signedHundredths? : List Char → Option Int
  | '-' :: cs => (hundredths? cs).map fun n : Nat => -(n : Int)
  | cs => (hundredths? cs).map fun n : Nat => (n : Int)

theorem hundredths?_append {units places : List Char} {n : Nat} (whole : IsDecimal n units)
    (digits : AreDigits places) (two : places.length = 2) :
    hundredths? (units ++ '.' :: places) = some (100 * n + valueOf places) := by
  have before : ∀ c ∈ units, decide (c ≠ '.') = true := by
    intro c mem
    have absent : '.' ∉ units := whole.digits.notMem (by decide)
    rw [decide_eq_true_eq]
    rintro rfl
    exact absent mem
  obtain ⟨a, b, rfl⟩ := List.length_eq_two.mp two
  have front : (units ++ ['.', a, b]).takeWhile (· ≠ '.') = units := by
    rw [List.takeWhile_append_of_pos before]
    simp
  have back : (units ++ ['.', a, b]).dropWhile (· ≠ '.') = ['.', a, b] := by
    rw [List.dropWhile_append_of_pos before]
    simp
  have all : AreDigits (units ++ [a, b]) := Text.areDigits_append.mpr ⟨whole.digits, digits⟩
  have value : valueOf (units ++ [a, b]) = 100 * n + valueOf [a, b] := by
    rw [Text.valueOf_append, whole.value, Nat.mul_comm]
    rfl
  simp only [hundredths?, front, back, value]
  rw [if_pos ⟨whole.nonempty, all⟩]

/-- What shows an amount is read as that amount. -/
theorem Shows.read {cents : Int} {cs : List Char} (h : Shows cents cs) :
    signedHundredths? cs = some cents := by
  cases h with
  | @mk units places whole digits two value =>
    have read := hundredths?_append whole digits two
    have sum : 100 * (cents.natAbs / 100) + valueOf places = cents.natAbs := by
      rw [value]
      exact Nat.div_add_mod cents.natAbs 100
    rw [sum] at read
    by_cases negative : cents < 0
    · have value : -(cents.natAbs : Int) = cents := by omega
      simp only [sign, if_pos negative, List.cons_append, List.nil_append, signedHundredths?, read,
        Option.map_some, value]
    · -- The first character is a digit, so it is not taken for a sign.
      have value : (cents.natAbs : Int) = cents := by omega
      obtain ⟨c, units, rfl⟩ := List.exists_cons_of_ne_nil whole.nonempty
      have digit : c ≠ '-' := by
        rintro rfl
        exact absurd (whole.digits '-' (by simp)) (by decide)
      simp only [sign, if_neg negative, List.nil_append, List.cons_append] at read ⊢
      rw [signedHundredths?, read, Option.map_some, value]
      rintro rest same
      exact absurd (List.cons.inj same).1 digit

theorem text_least : text least = .error .negation := by
  rfl

theorem text_of_ne_least {m : Money} (ne : m ≠ least) :
    ∃ t, m.text = .ok t ∧ Shows m.cents t.toList := by
  have remainder : m.remainder = .ok (m.cents.natAbs % 100) := by
    rw [Money.remainder, if_neg]
    intro same
    apply ne
    cases m
    cases same
    rfl
  obtain ⟨digits, value, two⟩ := Text.padded_spec (by omega : 0 < 2)
    (Nat.mod_lt m.cents.natAbs (by omega : 100 > 0) : m.cents.natAbs % 100 < 10 ^ 2)
  have units : m.units.natAbs = m.cents.natAbs / 100 := Int.natAbs_tdiv _ _
  have whole := Text.isDecimal_decimal m.units.natAbs
  rw [units] at whole
  refine ⟨_, by rw [text, remainder]; rfl, ?_⟩
  have shown := Shows.mk whole digits two value
  have written : ((if m.cents < 0 then "-" else "") ++ Text.decimal m.units.natAbs ++ "." ++
      Text.padded 2 (m.cents.natAbs % 100)).toList = sign m.cents ++
        (Text.decimal (m.cents.natAbs / 100)).toList ++
          '.' :: (Text.padded 2 (m.cents.natAbs % 100)).toList := by
    rw [units]
    by_cases negative : m.cents < 0
    · simp [sign, negative]
    · simp [sign, negative]
  rw [written]
  exact shown

theorem eq_least_of_error {m : Money} {e : Fault} (failed : m.text = .error e) : m = least := by
  by_contra other
  obtain ⟨t, written, -⟩ := text_of_ne_least other
  rw [failed] at written
  cases written

theorem read_of_text {m : Money} {t : String} (written : m.text = .ok t) :
    signedHundredths? t.toList = some m.cents := by
  have other : m ≠ least := by
    rintro rfl
    rw [text_least] at written
    cases written
  obtain ⟨t', written', shown⟩ := text_of_ne_least other
  rw [written] at written'
  rw [Except.ok.inj written', shown.read]

theorem text_injective {m n : Money} (same : n.text = m.text) : n = m := by
  cases outcome : m.text with
  | error e => rw [eq_least_of_error outcome, eq_least_of_error (same.trans outcome)]
  | ok t =>
    have read := read_of_text outcome
    rw [read_of_text (same.trans outcome)] at read
    cases n
    cases m
    cases read
    rfl

/-- Every amount but the least has a text, which shows it and is read as it. No two amounts have the
same text, and only the least one aborts what it is to be written for. -/
theorem text_exact (m : Money) :
    (m = least → m.text = .error .negation) ∧
      (m ≠ least → ∃ t, m.text = .ok t ∧ Shows m.cents t.toList ∧
        signedHundredths? t.toList = some m.cents) ∧
      ∀ n : Money, n.text = m.text → n = m := by
  refine ⟨?_, ?_, fun n same => text_injective same⟩
  · rintro rfl
    exact text_least
  · intro other
    obtain ⟨t, written, shown⟩ := text_of_ne_least other
    exact ⟨t, written, shown, shown.read⟩

/-- An amount between minus one unit and zero keeps its sign. -/
theorem text_exact_five_cents_owed :
    (⟨-5, by omega⟩ : Money) ≠ least ∧
      ∃ t, text ⟨-5, by omega⟩ = .ok t ∧ Shows (-5) t.toList ∧
        signedHundredths? t.toList = some (-5) :=
  ⟨by decide, (text_exact ⟨-5, by omega⟩).2.1 (by decide)⟩

theorem least_without_text : ¬ ∃ t, text least = .ok t := by
  rintro ⟨t, written⟩
  rw [text_least] at written
  cases written

end Shipyard.Money

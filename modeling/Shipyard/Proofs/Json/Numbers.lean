import Shipyard.Proofs.Json.Strings
import Shipyard.Proofs.Text.Digits

/-!
# Numbers that were written

A natural number of 64 bits is read from its decimal digits if what follows them can be no part of
a number.
-/

namespace Shipyard

namespace Text

/-- The byte of a decimal digit. -/
def digitByte (d : Nat) : UInt8 := UInt8.ofNat (48 + d)

theorem digitByte_spec {d : Nat} (small : d < 10) :
    String.utf8EncodeChar (digitChar d) = [digitByte d] ∧ isDigit (digitByte d) = true ∧
      digitValue (digitByte d) = d ∧ (digitByte d = 48 ↔ d = 0) := by
  have all : ∀ d < 10, String.utf8EncodeChar (digitChar d) = [digitByte d] ∧
      isDigit (digitByte d) = true ∧ digitValue (digitByte d) = d ∧
      (digitByte d = 48 ↔ d = 0) := by
    decide
  exact all d small

theorem encoded_digits {ds : List Nat} (small : ∀ d ∈ ds, d < 10) :
    encoded (ds.map digitChar) = ds.map digitByte := by
  induction ds with
  | nil => rfl
  | cons d ds ih =>
    rw [List.map_cons, encoded_cons, (digitByte_spec (small d (by simp))).1,
      ih fun d mem => small d (by simp [mem])]
    rfl

end Text

namespace Json

/-- What follows can be no part of a number before it. -/
def EndsNumber (rest : Bytes) : Prop :=
  ∀ b bs, rest = b :: bs → Text.isDigit b = false ∧ b ≠ 46 ∧ b ≠ 101 ∧ b ≠ 69

theorem le_foldl_digits (ds : List Nat) (value : Nat) :
    value ≤ ds.foldl (fun a d => 10 * a + d) value := by
  induction ds generalizing value with
  | nil => exact Nat.le_refl _
  | cons d ds ih =>
    rw [List.foldl_cons]
    exact Nat.le_trans (by omega) (ih _)

theorem digitsOnto_digits {ds : List Nat} (small : ∀ d ∈ ds, d < 10) {rest : Bytes}
    (ends : EndsNumber rest) (value count : Nat)
    (bounded : ds.foldl (fun a d => 10 * a + d) value < 0x10000000000000000) :
    digitsOnto value count (ds.map Text.digitByte ++ rest) =
      (ds.foldl (fun a d => 10 * a + d) value, count + ds.length, rest) := by
  induction ds generalizing value count with
  | nil =>
    cases rest with
    | nil => rfl
    | cons b bs => simp [digitsOnto, (ends b bs rfl).1]
  | cons d ds ih =>
    obtain ⟨-, digit, same, -⟩ := Text.digitByte_spec (small d (by simp))
    have fits : 10 * value + d < 0x10000000000000000 :=
      Nat.lt_of_le_of_lt (le_foldl_digits ds _) bounded
    have step : digitsOnto value count (Text.digitByte d :: (ds.map Text.digitByte ++ rest)) =
        digitsOnto (10 * value + d) (count + 1) (ds.map Text.digitByte ++ rest) := by
      simp [digitsOnto, digit, same, fits]
    rw [List.map_cons, List.cons_append, step,
      ih (fun d mem => small d (by simp [mem])) _ _ bounded]
    simp
    omega

theorem afterDigits_natural {rest : Bytes} (ends : EndsNumber rest) (n : Nat) :
    afterDigits false n 0 rest = .ok (.integer n, rest) := by
  cases rest with
  | nil => rfl
  | cons b bs =>
    obtain ⟨-, point, small, capital⟩ := ends b bs rfl
    unfold afterDigits
    split <;> simp_all

/-- A natural number that was written is read again. -/
theorem number_decimal {n : Nat} (bounded : n < 0x10000000000000000) {rest : Bytes}
    (ends : EndsNumber rest) :
    ∃ b bs, Text.encoded (Text.decimal n).toList = b :: bs ∧ Text.isDigit b = true ∧
      number false (b :: (bs ++ rest)) = .ok (.integer n, rest) := by
  have small := Text.digits_lt (by omega : 2 ≤ 10) n
  have written : Text.encoded (Text.decimal n).toList = (Text.digits 10 n).map Text.digitByte := by
    rw [Text.decimal, String.toList_ofList, Text.encoded_digits small]
  by_cases zero : n = 0
  · subst zero
    have open' : startsWithDigit rest = false := by
      cases rest with
      | nil => rfl
      | cons b bs => exact (ends b bs rfl).1
    refine ⟨48, [], by simp [written, Text.digits, Text.digitByte], by decide, ?_⟩
    have last := afterDigits_natural ends 0
    simp [number, open', last]
  · obtain ⟨d, ds, same, positive⟩ := Text.digits_eq_cons (by omega : 2 ≤ 10)
      (Nat.pos_of_ne_zero zero)
    obtain ⟨-, digit, -, naught⟩ := Text.digitByte_spec (small d (by simp [same]))
    have nonzero : Text.digitByte d ≠ 48 := fun h => by
      have : d = 0 := naught.mp h
      omega
    have value := Text.foldl_digits (by omega : 2 ≤ 10) n
    have onto := digitsOnto_digits small ends 0 0 (by rw [value]; exact bounded)
    rw [value, same] at onto
    refine ⟨Text.digitByte d, ds.map Text.digitByte, by rw [written, same]; rfl, digit, ?_⟩
    have none : rest.takeWhile Text.isDigit = [] ∧ rest.dropWhile Text.isDigit = rest := by
      cases rest with
      | nil => exact ⟨rfl, rfl⟩
      | cons b bs => simp [(ends b bs rfl).1]
    have last := afterDigits_natural ends n
    rw [List.map_cons, List.cons_append] at onto
    simp [number, nonzero, digit, onto, none, last]

end Json
end Shipyard

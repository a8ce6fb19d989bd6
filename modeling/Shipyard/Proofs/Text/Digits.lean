import Mathlib.Algebra.Group.Nat.Defs
import Mathlib.Data.List.Basic
import Shipyard.Text.Digits

/-!
# Digits that were written

The digits of a number are below the base and make up the number again. Decimal digits are valued
from the left, so digits in front weigh as much as there are digits behind them.
-/

namespace Shipyard.Text

theorem digits_lt {base : Nat} (large : 2 ≤ base) (n : Nat) : ∀ d ∈ digits base n, d < base := by
  induction n using Nat.strongRecOn with
  | ind n ih =>
    rw [digits]
    split
    · next small =>
      intro d mem
      obtain rfl := List.mem_singleton.mp mem
      omega
    · next more =>
      intro d mem
      rcases List.mem_append.mp mem with mem | mem
      · exact ih (n / base) (Nat.div_lt_self (by omega) (by omega)) d mem
      · obtain rfl := List.mem_singleton.mp mem
        exact Nat.mod_lt n (by omega)

theorem foldl_digits {base : Nat} (large : 2 ≤ base) (n : Nat) :
    (digits base n).foldl (fun a d => base * a + d) 0 = n := by
  induction n using Nat.strongRecOn with
  | ind n ih =>
    rw [digits]
    split
    · simp
    · next more =>
      rw [List.foldl_append, ih (n / base) (Nat.div_lt_self (by omega) (by omega))]
      simp [Nat.div_add_mod]

/-- A number that is not zero begins with a digit that is not zero. -/
theorem digits_eq_cons {base : Nat} (large : 2 ≤ base) {n : Nat} (positive : 0 < n) :
    ∃ d ds, digits base n = d :: ds ∧ 0 < d := by
  induction n using Nat.strongRecOn with
  | ind n ih =>
    rw [digits]
    split
    · exact ⟨n, [], rfl, positive⟩
    · next more =>
      obtain ⟨d, ds, same, first⟩ := ih (n / base) (Nat.div_lt_self (by omega) (by omega))
        (Nat.div_pos (by omega) (by omega))
      exact ⟨d, ds ++ [n % base], by simp [same], first⟩

/-- A number has no more digits than the least power of the base above it has zeros. -/
theorem length_digits_le {base k n : Nat} (some : 0 < k)
    (small : n < base ^ k) : (digits base n).length ≤ k := by
  induction k generalizing n with
  | zero => omega
  | succ k ih =>
    rw [digits]
    split
    · simp
    · next more =>
      have rest : n / base < base ^ k := by
        rw [Nat.pow_succ] at small
        exact Nat.div_lt_of_lt_mul (by rwa [Nat.mul_comm])
      have later : 0 < k := by
        rcases Nat.eq_zero_or_pos k with rfl | positive
        · rw [Nat.zero_add, Nat.pow_one] at small
          omega
        · exact positive
      have shorter := ih later rest
      rw [List.length_append, List.length_singleton]
      omega

/-! ## Decimal digits -/

/-- Characters that are decimal digits without exception. -/
def AreDigits (cs : List Char) : Prop := ∀ c ∈ cs, c.isDigit = true

instance (cs : List Char) : Decidable (AreDigits cs) := List.decidableBAll _ _

theorem areDigits_append {cs ds : List Char} :
    AreDigits (cs ++ ds) ↔ AreDigits cs ∧ AreDigits ds := List.forall_mem_append

theorem AreDigits.notMem {cs : List Char} (digits : AreDigits cs) {c : Char}
    (other : c.isDigit = false) : c ∉ cs := by
  intro mem
  rw [digits c mem] at other
  cases other

theorem digitChar_spec {d : Nat} (small : d < 10) :
    (digitChar d).isDigit = true ∧ (digitChar d).toNat - 48 = d ∧ (digitChar d = '0' ↔ d = 0) := by
  have all : ∀ d < 10, (digitChar d).isDigit = true ∧ (digitChar d).toNat - 48 = d ∧
      (digitChar d = '0' ↔ d = 0) := by
    decide
  exact all d small

theorem areDigits_map {ds : List Nat} (small : ∀ d ∈ ds, d < 10) :
    AreDigits (ds.map digitChar) := by
  intro c mem
  obtain ⟨d, inside, rfl⟩ := List.mem_map.mp mem
  exact (digitChar_spec (small d inside)).1

/-- The value of digits that come behind others of value `n`. -/
theorem foldl_valueOf (cs : List Char) (n : Nat) :
    cs.foldl (fun n d => 10 * n + (d.toNat - 48)) n = n * 10 ^ cs.length + valueOf cs := by
  induction cs generalizing n with
  | nil => simp [valueOf]
  | cons c cs ih =>
    have first : 10 * 0 + (c.toNat - 48) = c.toNat - 48 := by omega
    rw [valueOf, List.foldl_cons, List.foldl_cons, ih, ih (10 * 0 + (c.toNat - 48)), first,
      List.length_cons, Nat.pow_succ', Nat.add_mul, Nat.mul_comm 10 n, Nat.mul_assoc,
      Nat.add_assoc]

theorem valueOf_append (cs ds : List Char) :
    valueOf (cs ++ ds) = valueOf cs * 10 ^ ds.length + valueOf ds := by
  rw [valueOf, List.foldl_append, foldl_valueOf]
  rfl

theorem valueOf_map {ds : List Nat} (small : ∀ d ∈ ds, d < 10) :
    valueOf (ds.map digitChar) = ds.foldl (fun a d => 10 * a + d) 0 := by
  rw [valueOf, List.foldl_map]
  apply List.foldl_ext
  intro a d mem
  rw [(digitChar_spec (small d mem)).2.1]

theorem valueOf_zeros (k : Nat) : valueOf (List.replicate k '0') = 0 := by
  induction k with
  | zero => rfl
  | succ k ih =>
    have zero : valueOf ['0'] = 0 := by decide
    rw [List.replicate_succ', valueOf_append, ih, zero]
    simp

/-- The way to write a number in decimal digits: it begins with zero only if it is zero. -/
structure IsDecimal (n : Nat) (cs : List Char) : Prop where
  digits : AreDigits cs
  value : valueOf cs = n
  nonempty : cs ≠ []
  leading : cs.head? = some '0' → cs = ['0']

theorem isDecimal_decimal (n : Nat) : IsDecimal n (decimal n).toList := by
  have small := digits_lt (by omega : 2 ≤ 10) n
  rw [decimal, String.toList_ofList]
  refine ⟨areDigits_map small, ?_, ?_, ?_⟩
  · rw [valueOf_map small, foldl_digits (by omega)]
  · rw [digits]
    split <;> simp
  · intro zero
    rcases Nat.eq_zero_or_pos n with rfl | positive
    · rw [digits]
      rfl
    · obtain ⟨d, ds, same, first⟩ := digits_eq_cons (by omega : 2 ≤ 10) positive
      rw [same, List.map_cons, List.head?_cons, Option.some.injEq,
        (digitChar_spec (small d (by simp [same]))).2.2] at zero
      omega

/-- A number that has no more digits than there is room for is filled up to that room. -/
theorem padded_spec {width n : Nat} (room : 0 < width) (small : n < 10 ^ width) :
    AreDigits (padded width n).toList ∧ valueOf (padded width n).toList = n ∧
      (padded width n).toList.length = width := by
  have short := length_digits_le room small
  have below := digits_lt (by omega : 2 ≤ 10) n
  have zeros : AreDigits (List.replicate (width - ((digits 10 n).map digitChar).length) '0') := by
    intro c mem
    rw [List.eq_of_mem_replicate mem]
    decide
  rw [padded, String.toList_ofList]
  refine ⟨areDigits_append.mpr ⟨zeros, areDigits_map below⟩, ?_, ?_⟩
  · rw [valueOf_append, valueOf_zeros, Nat.zero_mul, Nat.zero_add, valueOf_map below,
      foldl_digits (by omega)]
  · simp only [List.length_append, List.length_replicate, List.length_map]
    omega

end Shipyard.Text

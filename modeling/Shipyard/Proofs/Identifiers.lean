import Mathlib.Algebra.Group.Nat.Defs
import Shipyard.Identifiers

/-!
# Identifiers and their texts

An identifier is read back from its text, so no two identifiers have the same text.
-/

namespace Shipyard

namespace Uuid

theorem length_nibbles (u : Uuid) : u.nibbles.length = 32 := by
  simp [nibbles]

theorem nibbles_lt (u : Uuid) : ∀ d ∈ u.nibbles, d < 16 := by
  intro d mem
  obtain ⟨i, -, rfl⟩ := List.mem_map.mp mem
  exact Nat.mod_lt _ (by decide)

/-- The lowest digits of a number, put together again. -/
theorem foldl_nibbles (k x : Nat) :
    ((List.range k).map fun i => x / 16 ^ (k - 1 - i) % 16).foldl (fun n d => 16 * n + d) 0 =
      x % 16 ^ k := by
  induction k generalizing x with
  | zero => simp [Nat.mod_one]
  | succ k ih =>
    have first : (List.range k).map (fun i => x / 16 ^ (k + 1 - 1 - i) % 16) =
        (List.range k).map fun i => x / 16 / 16 ^ (k - 1 - i) % 16 := by
      refine List.map_congr_left fun i mem => ?_
      have below : i < k := List.mem_range.mp mem
      have power : k + 1 - 1 - i = (k - 1 - i) + 1 := by omega
      rw [power, Nat.pow_succ, Nat.mul_comm, ← Nat.div_div_eq_div_mul]
    rw [List.range_succ, List.map_append, List.foldl_append, first, ih]
    simp only [List.map_cons, List.map_nil, List.foldl_cons, List.foldl_nil]
    have last : k + 1 - 1 - k = 0 := by omega
    rw [last, Nat.pow_zero, Nat.div_one, Nat.pow_succ, Nat.mul_comm (16 ^ k) 16, Nat.mod_mul]
    omega

theorem ofNibbles_nibbles (u : Uuid) : ofNibbles u.nibbles = u := by
  have value := foldl_nibbles 32 u.bits.toNat
  have small : u.bits.toNat % 16 ^ 32 = u.bits.toNat := Nat.mod_eq_of_lt u.bits.isLt
  rw [small] at value
  rw [ofNibbles, nibbles]
  have same : (List.range 32).map (fun i => u.bits.toNat / Nat.pow 16 (31 - i) % 16) =
      (List.range 32).map fun i => u.bits.toNat / 16 ^ (32 - 1 - i) % 16 := rfl
  rw [same, value]
  simp

theorem hexDigit?_digitChar {d : Nat} (small : d < 16) : hexDigit? (Text.digitChar d) = some d := by
  have all : ∀ d < 16, hexDigit? (Text.digitChar d) = some d := by decide
  exact all d small

theorem mapM_hexDigit? {ds : List Nat} (small : ∀ d ∈ ds, d < 16) :
    (ds.map Text.digitChar).mapM hexDigit? = some ds := by
  induction ds with
  | nil => rfl
  | cons d ds ih =>
    rw [List.map_cons, List.mapM_cons, hexDigit?_digitChar (small d (by simp)),
      ih fun d mem => small d (by simp [mem])]
    rfl

/-- Groups of 8, 4, 4, 4 and as many characters as are left. -/
theorem grouped_append {a b c : List Char} (ha : a.length = 8) (hb : b.length = 4)
    (hc : c.length = 4) {d : List Char} (hd : d.length = 4) (e : List Char) :
    grouped (a ++ (b ++ (c ++ (d ++ e)))) =
      a ++ '-' :: (b ++ '-' :: (c ++ '-' :: (d ++ '-' :: e))) := by
  simp (disch := omega) [grouped, List.drop_append, List.drop_eq_nil_of_le, ha, hb, hc]

/-- Taking the hyphens out again. -/
theorem ungrouped?_grouped {cs : List Char} (length : cs.length = 32) :
    ungrouped? (grouped cs) = some cs := by
  obtain ⟨a, b, c, d, e, rfl, ha, hb, hc, hd, he⟩ : ∃ a b c d e : List Char,
      cs = a ++ (b ++ (c ++ (d ++ e))) ∧ a.length = 8 ∧ b.length = 4 ∧ c.length = 4 ∧
        d.length = 4 ∧ e.length = 12 := by
    refine ⟨cs.take 8, (cs.drop 8).take 4, (cs.drop 12).take 4, (cs.drop 16).take 4, cs.drop 20,
      ?_, by simp [length], by simp [length], by simp [length], by simp [length],
      by simp [length]⟩
    have parts (i : Nat) : cs.drop i = (cs.drop i).take 4 ++ cs.drop (i + 4) := by
      rw [← List.drop_drop, List.take_append_drop]
    rw [← parts 16, ← parts 12, ← parts 8, List.take_append_drop]
  have hyphen (n : Nat) (front back : List Char) (long : front.length = n) :
      (front ++ '-' :: back)[n]? = some '-' := by
    rw [← long]
    simp
  have fourth := hyphen 23 (a ++ '-' :: (b ++ '-' :: (c ++ '-' :: d))) e
    (by simp [ha, hb, hc, hd])
  have third := hyphen 18 (a ++ '-' :: (b ++ '-' :: c)) (d ++ '-' :: e) (by simp [ha, hb, hc])
  have second := hyphen 13 (a ++ '-' :: b) (c ++ '-' :: (d ++ '-' :: e)) (by simp [ha, hb])
  have first := hyphen 8 a (b ++ '-' :: (c ++ '-' :: (d ++ '-' :: e))) ha
  simp only [List.append_assoc, List.cons_append] at second third fourth
  rw [grouped_append ha hb hc hd]
  simp (disch := omega) [ungrouped?, first, second, third, fourth, List.drop_append,
    List.drop_eq_nil_of_le, ha, hb, hc, hd, he]

theorem parse_text (u : Uuid) : parse u.text = .ok u := by
  have digits : ofDigits? (u.nibbles.map Text.digitChar) = some u := by
    simp [ofDigits?, length_nibbles, mapM_hexDigit? u.nibbles_lt, ofNibbles_nibbles]
  have groups : ofGroups? u.chars = some u := by
    rw [ofGroups?, chars, ungrouped?_grouped (by simp [length_nibbles]), Option.bind_some, digits]
  have long : ofDigits? u.chars = none := by
    simp [ofDigits?, chars, grouped, length_nibbles]
  simp [parse, text, ofChars?, groups, long]

theorem text_injective {u v : Uuid} (same : u.text = v.text) : u = v := by
  have read := parse_text u
  rw [same, parse_text v] at read
  exact (Except.ok.inj read).symm

end Uuid

theorem OrderId.text_injective {a b : OrderId} (same : a.text = b.text) : a = b := by
  cases a
  cases b
  exact congrArg OrderId.mk (Uuid.text_injective same)

end Shipyard

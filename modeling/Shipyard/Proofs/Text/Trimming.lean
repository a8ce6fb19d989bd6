import Mathlib.Data.List.TakeWhile
import Shipyard.Text.Blank

/-!
# Trimming

Trimming takes the blanks off both ends of a text and leaves what stands between them. A
character that is no blank divides a text into a part that is trimmed at its left only and a part
that is trimmed at its right only.
-/

namespace Shipyard.Text

variable {before after cs xs ys : List Char} {c : Char}

/-- Characters that are blanks without exception. -/
def IsBlank (cs : List Char) : Prop := ∀ c ∈ cs, isBlank c = true

instance (cs : List Char) : Decidable (IsBlank cs) := List.decidableBAll _ _

theorem isBlank_nil : IsBlank [] := fun _ mem => nomatch mem

theorem isBlank_append : IsBlank (xs ++ ys) ↔ IsBlank xs ∧ IsBlank ys := List.forall_mem_append

theorem IsBlank.notMem (blank : IsBlank cs) (solid : isBlank c = false) : c ∉ cs := by
  intro mem
  rw [blank c mem] at solid
  cases solid

theorem dropWhile_of_head (h : ∀ c ∈ cs.head?, isBlank c = false) :
    cs.dropWhile isBlank = cs := by
  cases cs with
  | nil => rfl
  | cons c cs => rw [List.dropWhile_cons_of_neg (by simp [h c rfl])]

/-- Nothing is left of a text of blanks, and of no other one. -/
theorem trim_eq_nil_iff : trim cs = [] ↔ IsBlank cs := by
  rw [trim, trimRight, List.reverse_eq_nil_iff, List.dropWhile_eq_nil_iff]
  simp only [List.mem_reverse, trimLeft]
  constructor
  · intro rest c mem
    rw [← List.takeWhile_append_dropWhile (p := isBlank) (l := cs)] at mem
    rcases List.mem_append.mp mem with first | later
    · exact List.mem_takeWhile_imp first
    · exact rest c later
  · intro blank c mem
    exact blank c ((List.dropWhile_sublist _).subset mem)

theorem isBlank_or_exists (cs : List Char) :
    IsBlank cs ∨ ∃ xs c ys, cs = xs ++ c :: ys ∧ isBlank c = false := by
  by_cases blank : IsBlank cs
  · exact Or.inl blank
  · right
    simp only [IsBlank, not_forall, Bool.not_eq_true] at blank
    obtain ⟨c, mem, solid⟩ := blank
    obtain ⟨xs, ys, rfl⟩ := List.append_of_mem mem
    exact ⟨xs, c, ys, rfl, solid⟩

theorem trimLeft_blank_append (blank : IsBlank before) (cs : List Char) :
    trimLeft (before ++ cs) = trimLeft cs := by
  induction before with
  | nil => rfl
  | cons b before ih =>
    rw [trimLeft, List.cons_append, List.dropWhile_cons_of_pos (blank b (by simp))]
    exact ih fun c mem => blank c (List.mem_cons_of_mem b mem)

theorem trimLeft_append_cons (solid : isBlank c = false) (xs ys : List Char) :
    trimLeft (xs ++ c :: ys) = trimLeft xs ++ c :: ys := by
  induction xs with
  | nil =>
    rw [List.nil_append, trimLeft, List.dropWhile_cons_of_neg (by simp [solid])]
    rfl
  | cons x xs ih =>
    simp only [trimLeft, List.cons_append, List.dropWhile_cons] at ih ⊢
    split
    · exact ih
    · rfl

theorem trimRight_eq_reverse (cs : List Char) :
    trimRight cs = (trimLeft cs.reverse).reverse := rfl

theorem trimRight_append_blank (blank : IsBlank after) (cs : List Char) :
    trimRight (cs ++ after) = trimRight cs := by
  have blank' : IsBlank after.reverse := fun c mem => blank c (List.mem_reverse.mp mem)
  rw [trimRight_eq_reverse, List.reverse_append, trimLeft_blank_append blank',
    ← trimRight_eq_reverse]

theorem trimRight_append_cons (solid : isBlank c = false) (xs ys : List Char) :
    trimRight (xs ++ c :: ys) = xs ++ c :: trimRight ys := by
  have turned : (xs ++ c :: ys).reverse = ys.reverse ++ c :: xs.reverse := by simp
  rw [trimRight_eq_reverse, turned, trimLeft_append_cons solid, trimRight_eq_reverse]
  simp

theorem trim_append_cons (solid : isBlank c = false) (xs ys : List Char) :
    trim (xs ++ c :: ys) = trimLeft xs ++ c :: trimRight ys := by
  rw [trim, trimLeft_append_cons solid, trimRight_append_cons solid]

/-- Blanks around a text make no difference to what is left of it. -/
theorem trim_append_blanks (blank : IsBlank before) (blank' : IsBlank after) (cs : List Char) :
    trim (before ++ cs ++ after) = trim cs := by
  rcases isBlank_or_exists cs with all | ⟨xs, c, ys, rfl, solid⟩
  · have whole : IsBlank (before ++ cs ++ after) := by
      rw [isBlank_append, isBlank_append]
      exact ⟨⟨blank, all⟩, blank'⟩
    rw [trim_eq_nil_iff.mpr whole, trim_eq_nil_iff.mpr all]
  · have regrouped : before ++ (xs ++ c :: ys) ++ after = (before ++ xs) ++ c :: (ys ++ after) := by
      simp
    rw [regrouped, trim_append_cons solid, trim_append_cons solid,
      trimLeft_blank_append blank, trimRight_append_blank blank']

theorem exists_trimLeft (cs : List Char) :
    ∃ before, IsBlank before ∧ cs = before ++ trimLeft cs :=
  ⟨cs.takeWhile isBlank, fun _ mem => List.mem_takeWhile_imp mem,
    List.takeWhile_append_dropWhile.symm⟩

theorem exists_trimRight (cs : List Char) :
    ∃ after, IsBlank after ∧ cs = trimRight cs ++ after := by
  obtain ⟨before, blank, same⟩ := exists_trimLeft cs.reverse
  refine ⟨before.reverse, fun c mem => blank c (List.mem_reverse.mp mem), ?_⟩
  rw [trimRight_eq_reverse, ← List.reverse_append, ← same, List.reverse_reverse]

/-- What trimming takes off are blanks around what it leaves. -/
theorem exists_trim (cs : List Char) :
    ∃ before after, IsBlank before ∧ IsBlank after ∧ cs = before ++ trim cs ++ after := by
  obtain ⟨before, blank, left⟩ := exists_trimLeft cs
  obtain ⟨after, blank', right⟩ := exists_trimRight (trimLeft cs)
  refine ⟨before, after, blank, blank', ?_⟩
  rw [trim, List.append_assoc, ← right]
  exact left

theorem trim_subset (cs : List Char) : trim cs ⊆ cs := by
  obtain ⟨before, after, -, -, same⟩ := exists_trim cs
  intro c mem
  rw [same]
  simp [mem]

theorem trim_trimLeft (cs : List Char) : trim (trimLeft cs) = trim cs := by
  obtain ⟨before, blank, same⟩ := exists_trimLeft cs
  have wide := trim_append_blanks blank isBlank_nil (trimLeft cs)
  rwa [List.append_nil, ← same, eq_comm] at wide

theorem trim_trimRight (cs : List Char) : trim (trimRight cs) = trim cs := by
  obtain ⟨after, blank, same⟩ := exists_trimRight cs
  have wide := trim_append_blanks isBlank_nil blank (trimRight cs)
  rwa [List.nil_append, ← same, eq_comm] at wide

theorem trim_trim (cs : List Char) : trim (trim cs) = trim cs := by
  obtain ⟨before, after, blank, blank', same⟩ := exists_trim cs
  have wide := trim_append_blanks blank blank' (trim cs)
  rwa [← same, eq_comm] at wide

/-- A text that neither begins nor ends with a blank is left as it is. -/
theorem trim_of_solid (first : ∀ c ∈ cs.head?, isBlank c = false)
    (last : ∀ c ∈ cs.getLast?, isBlank c = false) : trim cs = cs := by
  have last' : ∀ c ∈ cs.reverse.head?, isBlank c = false := by
    rw [List.head?_reverse]
    exact last
  rw [trim, trimLeft, dropWhile_of_head first, trimRight, dropWhile_of_head last',
    List.reverse_reverse]

end Shipyard.Text

import Shipyard.Proofs.Json.Texts

/-!
# Passing over any text

A text of a value is passed over as a whole, whatever follows it. Every step but the one that opens
a part takes a byte off, so the steps are fewer than twice the bytes.
-/

namespace Shipyard.Json

variable {d n : Nat} {bs rest left : Bytes} {v : Value} {frame : Frame}

theorem pass_congr {bs' : Bytes} (same : skipBlanks bs = skipBlanks bs') (n : Nat)
    (frames : List Frame) : pass n .value frames bs = pass n .value frames bs' := by
  cases n with
  | zero => rfl
  | succ n => rw [pass, pass, same]

/-- The text is passed over, and nothing but blanks of it are left. -/
def Passed (bs : Bytes) : Prop :=
  ∀ rest frames, EndsNumber rest → ∃ left k, AreBlank left ∧ k < 2 * bs.length ∧
    ∀ n, pass (n + k) .value frames (bs ++ rest) = pass n .ended frames (left ++ rest)

theorem passed_of_scalar {b : UInt8} {bs : Bytes}
    (scalar : ∀ rest, EndsNumber rest → passScalar b (bs ++ rest) = .ok rest)
    (visible : isBlank b = false) (bracket : b ≠ 91) (brace : b ≠ 123) : Passed (b :: bs) := by
  intro rest frames ends
  refine ⟨[], 1, areBlank_nil, by simp only [List.length_cons]; omega, fun n => ?_⟩
  rw [List.cons_append, pass, skipBlanks_cons visible]
  simp [bracket, brace, scalar rest ends]

/-- A part of a container is entered and passed over. -/
def Entered (frame : Frame) (part : Bytes) : Prop :=
  ∀ rest frames, EndsNumber rest → ∃ left' k, AreBlank left' ∧ k ≤ 2 * part.length ∧
    ∀ first left n, AreBlank left →
      pass (n + k) (if first then .opened else .ended) (frame :: frames)
          (left ++ (lead first ++ (part ++ rest))) =
        pass n .ended (frame :: frames) (left' ++ rest)

/-- A step from the bracket into the first part. -/
theorem pass_opened (frame : Frame) {part later next : Bytes} {b : UInt8} (blank : AreBlank left)
    (shape : skipBlanks part = b :: later) (open' : closes frame b = false)
    (enters : enter frame (b :: later) = .ok next) (n : Nat) (frames : List Frame) :
    pass (n + 1) .opened (frame :: frames) (left ++ part) =
      pass n .value (frame :: frames) next := by
  simp [pass, skipBlanks_append blank, shape, open', enters]

/-- A step over a comma into a further part. -/
theorem pass_comma (frame : Frame) {part next : Bytes} (blank : AreBlank left)
    (enters : enter frame part = .ok next) (n : Nat) (frames : List Frame) :
    pass (n + 1) .ended (frame :: frames) (left ++ 44 :: part) =
      pass n .value (frame :: frames) next := by
  have comma : closes frame 44 = false := by cases frame <;> rfl
  simp [pass, skipBlanks_mark blank (by decide : isBlank 44 = false), comma, enters]

theorem entered_item (spells : Spells d bs v) (passed : Passed bs) : Entered .array bs := by
  intro rest frames ends
  obtain ⟨left', k, blank', short, passes⟩ := passed rest (.array :: frames) ends
  obtain ⟨_, _, read⟩ := spells.takes rest ends
  obtain ⟨b, later, shape, open'⟩ := value_head read
  refine ⟨left', k + 1, blank', short, fun first left n blank => ?_⟩
  rw [← Nat.add_assoc]
  cases first with
  | true =>
    have step := pass_opened .array blank shape (by simp [closes, open']) rfl (n + k) frames
    have same : skipBlanks (b :: later) = skipBlanks (bs ++ rest) := by
      rw [← shape, skipBlanks_skipBlanks]
    rw [pass_congr same, passes] at step
    exact step
  | false =>
    have enters : enter .array (bs ++ rest) = .ok (bs ++ rest) := rfl
    have step := pass_comma .array blank enters (n + k) frames
    rw [passes] at step
    exact step

theorem passKey_member {m : Member} (keyed : m.IsKeyed) (rest : Bytes) :
    passKey (m.bytes ++ rest) = .ok (m.text ++ rest) := by
  have text : m.bytes ++ rest =
      m.before ++ 34 :: (m.key ++ 34 :: (m.between ++ 58 :: (m.text ++ rest))) := by
    simp [Member.bytes]
  have name := passString_spelt keyed.key (m.between ++ 58 :: (m.text ++ rest))
    (Nat.lt_succ_self _)
  rw [text, passKey, skipBlanks_mark keyed.before (by decide)]
  simp only [ne_eq, not_true_eq_false, if_false, name, bind, Except.bind]
  rw [skipBlanks_mark keyed.between (by decide)]
  rfl

theorem entered_member {m : Member} (keyed : m.IsKeyed) (passed : Passed m.text) :
    Entered .object m.bytes := by
  intro rest frames ends
  obtain ⟨left', k, blank', short, passes⟩ := passed rest (.object :: frames) ends
  have longer : m.text.length < m.bytes.length := by
    simp only [Member.bytes, List.length_append, List.length_cons]
    omega
  refine ⟨left', k + 1, blank', by omega, fun first left n blank => ?_⟩
  rw [← Nat.add_assoc]
  cases first with
  | true =>
    have text : m.bytes ++ rest =
        m.before ++ 34 :: (m.key ++ 34 :: (m.between ++ 58 :: (m.text ++ rest))) := by
      simp [Member.bytes]
    have shape : skipBlanks (m.bytes ++ rest) =
        34 :: (m.key ++ 34 :: (m.between ++ 58 :: (m.text ++ rest))) := by
      rw [text, skipBlanks_mark keyed.before (by decide)]
    have enters : enter .object (34 :: (m.key ++ 34 :: (m.between ++ 58 :: (m.text ++ rest)))) =
        .ok (m.text ++ rest) := by
      have key := passKey_member keyed rest
      rw [passKey, shape] at key
      rw [enter, passKey, skipBlanks_cons (by decide)]
      exact key
    have step := pass_opened .object blank shape rfl enters (n + k) frames
    rw [passes] at step
    exact step
  | false =>
    have step := pass_comma .object blank (passKey_member keyed rest) (n + k) frames
    rw [passes] at step
    exact step

/-- Parts after the first one, each behind a comma. -/
theorem pass_later {parts : List Bytes} (entered : ∀ p ∈ parts, Entered frame p) {mark : UInt8}
    (ends : EndsNumber (mark :: rest)) (frames : List Frame) (blank : AreBlank left) :
    ∃ left' k, AreBlank left' ∧ k ≤ 2 * (parts.flatMap (44 :: ·)).length ∧
      ∀ n, pass (n + k) .ended (frame :: frames)
          (left ++ (parts.flatMap (44 :: ·) ++ mark :: rest)) =
        pass n .ended (frame :: frames) (left' ++ mark :: rest) := by
  induction parts generalizing left with
  | nil => exact ⟨left, 0, blank, Nat.le_refl _, fun n => rfl⟩
  | cons p parts ih =>
    obtain ⟨left', k, blank', short, step⟩ :=
      entered p (by simp) _ frames (endsNumber_parts ends parts)
    obtain ⟨left'', k', blank'', short', others⟩ :=
      ih (fun q mem => entered q (List.mem_cons_of_mem _ mem)) blank'
    refine ⟨left'', k' + k, blank'', ?_, fun n => ?_⟩
    · simp only [List.flatMap_cons, List.length_append, List.length_cons]
      omega
    · have first := step false left (n + k') blank
      rw [others, Nat.add_assoc] at first
      simpa [lead] using first

/-- A container is passed over from its first part to its closing bracket. -/
theorem pass_parts {parts : List Bytes} (entered : ∀ p ∈ parts, Entered frame p) {mark : UInt8}
    (closing : closes frame mark = true) (visible : isBlank mark = false)
    (ends : EndsNumber (mark :: rest)) (frames : List Frame) (blank : AreBlank left) :
    ∃ k, k ≤ 2 * (joined parts).length + 1 ∧
      ∀ n, pass (n + k) .opened (frame :: frames) (left ++ (joined parts ++ mark :: rest)) =
        pass n .ended frames rest := by
  cases parts with
  | nil =>
    refine ⟨1, by simp, fun n => ?_⟩
    simp [joined, pass, skipBlanks_mark blank visible, closing]
  | cons p parts =>
    obtain ⟨left', k, blank', short, step⟩ :=
      entered p (by simp) _ frames (endsNumber_parts ends parts)
    obtain ⟨left'', k', blank'', short', others⟩ :=
      pass_later (fun q mem => entered q (List.mem_cons_of_mem _ mem)) ends frames blank'
    refine ⟨1 + k' + k, ?_, fun n => ?_⟩
    · simp only [joined, List.length_append]
      omega
    · have last : pass (n + 1) .ended (frame :: frames) (left'' ++ mark :: rest) =
          pass n .ended frames rest := by
        simp [pass, skipBlanks_mark blank'' visible, closing]
      have first := step true left (n + 1 + k') blank
      rw [others, last, Nat.add_assoc, Nat.add_assoc] at first
      rw [Nat.add_assoc]
      simpa [lead, joined] using first

/-- A container is passed over as a whole if all its parts are. -/
theorem passed_of_parts (frame : Frame) {blanks : Bytes} {parts : List Bytes}
    {opening mark : UInt8} (entered : ∀ p ∈ parts, Entered frame p) (blank : AreBlank blanks)
    (opens : ∀ n frames rest,
      pass (n + 1) .value frames (opening :: rest) = pass n .opened (frame :: frames) rest)
    (closing : closes frame mark = true) (visible : isBlank mark = false)
    (ends : ∀ rest, EndsNumber (mark :: rest)) :
    Passed (opening :: (blanks ++ (joined parts ++ [mark]))) := by
  intro rest frames _
  obtain ⟨k, short, passes⟩ := pass_parts entered closing visible (ends rest) frames blank
  refine ⟨[], k + 1, areBlank_nil, ?_, fun n => ?_⟩
  · simp only [List.length_cons, List.length_append]
    omega
  · have step := passes n
    rw [← Nat.add_assoc, List.cons_append, opens]
    simpa using step

/-- A text of a value is passed over. -/
theorem Spells.passed (spells : Spells d bs v) : Passed bs := by
  induction spells with
  | @before d b bs v blank _ ih =>
    intro rest frames ends
    obtain ⟨left, k, blank', short, passes⟩ := ih rest frames ends
    have same : skipBlanks (b :: bs ++ rest) = skipBlanks (bs ++ rest) :=
      skipBlanks_append (areBlank_singleton blank) (bs ++ rest)
    refine ⟨left, k, blank', by rw [List.length_cons]; omega, fun n => ?_⟩
    rw [pass_congr same, passes]
  | @after d b bs v blank _ ih =>
    intro rest frames ends
    obtain ⟨left, k, blank', short, passes⟩ :=
      ih (b :: rest) frames (ends.blank_append (areBlank_singleton blank))
    refine ⟨left ++ [b], k, blank'.append (areBlank_singleton blank), ?_, fun n => ?_⟩
    · rw [List.length_append]
      omega
    · simpa using passes n
  | null => exact passed_of_scalar (fun _ _ => rfl) (by decide) (by decide) (by decide)
  | true => exact passed_of_scalar (fun _ _ => rfl) (by decide) (by decide) (by decide)
  | false => exact passed_of_scalar (fun _ _ => rfl) (by decide) (by decide) (by decide)
  | negative read =>
    refine passed_of_scalar (fun rest ends => ?_) (by decide) (by decide) (by decide)
    exact passNumber_of_number (number_append ends read)
  | number read =>
    obtain ⟨b, later, rfl, digit⟩ := number_head read
    obtain ⟨visible, bracket, brace, null, true', false', quote, minus⟩ := digit_ne digit
    refine passed_of_scalar (fun rest ends => ?_) visible bracket brace
    have whole := passNumber_of_number (number_append ends read)
    simpa [passScalar, null, true', false', quote, minus, digit] using whole
  | text spelt =>
    refine passed_of_scalar (fun rest _ => ?_) (by decide) (by decide) (by decide)
    rw [List.append_assoc, List.singleton_append]
    exact passString_spelt spelt _ (Nat.lt_succ_self _)
  | array blank spells ih =>
    refine passed_of_parts .array (fun p mem => ?_) blank (fun n frames rest => ?_) rfl
      (by decide) endsNumber_bracket
    · obtain ⟨q, listed, rfl⟩ := List.mem_map.mp mem
      exact entered_item (spells q listed) (ih q listed)
    · rw [pass, skipBlanks_cons (by decide)]
      rfl
  | object blank keyed _ ih =>
    refine passed_of_parts .object (fun p mem => ?_) blank (fun n frames rest => ?_) rfl
      (by decide) endsNumber_brace
    · obtain ⟨m, listed, rfl⟩ := List.mem_map.mp mem
      exact entered_member (keyed m listed) (ih m listed)
    · rw [pass, skipBlanks_cons (by decide)]
      rfl

/-- A value that nobody asked for is passed over, whatever it is. -/
theorem Spells.passValue (spells : Spells d bs v) (ends : EndsNumber rest) :
    ∃ left, AreBlank left ∧ passValue (bs ++ rest) = .ok (left ++ rest) := by
  obtain ⟨left, k, blank, short, passes⟩ := spells.passed rest [] ends
  refine ⟨left, blank, ?_⟩
  obtain ⟨n, fuel⟩ : ∃ n, 2 * (bs ++ rest).length + 2 = n + 1 + k := by
    rw [List.length_append]
    exact ⟨2 * (bs.length + rest.length) + 1 - k, by omega⟩
  rw [Json.passValue, fuel, passes]
  rfl

end Shipyard.Json

import Shipyard.Proofs.Json.Objects

/-!
# Scanning any text

A character of a string may be written as it is or by an escape; every way to write a string is
read, and passed over. A number that is read from a text is read from the front of a longer one if
what follows can be no part of it, and it is passed over as far as it is read.
-/

namespace Shipyard.Json

section Blanks

/-- Bytes that are blanks without exception. -/
def AreBlank (bs : Bytes) : Prop := ∀ b ∈ bs, isBlank b = true

variable {blanks : Bytes}

theorem skipBlanks_append (blank : AreBlank blanks) (bs : Bytes) :
    skipBlanks (blanks ++ bs) = skipBlanks bs :=
  List.dropWhile_append_of_pos blank

theorem skipBlanks_skipBlanks (bs : Bytes) : skipBlanks (skipBlanks bs) = skipBlanks bs := by
  induction bs with
  | nil => rfl
  | cons b bs ih =>
    cases visible : isBlank b with
    | true =>
      have less : skipBlanks (b :: bs) = skipBlanks bs := List.dropWhile_cons_of_pos visible
      rw [less, ih]
    | false => rw [skipBlanks_cons visible, skipBlanks_cons visible]

theorem AreBlank.append {others : Bytes} (blank : AreBlank blanks) (blank' : AreBlank others) :
    AreBlank (blanks ++ others) :=
  List.forall_mem_append.mpr ⟨blank, blank'⟩

theorem areBlank_nil : AreBlank [] := fun _ mem => nomatch mem

theorem areBlank_singleton {b : UInt8} (blank : isBlank b = true) : AreBlank [b] := by
  intro c mem
  rwa [List.mem_singleton.mp mem]

theorem isBlank_cases {b : UInt8} (blank : isBlank b = true) :
    b = 32 ∨ b = 10 ∨ b = 9 ∨ b = 13 := by
  simpa [isBlank, or_assoc] using blank

/-- A blank ends a number. -/
theorem EndsNumber.blank_append {rest : Bytes} (ends : EndsNumber rest)
    (blank : AreBlank blanks) : EndsNumber (blanks ++ rest) := by
  cases blanks with
  | nil => exact ends
  | cons b blanks =>
    rintro b' bs ⟨⟩
    rcases isBlank_cases (blank b (by simp)) with rfl | rfl | rfl | rfl <;> decide

end Blanks

section Strings

/-- Letters after a backslash, with what they stand for. -/
def letters : List (UInt8 × Char) :=
  [(34, '"'), (92, '\\'), (47, '/'), (98, '\x08'), (102, '\x0c'), (110, '\n'), (114, '\r'),
    (116, '\t')]

/-- Bytes between quotes that write characters. A character beyond the first 65536 that is written
by its number is written as two halves. -/
inductive Spelt : Bytes → List Char → Prop
  | nil : Spelt [] []
  | plain {c : Char} {bs : Bytes} {cs : List Char} :
    c ≠ '"' → c ≠ '\\' → ¬ c.toNat < 32 → Spelt bs cs →
      Spelt (String.utf8EncodeChar c ++ bs) (c :: cs)
  | letter {e : UInt8} {c : Char} {bs : Bytes} {cs : List Char} :
    (e, c) ∈ letters → Spelt bs cs → Spelt (92 :: e :: bs) (c :: cs)
  | unit {w x y z : UInt8} {c : Char} {bs : Bytes} {cs : List Char} :
    hexFour w x y z = some c.toNat → Spelt bs cs →
      Spelt (92 :: 117 :: w :: x :: y :: z :: bs) (c :: cs)
  | halves {w x y z w' x' y' z' : UInt8} {high low : Nat} {c : Char} {bs : Bytes}
      {cs : List Char} :
    hexFour w x y z = some high → hexFour w' x' y' z' = some low → isHigh high = true →
      isLow low = true → (high - 0xD800) * 1024 + (low - 0xDC00) + 0x10000 = c.toNat →
      Spelt bs cs →
      Spelt (92 :: 117 :: w :: x :: y :: z :: 92 :: 117 :: w' :: x' :: y' :: z' :: bs) (c :: cs)

variable {bs rest : Bytes} {cs : List Char}

theorem Spelt.of_plain (plain : ∀ c ∈ cs, c ≠ '"' ∧ c ≠ '\\' ∧ ¬ c.toNat < 32) :
    Spelt (Text.encoded cs) cs := by
  induction cs with
  | nil => exact .nil
  | cons c cs ih =>
    rw [List.forall_mem_cons] at plain
    obtain ⟨⟨quote, backslash, control⟩, later⟩ := plain
    exact .plain quote backslash control (ih later)

theorem letters_spec {e : UInt8} {c : Char} (mem : (e, c) ∈ letters) :
    e ≠ 117 ∧ ∃ b, escaped? e = some b ∧ String.utf8EncodeChar c = [b] := by
  have all : ∀ l ∈ letters, l.1 ≠ 117 ∧ (escaped? l.1).isSome = true ∧
      String.utf8EncodeChar l.2 = (escaped? l.1).toList := by
    decide +kernel
  obtain ⟨other, known, writes⟩ := all (e, c) mem
  obtain ⟨b, same⟩ := Option.isSome_iff_exists.mp known
  exact ⟨other, b, same, by rw [writes, same]; rfl⟩

/-- No character is half of one. -/
theorem no_half (c : Char) : isLow c.toNat = false ∧ isHigh c.toNat = false := by
  have valid := c.valid
  have same : c.val.toNat = c.toNat := rfl
  simp only [isLow, isHigh, Bool.and_eq_false_iff, decide_eq_false_iff_not]
  rcases valid with small | large
  · omega
  · omega

theorem codePoint_unit {w x y z : UInt8} {c : Char} (digits : hexFour w x y z = some c.toNat) :
    codePoint (w :: x :: y :: z :: rest) = .ok (c, rest) := by
  obtain ⟨notLow, notHigh⟩ := no_half c
  simp [codePoint, unit, digits, notLow, notHigh, bind, Except.bind]

theorem codePoint_halves {w x y z w' x' y' z' : UInt8} {high low : Nat} {c : Char}
    (digits : hexFour w x y z = some high) (digits' : hexFour w' x' y' z' = some low)
    (isHigh : isHigh high = true) (isLow : isLow low = true)
    (whole : (high - 0xD800) * 1024 + (low - 0xDC00) + 0x10000 = c.toNat) :
    codePoint (w :: x :: y :: z :: 92 :: 117 :: w' :: x' :: y' :: z' :: rest) = .ok (c, rest) := by
  have notLow : Json.isLow high = false := by
    simp only [Json.isHigh, Bool.and_eq_true, decide_eq_true_eq] at isHigh
    simp only [Json.isLow, Bool.and_eq_false_iff, decide_eq_false_iff_not]
    omega
  simp [codePoint, unit, digits, digits', isHigh, isLow, notLow, whole, bind, Except.bind]

theorem stringBytes_spelt (spelt : Spelt bs cs) {n : Nat} (taken rest : Bytes)
    (fuel : (bs ++ 34 :: rest).length < n) :
    stringBytes n taken (bs ++ 34 :: rest) = .ok (taken.reverse ++ Text.encoded cs, rest) := by
  induction spelt generalizing n taken with
  | nil =>
    obtain ⟨m, rfl⟩ : ∃ m, n = m + 1 := ⟨n - 1, by omega⟩
    simp [stringBytes]
  | @plain c bs cs quote backslash control _ ih =>
    rw [List.append_assoc] at fuel ⊢
    rw [List.length_append] at fuel
    obtain ⟨m, rfl⟩ : ∃ m, n = (String.utf8EncodeChar c).length + m :=
      ⟨n - (String.utf8EncodeChar c).length, by omega⟩
    have plain := fun b mem => plain_of_mem (b := b) quote backslash control mem
    rw [stringBytes_plain plain, ih _ (by omega)]
    simp
  | letter mem _ ih =>
    obtain ⟨other, b, escaped, writes⟩ := letters_spec mem
    simp only [List.cons_append, List.length_cons] at fuel ⊢
    obtain ⟨m, rfl⟩ : ∃ m, n = m + 1 := ⟨n - 1, by omega⟩
    rw [stringBytes_escaped escaped other, ih _ (by omega)]
    simp [writes]
  | unit digits _ ih =>
    simp only [List.cons_append, List.length_cons] at fuel ⊢
    obtain ⟨m, rfl⟩ : ∃ m, n = m + 1 := ⟨n - 1, by omega⟩
    rw [stringBytes_unicode (codePoint_unit digits), ih _ (by omega)]
    simp
  | halves digits digits' isHigh isLow whole _ ih =>
    simp only [List.cons_append, List.length_cons] at fuel ⊢
    obtain ⟨m, rfl⟩ : ∃ m, n = m + 1 := ⟨n - 1, by omega⟩
    rw [stringBytes_unicode (codePoint_halves digits digits' isHigh isLow whole),
      ih _ (by omega)]
    simp

/-- A string is read from any way to write it. -/
theorem string_spelt (spelt : Spelt bs cs) :
    string (bs ++ 34 :: rest) = .ok (String.ofList cs, rest) := by
  have content := stringBytes_spelt spelt [] rest (Nat.lt_succ_self _)
  rw [string, content]
  simp [bind, Except.bind, ← Text.bytes_ofList, Text.ofBytes?_bytes]

theorem passString_plain {bs : Bytes} (plain : ∀ b ∈ bs, IsPlain b) (n : Nat) (rest : Bytes) :
    passString (bs.length + n) (bs ++ rest) = passString n rest := by
  induction bs with
  | nil => simp
  | cons b bs ih =>
    obtain ⟨quote, backslash, control⟩ := plain b (by simp)
    have fuel : (b :: bs).length + n = (bs.length + n) + 1 := by
      rw [List.length_cons]
      omega
    have step : passString ((bs.length + n) + 1) (b :: (bs ++ rest)) =
        passString (bs.length + n) (bs ++ rest) := by
      simp [passString, quote, backslash, control]
    rw [fuel, List.cons_append, step, ih fun b mem => plain b (List.mem_cons_of_mem _ mem)]

theorem passString_unit {w x y z : UInt8} {u : Nat} (digits : hexFour w x y z = some u) (n : Nat) :
    passString (n + 1) (92 :: 117 :: w :: x :: y :: z :: rest) = passString n rest := by
  simp [passString, unit, digits]

/-- Any way to write a string is passed over as well. -/
theorem passString_spelt (spelt : Spelt bs cs) {n : Nat} (rest : Bytes)
    (fuel : (bs ++ 34 :: rest).length < n) : passString n (bs ++ 34 :: rest) = .ok rest := by
  induction spelt generalizing n with
  | nil =>
    obtain ⟨m, rfl⟩ : ∃ m, n = m + 1 := ⟨n - 1, by omega⟩
    simp [passString]
  | @plain c bs cs quote backslash control _ ih =>
    rw [List.append_assoc] at fuel ⊢
    rw [List.length_append] at fuel
    obtain ⟨m, rfl⟩ : ∃ m, n = (String.utf8EncodeChar c).length + m :=
      ⟨n - (String.utf8EncodeChar c).length, by omega⟩
    have plain := fun b mem => plain_of_mem (b := b) quote backslash control mem
    rw [passString_plain plain, ih (by omega)]
  | letter mem _ ih =>
    obtain ⟨other, b, escaped, -⟩ := letters_spec mem
    simp only [List.cons_append, List.length_cons] at fuel ⊢
    obtain ⟨m, rfl⟩ : ∃ m, n = m + 1 := ⟨n - 1, by omega⟩
    have later := ih (n := m) (by omega)
    simp [passString, other, escaped, later]
  | unit digits _ ih =>
    simp only [List.cons_append, List.length_cons] at fuel ⊢
    obtain ⟨m, rfl⟩ : ∃ m, n = m + 1 := ⟨n - 1, by omega⟩
    rw [passString_unit digits, ih (by omega)]
  | halves digits digits' _ _ _ _ ih =>
    simp only [List.cons_append, List.length_cons] at fuel ⊢
    obtain ⟨m, rfl⟩ : ∃ m, n = m + 2 := ⟨n - 2, by omega⟩
    rw [passString_unit digits, passString_unit digits', ih (by omega)]

end Strings

section Numbers

variable {bs rest left : Bytes} {significand : Nat} {before : Int} {x : Binary}

theorem bind_eq_ok {ε α β : Type} {f : Except ε α} {g : α → Except ε β} {y : β}
    (done : (f >>= g) = .ok y) : ∃ x, f = .ok x ∧ g x = .ok y := by
  cases first : f with
  | error e =>
    rw [first] at done
    cases done
  | ok x =>
    rw [first] at done
    exact ⟨x, rfl, done⟩

/-- What follows a number begins with no digit. -/
theorem EndsNumber.undigited (ends : EndsNumber rest) :
    rest.takeWhile Text.isDigit = [] ∧ rest.dropWhile Text.isDigit = rest := by
  cases rest with
  | nil => exact ⟨rfl, rfl⟩
  | cons b bs => simp [(ends b bs rfl).1]

theorem dropWhile_digits_append (ends : EndsNumber rest) (bs : Bytes) :
    (bs ++ rest).dropWhile Text.isDigit = bs.dropWhile Text.isDigit ++ rest := by
  rw [List.dropWhile_append]
  split
  · next all =>
    rw [ends.undigited.2, List.isEmpty_iff.mp all, List.nil_append]
  · rfl

theorem takeWhile_digits_append (ends : EndsNumber rest) (bs : Bytes) :
    (bs ++ rest).takeWhile Text.isDigit = bs.takeWhile Text.isDigit := by
  rw [List.takeWhile_append]
  split
  · next all =>
    have whole : bs.takeWhile Text.isDigit = bs :=
      (List.takeWhile_prefix _).eq_of_length all
    rw [ends.undigited.1, List.append_nil, whole]
  · rfl

theorem digitsOnto_append (ends : EndsNumber rest) (value count : Nat) (bs : Bytes) :
    digitsOnto value count (bs ++ rest) =
      ((digitsOnto value count bs).1, (digitsOnto value count bs).2.1,
        (digitsOnto value count bs).2.2 ++ rest) := by
  induction bs generalizing value count with
  | nil =>
    cases rest with
    | nil => rfl
    | cons b rest => simp [digitsOnto, (ends b rest rfl).1]
  | cons b bs ih =>
    rw [List.cons_append, digitsOnto, digitsOnto]
    split
    · exact ih _ _
    · rfl

/-- Digits that were not taken are still to come. -/
theorem dropWhile_digitsOnto (value count : Nat) (bs : Bytes) :
    (digitsOnto value count bs).2.2.dropWhile Text.isDigit = bs.dropWhile Text.isDigit := by
  induction bs generalizing value count with
  | nil => rfl
  | cons b bs ih =>
    rw [digitsOnto]
    split
    · next taken =>
      rw [Bool.and_eq_true] at taken
      rw [ih, List.dropWhile_cons_of_pos taken.1]
    · rfl

theorem digitsOnto_undigited {value count : Nat} (none : startsWithDigit bs = false) :
    digitsOnto value count bs = (value, count, bs) := by
  cases bs with
  | nil => rfl
  | cons b bs =>
    have other : Text.isDigit b = false := none
    simp [digitsOnto, other]

/-- The sign of an exponent, if there is one, and what comes after it. -/
def exponentSign : Bytes → Bool × Bytes
  | 43 :: rest => (false, rest)
  | 45 :: rest => (true, rest)
  | bs => (false, bs)

theorem exponentSign_append (b : UInt8) (bs rest : Bytes) :
    exponentSign (b :: bs ++ rest) =
      ((exponentSign (b :: bs)).1, (exponentSign (b :: bs)).2 ++ rest) := by
  rw [List.cons_append]
  by_cases plus : b = 43
  · subst plus
    rfl
  · by_cases minus : b = 45
    · subst minus
      rfl
    · simp [exponentSign, plus, minus]

theorem exponent_eq (significand : Nat) (before : Int) (bs : Bytes) :
    exponent significand before bs =
      match (exponentSign bs).2 with
      | [] => .error .truncated
      | b :: _ =>
        if Text.isDigit b then
          let e := ((exponentSign bs).2.takeWhile Text.isDigit).foldl
            (fun n d => 10 * n + Text.digitValue d) 0
          if 0x80000000 ≤ e then
            if significand ≠ 0 ∧ (exponentSign bs).1 = false then .error .illFormed
            else .ok (⟨0⟩, (exponentSign bs).2.dropWhile Text.isDigit)
          else do
            let x ← scaled significand (if (exponentSign bs).1 then before - e else before + e)
            .ok (x, (exponentSign bs).2.dropWhile Text.isDigit)
        else .error .illFormed := rfl

theorem passExponent_eq (bs : Bytes) :
    passExponent bs =
      if startsWithDigit (exponentSign bs).2 then
        .ok ((exponentSign bs).2.dropWhile Text.isDigit)
      else .error .illFormed := by
  cases bs with
  | nil => rfl
  | cons b bs =>
    by_cases plus : b = 43
    · subst plus
      rfl
    · by_cases minus : b = 45
      · subst minus
        rfl
      · simp [passExponent, exponentSign, plus, minus]

/-- An exponent that is read has a digit behind its sign, and its digits are all that is taken. -/
theorem exponent_digits (read : exponent significand before bs = .ok (x, left)) :
    startsWithDigit (exponentSign bs).2 = true ∧
      left = (exponentSign bs).2.dropWhile Text.isDigit := by
  rw [exponent_eq] at read
  cases shape : (exponentSign bs).2 with
  | nil =>
    rw [shape] at read
    cases read
  | cons b digits =>
    rw [shape] at read
    simp only at read
    split at read
    · next digit =>
      refine ⟨digit, ?_⟩
      split at read
      · split at read <;> cases read
        rfl
      · obtain ⟨y, -, same⟩ := bind_eq_ok read
        cases same
        rfl
    · cases read

theorem exponent_append (ends : EndsNumber rest)
    (read : exponent significand before bs = .ok (x, left)) :
    exponent significand before (bs ++ rest) = .ok (x, left ++ rest) := by
  obtain ⟨digit, same⟩ := exponent_digits read
  cases bs with
  | nil => cases digit
  | cons b bs =>
    rw [exponent_eq] at read ⊢
    rw [exponentSign_append]
    cases shape : (exponentSign (b :: bs)).2 with
    | nil =>
      rw [shape] at digit
      cases digit
    | cons c digits =>
      rw [shape] at read same digit
      have digit' : Text.isDigit c = true := digit
      simp only [digit', if_true, List.cons_append] at read ⊢
      rw [← List.cons_append, takeWhile_digits_append ends, dropWhile_digits_append ends, ← same]
      rw [← same] at read
      split at read
      · next large =>
        rw [if_pos large]
        split at read <;> cases read
        next small => rw [if_neg small]
      · next small =>
        rw [if_neg small]
        obtain ⟨y, sum, taken⟩ := bind_eq_ok read
        rw [sum]
        cases taken
        rfl

theorem passExponent_of_exponent (read : exponent significand before bs = .ok (x, left)) :
    passExponent bs = .ok left := by
  obtain ⟨digit, same⟩ := exponent_digits read
  rw [passExponent_eq, if_pos digit, same]

theorem exponentIf_append (ends : EndsNumber rest)
    (read : exponentIf significand before bs = .ok (x, left)) :
    exponentIf significand before (bs ++ rest) = .ok (x, left ++ rest) := by
  cases bs with
  | nil =>
    obtain ⟨y, sum, taken⟩ := bind_eq_ok read
    cases taken
    cases rest with
    | nil => simp [exponentIf, sum, bind, Except.bind]
    | cons b rest =>
      obtain ⟨-, -, small, capital⟩ := ends b rest rfl
      simp [exponentIf, sum, small, capital, bind, Except.bind]
  | cons b bs =>
    rw [exponentIf] at read
    rw [List.cons_append, exponentIf]
    split at read
    · next letter =>
      rw [if_pos letter]
      exact exponent_append ends read
    · next other =>
      rw [if_neg other]
      obtain ⟨y, sum, taken⟩ := bind_eq_ok read
      cases taken
      rw [sum]
      rfl

/-- What may come behind the digits of a fraction. -/
def passLetter : Bytes → Except Refusal Bytes
  | 101 :: rest => passExponent rest
  | 69 :: rest => passExponent rest
  | rest => .ok rest

theorem passLetter_of_exponentIf (read : exponentIf significand before bs = .ok (x, left)) :
    passLetter bs = .ok left := by
  cases bs with
  | nil =>
    obtain ⟨y, -, taken⟩ := bind_eq_ok read
    cases taken
    rfl
  | cons b bs =>
    rw [exponentIf] at read
    split at read
    · next letter =>
      have passed := passExponent_of_exponent read
      rcases letter with rfl | rfl
      · exact passed
      · exact passed
    · next other =>
      rw [not_or] at other
      obtain ⟨y, -, taken⟩ := bind_eq_ok read
      cases taken
      simp [passLetter, other.1, other.2]

theorem fraction_append (ends : EndsNumber rest)
    (read : fraction significand before bs = .ok (x, left)) :
    fraction significand before (bs ++ rest) = .ok (x, left ++ rest) := by
  rw [fraction] at read ⊢
  rw [digitsOnto_append ends]
  generalize digitsOnto significand 0 bs = taken at read ⊢
  obtain ⟨value, count, after⟩ := taken
  cases after with
  | nil =>
    simp only at read
    split at read
    · cases read
    · next some =>
      have later := exponentIf_append ends read
      rw [List.nil_append] at later ⊢
      cases rest with
      | nil =>
        simp only [if_neg some]
        exact later
      | cons b rest =>
        simp only [some, false_and, if_false, ends.undigited.2]
        exact later
  | cons b after =>
    simp only [List.cons_append] at read ⊢
    split at read
    · cases read
    · next digit =>
      rw [if_neg digit, ← List.cons_append, dropWhile_digits_append ends]
      exact exponentIf_append ends read

theorem passFraction_of_fraction (read : fraction significand before bs = .ok (x, left)) :
    passFraction bs = .ok left := by
  have digit : startsWithDigit bs = true := by
    cases none : startsWithDigit bs with
    | true => rfl
    | false =>
      rw [fraction, digitsOnto_undigited none] at read
      cases bs with
      | nil => cases read
      | cons b bs =>
        have other : Text.isDigit b = false := none
        simp [other] at read
  have passed : passFraction bs = passLetter (bs.dropWhile Text.isDigit) := by
    rw [passFraction, if_pos digit]
    rfl
  rw [passed, ← dropWhile_digitsOnto significand 0 bs]
  rw [fraction] at read
  generalize digitsOnto significand 0 bs = taken at read ⊢
  obtain ⟨value, count, after⟩ := taken
  cases after with
  | nil =>
    simp only at read
    split at read
    · cases read
    · exact passLetter_of_exponentIf read
  | cons b after =>
    simp only at read
    split at read
    · cases read
    · exact passLetter_of_exponentIf read

variable {negative : Bool} {n : Number} {value extra : Nat}

/-- Nothing of a number comes behind its digits but a fraction or an exponent. -/
theorem behind_digits (bs : Bytes) :
    (∀ b rest, bs = b :: rest → b ≠ 46 ∧ b ≠ 101 ∧ b ≠ 69) ∨
      ∃ later, bs = 46 :: later ∨ bs = 101 :: later ∨ bs = 69 :: later := by
  cases bs with
  | nil => exact Or.inl fun _ _ same => nomatch same
  | cons b bs =>
    by_cases letter : b = 46 ∨ b = 101 ∨ b = 69
    · right
      refine ⟨bs, ?_⟩
      rcases letter with rfl | rfl | rfl <;> simp
    · left
      rintro b' bs' ⟨⟩
      simpa only [not_or] using letter

/-- What a number without fraction and exponent is does not depend on what follows. -/
theorem afterDigits_whole (whole : ∀ b rest, bs = b :: rest → b ≠ 46 ∧ b ≠ 101 ∧ b ≠ 69) :
    afterDigits negative value extra bs =
      (afterDigits negative value extra []).map fun read => (read.1, bs) := by
  have step : afterDigits negative value extra bs =
      if extra ≠ 0 then do .ok (.float negative (← scaled value extra), bs)
      else if negative = false then .ok (.integer value, bs)
      else if value = 0 ∨ 0x8000000000000000 < value then
        .ok (.float true (Binary.ofNat value), bs)
      else .ok (.integer (-(value : Int)), bs) := by
    cases bs with
    | nil => rfl
    | cons b bs =>
      obtain ⟨point, small, capital⟩ := whole b bs rfl
      rw [afterDigits] <;> simp [point, small, capital]
  rw [step, afterDigits]
  · split
    · cases scaled value extra <;> rfl
    · split
      · rfl
      · split <;> rfl
  all_goals simp

theorem afterDigits_append (ends : EndsNumber rest)
    (read : afterDigits negative value extra bs = .ok (n, left)) :
    afterDigits negative value extra (bs ++ rest) = .ok (n, left ++ rest) := by
  rcases behind_digits bs with whole | ⟨later, rfl | rfl | rfl⟩
  · have whole' : ∀ b later, bs ++ rest = b :: later → b ≠ 46 ∧ b ≠ 101 ∧ b ≠ 69 := by
      cases bs with
      | nil => exact fun b later same => (ends b later same).2
      | cons b bs =>
        rintro b' bs' ⟨⟩
        exact whole b bs rfl
    rw [afterDigits_whole whole] at read
    rw [afterDigits_whole whole']
    cases number : afterDigits negative value extra [] with
    | error r =>
      rw [number] at read
      cases read
    | ok m =>
      rw [number] at read
      cases read
      rfl
  · obtain ⟨part, taken, same⟩ := bind_eq_ok read
    cases same
    rw [List.cons_append, afterDigits, fraction_append ends taken]
    rfl
  · obtain ⟨part, taken, same⟩ := bind_eq_ok read
    cases same
    rw [List.cons_append, afterDigits, exponent_append ends taken]
    rfl
  · obtain ⟨part, taken, same⟩ := bind_eq_ok read
    cases same
    rw [List.cons_append, afterDigits, exponent_append ends taken]
    rfl

/-- What may come behind the digits of a number. -/
def passAfterDigits : Bytes → Except Refusal Bytes
  | 46 :: rest => passFraction rest
  | 101 :: rest => passExponent rest
  | 69 :: rest => passExponent rest
  | rest => .ok rest

theorem passAfterDigits_of_afterDigits
    (read : afterDigits negative value extra bs = .ok (n, left)) :
    passAfterDigits bs = .ok left := by
  rcases behind_digits bs with whole | ⟨later, rfl | rfl | rfl⟩
  · have same : passAfterDigits bs = .ok bs := by
      cases bs with
      | nil => rfl
      | cons b bs =>
        obtain ⟨point, small, capital⟩ := whole b bs rfl
        simp [passAfterDigits, point, small, capital]
    rw [afterDigits_whole whole] at read
    cases number : afterDigits negative value extra [] with
    | error r =>
      rw [number] at read
      cases read
    | ok m =>
      rw [number] at read
      cases read
      exact same
  · obtain ⟨part, taken, same⟩ := bind_eq_ok read
    cases same
    exact passFraction_of_fraction taken
  · obtain ⟨part, taken, same⟩ := bind_eq_ok read
    cases same
    exact passExponent_of_exponent taken
  · obtain ⟨part, taken, same⟩ := bind_eq_ok read
    cases same
    exact passExponent_of_exponent taken

theorem startsWithDigit_append (ends : EndsNumber rest) (bs : Bytes) :
    startsWithDigit (bs ++ rest) = startsWithDigit bs := by
  cases bs with
  | nil =>
    cases rest with
    | nil => rfl
    | cons b rest => exact (ends b rest rfl).1
  | cons b bs => rfl

/-- A number is read whatever follows, if that can be no part of it. -/
theorem number_append (ends : EndsNumber rest) (read : number negative bs = .ok (n, left)) :
    number negative (bs ++ rest) = .ok (n, left ++ rest) := by
  cases bs with
  | nil => cases read
  | cons b bs =>
    rw [number] at read
    rw [List.cons_append, number]
    split at read
    · next zero =>
      rw [if_pos zero, startsWithDigit_append ends]
      split at read
      · cases read
      · next none =>
        rw [if_neg none]
        exact afterDigits_append ends read
    · next other =>
      rw [if_neg other]
      split at read
      · next digit =>
        rw [if_pos digit, ← List.cons_append, digitsOnto_append ends]
        simp only [takeWhile_digits_append ends, dropWhile_digits_append ends]
        exact afterDigits_append ends read
      · cases read

/-- A number that is read is passed over as well. -/
theorem passNumber_of_number (read : number negative bs = .ok (n, left)) :
    passNumber bs = .ok left := by
  cases bs with
  | nil => cases read
  | cons b bs =>
    have passed (first : ¬ (Text.isDigit b = false ∨ b = 48 ∧ startsWithDigit bs = true)) :
        passNumber (b :: bs) = passAfterDigits (bs.dropWhile Text.isDigit) := by
      rw [passNumber, if_neg first]
      rfl
    rw [number] at read
    split at read
    · next zero =>
      subst zero
      split at read
      · cases read
      · next none =>
        have undigited : bs.dropWhile Text.isDigit = bs := by
          cases bs with
          | nil => rfl
          | cons c bs => exact List.dropWhile_cons_of_neg none
        rw [passed (by simp [none, Text.isDigit]), undigited]
        exact passAfterDigits_of_afterDigits read
    · next other =>
      split at read
      · next digit =>
        have same := dropWhile_digitsOnto 0 0 (b :: bs)
        rw [List.dropWhile_cons_of_pos digit] at same
        rw [passed (by simp [other, digit]), ← same]
        exact passAfterDigits_of_afterDigits read
      · cases read

end Numbers

end Shipyard.Json

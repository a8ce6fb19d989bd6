import Shipyard.Json.Printer

/-!
# Strings that were written

What is read from a quoted string is the string, whatever follows it. Bytes of characters that are
written as they are pass one by one; every escape is read as the character that it was made for.
-/

namespace Shipyard

namespace Text

/-- The bytes of a list of characters. -/
def encoded (cs : List Char) : Bytes := cs.flatMap String.utf8EncodeChar

@[simp] theorem encoded_nil : encoded [] = [] := rfl

@[simp] theorem encoded_cons (c : Char) (cs : List Char) :
    encoded (c :: cs) = String.utf8EncodeChar c ++ encoded cs := rfl

@[simp] theorem encoded_append (cs ds : List Char) :
    encoded (cs ++ ds) = encoded cs ++ encoded ds :=
  List.flatMap_append

theorem bytes_ofList (cs : List Char) : bytes (String.ofList cs) = encoded cs := by
  simp [bytes, encoded]

theorem encoded_toList (s : String) : encoded s.toList = bytes s := rfl

theorem utf8EncodeChar_small {c : Char} (small : c.toNat < 0x80) :
    String.utf8EncodeChar c = [UInt8.ofNat c.toNat] := by
  have same : c.val.toNat = c.toNat := rfl
  rw [String.utf8EncodeChar, same, if_pos (by omega)]

/-- A character of seven bits is one byte; every byte of any other one has the eighth bit. -/
theorem mem_utf8EncodeChar {c : Char} {b : UInt8} (mem : b ∈ String.utf8EncodeChar c) :
    (c.toNat < 0x80 ∧ b.toNat = c.toNat) ∨ 0x80 ≤ b.toNat := by
  rw [String.utf8EncodeChar] at mem
  have same : c.val.toNat = c.toNat := rfl
  simp only [same] at mem
  split at mem
  · next small =>
    left
    have only : b = UInt8.ofNat c.toNat := by simpa using mem
    subst only
    refine ⟨by omega, ?_⟩
    rw [UInt8.toNat_ofNat']
    omega
  · right
    split at mem
    · simp only [List.mem_cons, List.not_mem_nil, or_false] at mem
      rcases mem with rfl | rfl <;> (rw [UInt8.toNat_ofNat']; omega)
    · split at mem
      · simp only [List.mem_cons, List.not_mem_nil, or_false] at mem
        rcases mem with rfl | rfl | rfl <;> (rw [UInt8.toNat_ofNat']; omega)
      · simp only [List.mem_cons, List.not_mem_nil, or_false] at mem
        rcases mem with rfl | rfl | rfl | rfl <;> (rw [UInt8.toNat_ofNat']; omega)

end Text

namespace Json

/-- A byte that stands for itself in a string. -/
def IsPlain (b : UInt8) : Prop := b ≠ 34 ∧ b ≠ 92 ∧ ¬ b < 32

theorem stringBytes_plain {bs : Bytes} (plain : ∀ b ∈ bs, IsPlain b) (n : Nat)
    (taken rest : Bytes) :
    stringBytes (bs.length + n) taken (bs ++ rest) = stringBytes n (bs.reverse ++ taken) rest := by
  induction bs generalizing taken with
  | nil => simp
  | cons b bs ih =>
    obtain ⟨quote, backslash, control⟩ := plain b (by simp)
    have step : stringBytes ((b :: bs).length + n) taken (b :: bs ++ rest) =
        stringBytes (bs.length + n) (b :: taken) (bs ++ rest) := by
      have fuel : (b :: bs).length + n = (bs.length + n) + 1 := by
        rw [List.length_cons]
        omega
      rw [fuel]
      simp [stringBytes, quote, backslash, control]
    rw [step, ih (fun b mem => plain b (by simp [mem])) (b :: taken)]
    simp

/-- The characters that are written as they are. -/
theorem plain_of_mem {c : Char} (quote : c ≠ '"') (backslash : c ≠ '\\')
    (control : ¬ c.toNat < 32) {b : UInt8} (mem : b ∈ String.utf8EncodeChar c) : IsPlain b := by
  have different (d : Char) (other : c ≠ d) : c.toNat ≠ d.toNat := fun same =>
    other (Char.toNat_inj.mp same)
  have quote' := different '"' quote
  have backslash' := different '\\' backslash
  have codes : '"'.toNat = 34 ∧ '\\'.toNat = 92 := by decide
  have value : (34 : UInt8).toNat = 34 ∧ (92 : UInt8).toNat = 92 ∧ (32 : UInt8).toNat = 32 := by
    decide
  rcases Text.mem_utf8EncodeChar mem with ⟨-, same⟩ | large
  · refine ⟨?_, ?_, ?_⟩
    · rintro rfl
      omega
    · rintro rfl
      omega
    · rw [UInt8.lt_iff_toNat_lt]
      omega
  · refine ⟨?_, ?_, ?_⟩
    · rintro rfl
      omega
    · rintro rfl
      omega
    · rw [UInt8.lt_iff_toNat_lt]
      omega

theorem hexValue_digitChar {d : Nat} (small : d < 16) :
    String.utf8EncodeChar (Text.digitChar d) = [UInt8.ofNat (Text.digitChar d).toNat] ∧
      Text.hexValue? (UInt8.ofNat (Text.digitChar d).toNat) = some d := by
  have all : ∀ d < 16,
      String.utf8EncodeChar (Text.digitChar d) = [UInt8.ofNat (Text.digitChar d).toNat] ∧
        Text.hexValue? (UInt8.ofNat (Text.digitChar d).toNat) = some d := by
    decide
  exact all d small

/-- A control character by its code point. -/
theorem codePoint_control {c : Char} (control : c.toNat < 32) (rest : Bytes) :
    codePoint (Text.encoded
      ['0', '0', Text.digitChar (c.toNat / 16), Text.digitChar (c.toNat % 16)] ++ rest) =
      .ok (c, rest) := by
  obtain ⟨high, highValue⟩ := hexValue_digitChar (by omega : c.toNat / 16 < 16)
  obtain ⟨low, lowValue⟩ := hexValue_digitChar (by omega : c.toNat % 16 < 16)
  have zero : String.utf8EncodeChar '0' = [48] := by decide
  have zeroValue : Text.hexValue? 48 = some 0 := by decide
  have whole : ((0 * 16 + 0) * 16 + c.toNat / 16) * 16 + c.toNat % 16 = c.toNat := by omega
  have unit : Json.unit (48 :: 48 :: UInt8.ofNat (Text.digitChar (c.toNat / 16)).toNat ::
      UInt8.ofNat (Text.digitChar (c.toNat % 16)).toNat :: rest) = .ok (c.toNat, rest) := by
    simp [Json.unit, hexFour, zeroValue, highValue, lowValue]
    omega
  have notLow : isLow c.toNat = false := by
    simp [isLow]
    omega
  have notHigh : isHigh c.toNat = false := by
    simp [isHigh]
    omega
  simp only [Text.encoded_cons, Text.encoded_nil, zero, high, low, List.append_nil,
    List.cons_append, List.nil_append]
  simp [codePoint, unit, notLow, notHigh, bind, Except.bind]

theorem stringBytes_escaped {e b : UInt8} (escaped : escaped? e = some b) (letter : e ≠ 117)
    (m : Nat) (taken rest : Bytes) :
    stringBytes (m + 1) taken (92 :: e :: rest) = stringBytes m (b :: taken) rest := by
  simp [stringBytes, escaped, letter]

theorem stringBytes_unicode {bs rest : Bytes} {c : Char} (read : codePoint bs = .ok (c, rest))
    (m : Nat) (taken : Bytes) : stringBytes (m + 1) taken (92 :: 117 :: bs) =
      stringBytes m ((String.utf8EncodeChar c).reverse ++ taken) rest := by
  simp [stringBytes, read]

/-- What was written for one character is read as that character. -/
theorem stringBytes_escapeChar (c : Char) {n : Nat} (taken : Bytes) {rest : Bytes}
    (fuel : (Text.encoded (escapeChar c) ++ rest).length < n) :
    ∃ m, rest.length < m ∧ stringBytes n taken (Text.encoded (escapeChar c) ++ rest) =
      stringBytes m ((String.utf8EncodeChar c).reverse ++ taken) rest := by
  -- An escape of two characters takes one step.
  have short (d e : Char) (x b : UInt8) (writes : escapeChar d = ['\\', e])
      (letter : String.utf8EncodeChar e = [x]) (code : String.utf8EncodeChar d = [b])
      (escaped : escaped? x = some b) (other : x ≠ 117)
      (fuel : (Text.encoded (escapeChar d) ++ rest).length < n) :
      ∃ m, rest.length < m ∧ stringBytes n taken (Text.encoded (escapeChar d) ++ rest) =
        stringBytes m ((String.utf8EncodeChar d).reverse ++ taken) rest := by
    have backslash : String.utf8EncodeChar '\\' = [92] := by decide
    rw [writes, code]
    simp only [writes, Text.encoded_cons, Text.encoded_nil, backslash, letter, List.cons_append,
      List.nil_append, List.length_cons] at fuel ⊢
    obtain ⟨m, rfl⟩ : ∃ m, n = m + 1 := ⟨n - 1, by omega⟩
    exact ⟨m, by omega, stringBytes_escaped escaped other m taken rest⟩
  by_cases quote : c = '"'
  · subst quote
    exact short _ '"' 34 34 rfl (by decide) (by decide) rfl (by decide) fuel
  by_cases backslash : c = '\\'
  · subst backslash
    exact short _ '\\' 92 92 rfl (by decide) (by decide) rfl (by decide) fuel
  by_cases newline : c = '\n'
  · subst newline
    exact short _ 'n' 110 10 rfl (by decide) (by decide) rfl (by decide) fuel
  by_cases return' : c = '\r'
  · subst return'
    exact short _ 'r' 114 13 rfl (by decide) (by decide) rfl (by decide) fuel
  by_cases tab : c = '\t'
  · subst tab
    exact short _ 't' 116 9 rfl (by decide) (by decide) rfl (by decide) fuel
  by_cases back : c = '\x08'
  · subst back
    exact short _ 'b' 98 8 rfl (by decide) (by decide) rfl (by decide) fuel
  by_cases feed : c = '\x0c'
  · subst feed
    exact short _ 'f' 102 12 rfl (by decide) (by decide) rfl (by decide) fuel
  by_cases control : c.toNat < 32
  · have writes : escapeChar c = '\\' :: 'u' ::
        ['0', '0', Text.digitChar (c.toNat / 16), Text.digitChar (c.toNat % 16)] := by
      simp [escapeChar, quote, backslash, newline, return', tab, back, feed, control]
    have marks : String.utf8EncodeChar '\\' = [92] ∧ String.utf8EncodeChar 'u' = [117] := by
      decide
    rw [writes] at fuel ⊢
    rw [Text.encoded_cons, Text.encoded_cons, marks.1, marks.2] at fuel ⊢
    simp only [List.cons_append, List.nil_append, List.length_cons, List.length_append] at fuel ⊢
    obtain ⟨m, rfl⟩ : ∃ m, n = m + 1 := ⟨n - 1, by omega⟩
    exact ⟨m, by omega, stringBytes_unicode (codePoint_control control rest) m taken⟩
  · have writes : escapeChar c = [c] := by
      simp [escapeChar, quote, backslash, newline, return', tab, back, feed, control]
    rw [writes] at fuel ⊢
    simp only [Text.encoded_cons, Text.encoded_nil, List.append_nil, List.length_append] at fuel ⊢
    obtain ⟨m, rfl⟩ : ∃ m, n = (String.utf8EncodeChar c).length + m :=
      ⟨n - (String.utf8EncodeChar c).length, by omega⟩
    exact ⟨m, by omega,
      stringBytes_plain (fun b mem => plain_of_mem quote backslash control mem) m taken rest⟩

theorem stringBytes_escaped_chars (cs : List Char) {n : Nat} (taken : Bytes) {rest : Bytes}
    (fuel : (Text.encoded (cs.flatMap escapeChar) ++ 34 :: rest).length < n) :
    stringBytes n taken (Text.encoded (cs.flatMap escapeChar) ++ 34 :: rest) =
      .ok (taken.reverse ++ Text.encoded cs, rest) := by
  induction cs generalizing n taken with
  | nil =>
    obtain ⟨m, rfl⟩ : ∃ m, n = m + 1 := ⟨n - 1, by omega⟩
    simp [stringBytes]
  | cons c cs ih =>
    rw [List.flatMap_cons, Text.encoded_append, List.append_assoc] at fuel ⊢
    obtain ⟨m, left, step⟩ := stringBytes_escapeChar c taken fuel
    rw [step, ih _ left]
    simp

/-- A string that was written is read again, whatever follows it. -/
theorem string_quoted (s : String) (rest : Bytes) :
    string (Text.encoded (s.toList.flatMap escapeChar) ++ 34 :: rest) = .ok (s, rest) := by
  rw [string]
  rw [stringBytes_escaped_chars s.toList [] (Nat.lt_succ_self _)]
  simp [bind, Except.bind, Text.encoded_toList, Text.ofBytes?_bytes]

end Json
end Shipyard

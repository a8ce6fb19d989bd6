import Shipyard.Proofs.Gateway.Check
import Shipyard.Proofs.Text.Trimming

/-!
# Cookies in several headers

A client may send its cookies in one header or in several. What is put together from several
headers has the pairs of each of them, in their order, so the first pair that names the session is
the one it was, and a header without such a pair makes no difference.
-/

namespace Shipyard.Gateway

section Pieces

variable {mark : Char}

theorem pieces_ne_nil (mark : Char) (cs : List Char) : pieces mark cs ≠ [] := by
  cases cs with
  | nil => simp [pieces]
  | cons c cs =>
    rw [pieces]
    split
    · simp
    · split <;> simp

/-- A character that divides nothing belongs to the first piece. -/
theorem pieces_cons {c : Char} (other : c ≠ mark) (cs : List Char) :
    ∃ p ps, pieces mark cs = p :: ps ∧ pieces mark (c :: cs) = (c :: p) :: ps := by
  obtain ⟨p, ps, shape⟩ := List.exists_cons_of_ne_nil (pieces_ne_nil mark cs)
  exact ⟨p, ps, shape, by rw [pieces, if_neg other, shape]⟩

/-- A mark between two texts divides them. -/
theorem pieces_append (xs ys : List Char) :
    pieces mark (xs ++ mark :: ys) = pieces mark xs ++ pieces mark ys := by
  induction xs with
  | nil => simp [pieces]
  | cons x xs ih =>
    by_cases divides : x = mark
    · subst divides
      simp [pieces, ih]
    · obtain ⟨p, ps, shape, whole⟩ := pieces_cons divides xs
      obtain ⟨p', ps', shape', whole'⟩ := pieces_cons divides (xs ++ mark :: ys)
      rw [ih, shape, List.cons_append] at shape'
      cases shape'
      rw [List.cons_append, whole', whole, List.cons_append]

theorem pieces_of_notMem {cs : List Char} (absent : mark ∉ cs) : pieces mark cs = [cs] := by
  induction cs with
  | nil => rfl
  | cons c cs ih =>
    have other : c ≠ mark := fun same => absent (by simp [same])
    obtain ⟨p, ps, shape, whole⟩ := pieces_cons other cs
    rw [ih fun mem => absent (List.mem_cons_of_mem c mem)] at shape
    cases shape
    exact whole

end Pieces

/-- What stands between the semicolons of a cookie header, without the blanks around it. -/
def pairs (cookie : List Char) : List (List Char) := (pieces ';' cookie).map Text.trim

theorem pairs_append (xs ys : List Char) : pairs (xs ++ ';' :: ys) = pairs xs ++ pairs ys := by
  rw [pairs, pieces_append, List.map_append]
  rfl

theorem pairs_blank_cons (cs : List Char) : pairs (' ' :: cs) = pairs cs := by
  obtain ⟨p, ps, shape, whole⟩ := pieces_cons (by decide : ' ' ≠ ';') cs
  have blank : Text.IsBlank [' '] := by
    intro c mem
    rw [List.mem_singleton.mp mem]
    decide
  have same := Text.trim_append_blanks blank Text.isBlank_nil p
  rw [List.append_nil] at same
  rw [pairs, whole, pairs, shape, List.map_cons, List.map_cons]
  exact congrArg (· :: ps.map Text.trim) same

/-- Cookies that are put together have all their pairs. -/
theorem pairs_intercalate (v : String) (vs : List String) :
    pairs ("; ".intercalate (v :: vs)).toList = (v :: vs).flatMap fun v => pairs v.toList := by
  induction vs generalizing v with
  | nil => simp
  | cons u us ih =>
    have parts := String.intercalate_append_of_ne_nil (s := "; ") (List.cons_ne_nil v [])
      (List.cons_ne_nil u us)
    rw [String.intercalate_singleton] at parts
    have chars : ("; ").toList = [';', ' '] := by decide +kernel
    have whole : ("; ".intercalate (v :: u :: us)).toList =
        v.toList ++ ';' :: ' ' :: ("; ".intercalate (u :: us)).toList := by
      rw [← List.singleton_append, parts, String.toList_append, String.toList_append, chars,
        List.append_assoc]
      rfl
    rw [whole, pairs_append, pairs_blank_cons, ih]
    rfl

/-- A piece is a pair of a name and a value, and its name is the session's. -/
def NamesSession (piece : List Char) : Prop :=
  ∃ name value, piece = name ++ '=' :: value ∧ '=' ∉ name ∧
    Text.trim name = sessionCookie.toList

theorem pair?_append {name value : List Char} (first : '=' ∉ name) :
    pair? (name ++ '=' :: value) = some (Text.trimLeft name, Text.trimRight value) := by
  have solid : Text.isBlank '=' = false := by decide
  have first' : ∀ c ∈ Text.trimLeft name, Decidable.decide (c ≠ '=') = true := by
    intro c mem
    rw [decide_eq_true_eq]
    rintro rfl
    exact first ((List.dropWhile_sublist _).subset mem)
  have value' : (Text.trim (name ++ '=' :: value)).dropWhile (· ≠ '=') =
      '=' :: Text.trimRight value := by
    rw [Text.trim_append_cons solid, List.dropWhile_append_of_pos first']
    rfl
  have name' : (Text.trim (name ++ '=' :: value)).takeWhile (· ≠ '=') = Text.trimLeft name := by
    rw [Text.trim_append_cons solid, List.takeWhile_append_of_pos first']
    simp
  rw [pair?]
  simp only [value', name']

/-- The value of a pair that names the session, without the blanks around it. -/
theorem sessionValue?_append {name value : List Char} (first : '=' ∉ name)
    (session : Text.trim name = sessionCookie.toList) :
    sessionValue? (name ++ '=' :: value) = some (unquote (Text.trim value)) := by
  rw [sessionValue?, pair?_append first]
  simp only [Text.trim_trimLeft, Text.trim_trimRight, session, if_true]

/-- Exactly the pairs that name the session have a value that counts. -/
theorem isSome_sessionValue?_iff {piece : List Char} :
    (sessionValue? piece).isSome = true ↔ NamesSession piece := by
  constructor
  · intro counts
    by_cases divided : '=' ∈ piece
    · obtain ⟨name, value, rfl, first⟩ := List.eq_append_cons_of_mem divided
      refine ⟨name, value, rfl, first, ?_⟩
      rw [sessionValue?, pair?_append first] at counts
      simp only [Text.trim_trimLeft] at counts
      split at counts
      · next session => exact session
      · cases counts
    · have whole : (Text.trim piece).dropWhile (· ≠ '=') = [] := by
        rw [List.dropWhile_eq_nil_iff]
        intro c mem
        rw [decide_eq_true_eq]
        rintro rfl
        exact divided (Text.trim_subset piece mem)
      rw [sessionValue?, pair?] at counts
      simp only [whole] at counts
      cases counts
  · rintro ⟨name, value, rfl, first, session⟩
    rw [sessionValue?_append first session]
    rfl

instance (piece : List Char) : Decidable (NamesSession piece) :=
  decidable_of_iff _ isSome_sessionValue?_iff

theorem sessionValue?_eq_none_iff {piece : List Char} :
    sessionValue? piece = none ↔ ¬ NamesSession piece := by
  rw [← isSome_sessionValue?_iff, Bool.not_eq_true, Option.isSome_eq_false_iff,
    Option.isNone_iff_eq_none]

theorem findSome?_pairs (cookie : List Char) :
    (pairs cookie).findSome? sessionValue? = (pieces ';' cookie).findSome? sessionValue? := by
  have trimmed : sessionValue? ∘ Text.trim = sessionValue? := by
    funext piece
    rw [Function.comp_apply, sessionValue?, pair?, Text.trim_trim, ← pair?, ← sessionValue?]
  rw [pairs, List.findSome?_map, trimmed]

/-- A token depends on the pairs only. -/
theorem sessionToken?_eq (cookie : String) :
    sessionToken? cookie = ((pairs cookie.toList).findSome? sessionValue?).bind tokenOf := by
  rw [findSome?_pairs, sessionToken?]

/-- A cookie header has a pair that names the session. -/
def HoldsSession (cookie : String) : Prop :=
  ∃ piece ∈ pieces ';' cookie.toList, NamesSession piece

instance (cookie : String) : Decidable (HoldsSession cookie) :=
  List.decidableBEx _ _

theorem findSome?_pairs_eq_none_iff {cookie : String} :
    (pairs cookie.toList).findSome? sessionValue? = none ↔ ¬ HoldsSession cookie := by
  simp [findSome?_pairs, HoldsSession, sessionValue?_eq_none_iff]

/-- The first pair of all that names the session is that of the first header which has one. -/
theorem findSome?_flatMap_pairs (cookies : List String) :
    (cookies.flatMap fun v => pairs v.toList).findSome? sessionValue? =
      (cookies.find? HoldsSession).bind fun v => (pairs v.toList).findSome? sessionValue? := by
  induction cookies with
  | nil => rfl
  | cons v vs ih =>
    rw [List.flatMap_cons, List.findSome?_append, ih]
    by_cases holds : HoldsSession v
    · obtain ⟨raw, found⟩ := Option.ne_none_iff_exists'.mp
        (mt findSome?_pairs_eq_none_iff.mp (not_not.mpr holds))
      rw [List.find?_cons_of_pos (by simp [holds]), Option.bind_some, found, Option.some_or]
    · rw [List.find?_cons_of_neg (by simp [holds]), findSome?_pairs_eq_none_iff.mpr holds,
        Option.none_or]

/-- The session that the cookies of a request name, put together by the gateway. -/
def sessionOf (headers : List (String × String)) : Option String :=
  ((CheckRequest.ofHeaders headers).header? "cookie").bind sessionToken?

theorem sessionOf_eq (headers : List (String × String)) :
    sessionOf headers = (((valuesOf "cookie" headers).flatMap fun v =>
      pairs v.toList).findSome? sessionValue?).bind tokenOf := by
  have lower : CheckRequest.joint (Web.lowered "cookie") = "; " := by decide +kernel
  rw [sessionOf, CheckRequest.header?_ofHeaders, lower]
  cases valuesOf "cookie" headers with
  | nil => rfl
  | cons v vs =>
    rw [joined?, Option.bind_some, sessionToken?_eq, pairs_intercalate]

/-- Headers are looked up by their names in any case: the values of all that have the name, in
their order, cookies put together as cookies and others as a list. The session of a request is that
of its first cookie header with a pair for it; and however the pairs of a cookie header are spread
over several, whatever blanks are left at their ends and whatever headers come in between, the
request names the same session. -/
theorem split_cookies_name_the_same_session (headers : List (String × String)) :
    (∀ name, (CheckRequest.ofHeaders headers).header? name =
      joined? (if Web.lowered name = "cookie" then "; " else ", ") (valuesOf name headers)) ∧
    sessionOf headers = ((valuesOf "cookie" headers).find? HoldsSession).bind sessionToken? ∧
    ∀ cookie : String,
      (valuesOf "cookie" headers).flatMap (fun v => pairs v.toList) = pairs cookie.toList →
        sessionOf headers = sessionToken? cookie := by
  refine ⟨CheckRequest.header?_ofHeaders headers, ?_, ?_⟩
  · rw [sessionOf_eq, findSome?_flatMap_pairs, Option.bind_assoc]
    simp only [← sessionToken?_eq]
  · intro cookie same
    rw [sessionOf_eq, same, ← sessionToken?_eq]

/-- Cookies in two headers, with another header in between and a pair without a name. -/
def scattered : List (String × String) :=
  [("Cookie", "lang=en;=;  "), ("accept", "*/*"), ("COOKIE", "X-Session-Uuid = a%20b;theme=dark ")]

theorem split_cookies_in_two_headers :
    sessionOf scattered = sessionToken? "lang=en; = ; ;X-Session-Uuid = a%20b; theme=dark" ∧
      sessionOf scattered = some "a b" := by
  have same := (split_cookies_name_the_same_session scattered).2.2
    "lang=en; = ; ;X-Session-Uuid = a%20b; theme=dark" (by decide +kernel)
  refine ⟨same, ?_⟩
  rw [same]
  decide +kernel

end Shipyard.Gateway

import Mathlib.Data.List.Induction
import Shipyard.Gateway.Check
import Shipyard.World

/-!
# The verdict on a request

A request is let through exactly if its cookies name a session that is live. What is told of a
request that is refused does not depend on the reason, nor on anything else but its method.
-/

namespace Shipyard

theorem Sessions.whoami_eq_ok_iff {s : Sessions} {id : String} {now : Instant} {i : Identity} :
    s.whoami id now = .ok i ↔
      s.down = false ∧ ∃ session, s.table.find? id = some session ∧
        now.before session.expiresAt = true ∧ i = ⟨session.user, session.login⟩ := by
  cases down : s.down with
  | true => simp [whoami, find, down]
  | false =>
    cases found : s.table.find? id with
    | none => simp [whoami, find, down, found]
    | some session =>
      cases live : now.before session.expiresAt with
      | false => simp [whoami, find, down, found, Session.hasExpired, live]
      | true =>
        simp only [whoami, find, down, found, Session.hasExpired, live, Bool.false_eq_true,
          if_false, Bool.not_true, Except.ok.injEq, true_and, Option.some.injEq, exists_eq_left']
        exact eq_comm

namespace Gateway

section Headers

/-- The values of the headers with a name, in whatever case, in their order. -/
def valuesOf (name : String) (headers : List (String × String)) : List String :=
  (headers.filter fun h => h.1.toList.map Char.toLower = name.toList.map Char.toLower).map Prod.snd

theorem lowered_eq_iff {a b : String} :
    Web.lowered a = Web.lowered b ↔ a.toList.map Char.toLower = b.toList.map Char.toLower := by
  rw [← String.toList_inj, Web.lowered, Web.lowered, String.toList_map, String.toList_map]

theorem valuesOf_concat (name : String) (headers : List (String × String))
    (h : String × String) :
    valuesOf name (headers ++ [h]) =
      valuesOf name headers ++ if Web.lowered h.1 = Web.lowered name then [h.2] else [] := by
  rw [valuesOf, List.filter_append, List.map_append, valuesOf]
  by_cases same : h.1.toList.map Char.toLower = name.toList.map Char.toLower <;>
    simp [same, lowered_eq_iff]

/-- Values put together into one, if there are any. -/
def joined? (mark : String) : List String → Option String
  | [] => none
  | v :: vs => some (mark.intercalate (v :: vs))

theorem joined?_concat (mark : String) (values : List String) (v : String) :
    joined? mark (values ++ [v]) =
      some (match joined? mark values with
        | some text => text ++ mark ++ v
        | none => v) := by
  cases values with
  | nil => simp [joined?]
  | cons u us =>
    have parts := String.intercalate_append_of_ne_nil (s := mark) (List.cons_ne_nil u us)
      (List.cons_ne_nil v [])
    rw [String.intercalate_singleton] at parts
    rw [List.cons_append] at parts ⊢
    simp only [joined?, parts]

theorem CheckRequest.find?_addHeader (r : CheckRequest) (header : String × String)
    (name : String) :
    (r.addHeader header).headers.find? name =
      if Web.lowered header.1 = name then
        some (match r.headers.find? name with
          | some text => text ++ joint name ++ header.2
          | none => header.2)
      else r.headers.find? name := by
  rw [addHeader]
  cases found : r.headers.find? (Web.lowered header.1) with
  | none =>
    simp only [Table.find?_put]
    split
    · next same =>
      subst same
      rw [found]
    · rfl
  | some text =>
    simp only [Table.find?_put]
    split
    · next same =>
      subst same
      rw [found]
    · rfl

/-- Repeated headers are looked up as one. -/
theorem CheckRequest.header?_ofHeaders (headers : List (String × String)) (name : String) :
    (ofHeaders headers).header? name =
      joined? (joint (Web.lowered name)) (valuesOf name headers) := by
  induction headers using List.reverseRecOn with
  | nil => rfl
  | append_singleton headers h ih =>
    rw [header?] at ih
    have last : ofHeaders (headers ++ [h]) = (ofHeaders headers).addHeader h := by
      simp [ofHeaders]
    rw [header?, last, find?_addHeader, ih, valuesOf_concat]
    split
    · rw [joined?_concat]
    · rw [List.append_nil]

end Headers

/-- The cookies of a request, its bytes read as far as they can be. -/
def cookies? (headers : List (String × Bytes)) : Option String :=
  joined? "; " (valuesOf "cookie" (headers.map fun h => (h.1, Text.lossy h.2)))

/-- The cookies of a request name a session that can be looked up and is not over yet. -/
structure Presents (w : World) (headers : List (String × Bytes)) (s : Session) : Prop where
  named : ∃ cookies token, cookies? headers = some cookies ∧ sessionToken? cookies = some token ∧
    w.sessions.table.find? token = some s
  reachable : w.sessions.down = false
  live : w.today.before s.expiresAt = true

/-- Controls other than the tab cannot stand in a header. -/
def IsLegal (text : String) : Prop := ∀ b ∈ Text.bytes text, b = 9 ∨ 32 ≤ b ∧ b ≠ 127

theorem isHeaderValue_iff {text : String} : isHeaderValue text = true ↔ IsLegal text := by
  simp [isHeaderValue, IsLegal, Web.isLegal, or_comm]

/-- What is decided on a request in a world. -/
def decision (w : World) (headers : List (String × Bytes)) : Decision :=
  match (cookies? headers).bind sessionToken? with
  | none => .deny
  | some token =>
    match w.sessions.whoami token w.today with
    | .ok identity => .allow identity
    | .error _ => .deny

theorem decision_eq_allow_iff {w : World} {headers : List (String × Bytes)} {i : Identity} :
    decision w headers = .allow i ↔ ∃ s, Presents w headers s ∧ i = ⟨s.user, s.login⟩ := by
  constructor
  · intro allowed
    rw [decision] at allowed
    split at allowed
    · cases allowed
    · next token named =>
      obtain ⟨cookies, sent, read⟩ := Option.bind_eq_some_iff.mp named
      split at allowed
      · next identity known =>
        cases allowed
        obtain ⟨up, s, found, live, same⟩ := Sessions.whoami_eq_ok_iff.mp known
        exact ⟨s, ⟨⟨cookies, token, sent, read, found⟩, up, live⟩, same⟩
      · cases allowed
  · rintro ⟨s, ⟨⟨cookies, token, sent, read, found⟩, up, live⟩, rfl⟩
    have known : w.sessions.whoami token w.today = .ok ⟨s.user, s.login⟩ :=
      Sessions.whoami_eq_ok_iff.mpr ⟨up, s, found, live, rfl⟩
    simp [decision, sent, read, known]

theorem decision_eq_deny_iff {w : World} {headers : List (String × Bytes)} :
    decision w headers = .deny ↔ ∀ s, ¬ Presents w headers s := by
  constructor
  · intro denied s presents
    have allowed := decision_eq_allow_iff.mpr ⟨s, presents, rfl⟩
    rw [denied] at allowed
    cases allowed
  · intro none
    cases decided : decision w headers with
    | deny => rfl
    | allow i =>
      obtain ⟨s, presents, -⟩ := decision_eq_allow_iff.mp decided
      exact absurd presents (none s)

/-- What a request is told in a world. A question about the headers alone gets no body. -/
def answer (w : World) (r : Web.Request) : Web.Response :=
  if r.method = "HEAD" then (respond (decision w r.headers)).withoutBody
  else respond (decision w r.headers)

/-- A check comes to an end with the response to what was decided. -/
theorem finish_serve (w : World) (r : Web.Request) :
    (w.finish (serve r)).2 = .ok (answer w r) := by
  have cookies : (CheckRequest.ofHeaders (r.headers.map fun h => (h.1, Text.lossy h.2))).header?
      "cookie" = cookies? r.headers := by
    have lower : Web.lowered "cookie" = "cookie" := by decide +kernel
    rw [CheckRequest.header?_ofHeaders, lower]
    rfl
  rw [serve, check, decide, answer, decision, cookies]
  cases (cookies? r.headers).bind sessionToken? with
  | none => rfl
  | some token =>
    cases known : w.sessions.whoami token w.today <;>
      simp [Job.bind, World.finish, World.answer, known]

/-- What a request of a method is told that is refused. -/
def refusal (method : String) : Web.Response :=
  ⟨403, [("content-type", "application/json"), ("x-auth-status", "denied")],
    if method = "HEAD" then []
    else Text.bytes "\x7b\"error\":\"Missing or invalid session\"\x7d"⟩

/-- What a request is told that is let through. -/
def passage (s : Session) : Web.Response :=
  ⟨200, [("x-user-uuid", s.user.text), ("x-user-login", s.login),
    ("x-envoy-auth-headers-to-remove", "cookie,authorization")], []⟩

theorem answer_of_absent {w : World} {r : Web.Request} (absent : ∀ s, ¬ Presents w r.headers s) :
    answer w r = refusal r.method := by
  have body : Decision.deniedBody = "\x7b\"error\":\"Missing or invalid session\"\x7d" := by
    decide +kernel
  rw [answer, decision_eq_deny_iff.mpr absent, respond, body, refusal]
  split <;> rfl

theorem answer_of_presents {w : World} {r : Web.Request} {s : Session}
    (presents : Presents w r.headers s) :
    answer w r = if isHeaderValue s.user.text && isHeaderValue s.login then passage s
      else ⟨500, [], []⟩ := by
  have removed : ",".intercalate Decision.removed = "cookie,authorization" := by decide +kernel
  rw [answer, decision_eq_allow_iff.mpr ⟨s, presents, rfl⟩, respond, removed]
  split <;> split <;> rfl

theorem legal_iff (s : Session) :
    (isHeaderValue s.user.text && isHeaderValue s.login) = true ↔
      IsLegal s.user.text ∧ IsLegal s.login := by
  rw [Bool.and_eq_true, isHeaderValue_iff, isHeaderValue_iff]

/-- A request is let through exactly if it presents a live session whose user and login can stand
in headers; then it gets just these two as headers, and its credentials are taken off. If only they
cannot stand in headers, nothing is told of them. Every other request is told the same, whatever
was missing, by whatever sessions it was judged. -/
theorem serve_verdict (w : World) (r : Web.Request) :
    ∃ response, (w.finish (serve r)).2 = .ok response ∧
      (response.status = 200 ↔
        ∃ s, Presents w r.headers s ∧ IsLegal s.user.text ∧ IsLegal s.login) ∧
      (∀ s, Presents w r.headers s →
        (IsLegal s.user.text ∧ IsLegal s.login → response = passage s) ∧
        (¬ (IsLegal s.user.text ∧ IsLegal s.login) → response = ⟨500, [], []⟩)) ∧
      ((∀ s, ¬ Presents w r.headers s) → response = refusal r.method ∧
        ∀ w' r', (r'.method = "HEAD" ↔ r.method = "HEAD") →
          (∀ s, ¬ Presents w' r'.headers s) → (w'.finish (serve r')).2 = .ok response) := by
  refine ⟨answer w r, finish_serve w r, ⟨fun passed => ?_, ?_⟩, fun s presents => ⟨?_, ?_⟩,
    fun absent => ⟨answer_of_absent absent, fun w' r' same absent' => ?_⟩⟩
  · by_cases known : ∃ s, Presents w r.headers s
    · obtain ⟨s, presents⟩ := known
      rw [answer_of_presents presents] at passed
      split at passed
      · next legal => exact ⟨s, presents, (legal_iff s).mp legal⟩
      · cases passed
    · rw [answer_of_absent (not_exists.mp known)] at passed
      cases passed
  · rintro ⟨s, presents, legal⟩
    rw [answer_of_presents presents, if_pos ((legal_iff s).mpr legal)]
    rfl
  · intro legal
    rw [answer_of_presents presents, if_pos ((legal_iff s).mpr legal)]
  · intro illegal
    rw [answer_of_presents presents, if_neg (mt (legal_iff s).mp illegal)]
  · rw [finish_serve, answer_of_absent absent, answer_of_absent absent']
    simp only [refusal, same]

def alice : Session := ⟨⟨"u1"⟩, "alice", ⟨1, 0, 0⟩⟩

/-- Its login has two lines. -/
def bob : Session := ⟨⟨"u2"⟩, "bob\n", ⟨1, 0, 0⟩⟩

/-- It is over at its last moment. -/
def carol : Session := ⟨⟨"u3"⟩, "carol", ⟨0, 0, 0⟩⟩

def lodge : World :=
  { World.empty 1 false ⟨0, 0, 0⟩ with
    sessions := ((Sessions.empty.put "a b" alice).put "bob" bob).put "carol" carol }

/-- A request with two cookie headers, the first of them with a byte that belongs to no text. -/
def asking (session : String) : Web.Request :=
  ⟨"GET", "/", [("Cookie", 0xff :: Text.bytes "=1; theme=dark"), ("accept", Text.bytes "*/*"),
    ("COOKIE", Text.bytes ("lang=en ; X-Session-Uuid = " ++ session))], []⟩

theorem serve_verdict_four_requests :
    (lodge.finish (serve (asking "\"a%20b\""))).2 = .ok (passage alice) ∧
      (lodge.finish (serve (asking "bob"))).2 = .ok ⟨500, [], []⟩ ∧
      (lodge.finish (serve (asking "carol"))).2 = .ok (refusal "GET") ∧
      ((World.empty 1 false ⟨0, 0, 0⟩).finish (serve ⟨"PUT", "/x", [], []⟩)).2 =
        .ok (refusal "GET") := by
  have named (session token : String) (s : Session)
      (given : (cookies? (asking session).headers).bind sessionToken? = some token)
      (found : lodge.sessions.table.find? token = some s)
      (live : lodge.today.before s.expiresAt = true) :
      Presents lodge (asking session).headers s := by
    obtain ⟨cookies, sent, read⟩ := Option.bind_eq_some_iff.mp given
    exact ⟨⟨cookies, token, sent, read, found⟩, rfl, live⟩
  have presents := named "\"a%20b\"" "a b" alice (by decide +kernel) (by decide +kernel) rfl
  have presents' := named "bob" "bob" bob (by decide +kernel) (by decide +kernel) rfl
  have absent : ∀ s, ¬ Presents lodge (asking "carol").headers s :=
    decision_eq_deny_iff.mp (by decide +kernel)
  have empty : ∀ s, ¬ Presents (World.empty 1 false ⟨0, 0, 0⟩) [] s :=
    decision_eq_deny_iff.mp (by decide +kernel)
  have legal : IsLegal alice.user.text ∧ IsLegal alice.login :=
    (legal_iff alice).mp (by decide +kernel)
  have illegal : ¬ (IsLegal bob.user.text ∧ IsLegal bob.login) :=
    mt (legal_iff bob).mpr (by decide +kernel)
  obtain ⟨passed, told, -, verdict, -⟩ := serve_verdict lodge (asking "\"a%20b\"")
  obtain ⟨hidden, told', -, verdict', -⟩ := serve_verdict lodge (asking "bob")
  obtain ⟨refused, told'', -, -, uniform⟩ := serve_verdict lodge (asking "carol")
  obtain ⟨same, others⟩ := uniform absent
  rw [told, told', told'', (verdict alice presents).1 legal, (verdict' bob presents').2 illegal]
  refine ⟨rfl, rfl, congrArg _ same, ?_⟩
  rw [others _ _ (by decide) empty, same]
  rfl

end Gateway
end Shipyard

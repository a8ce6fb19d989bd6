import Shipyard.Proofs.Api.Requests
import Shipyard.Proofs.Gateway.Check
import Shipyard.Proofs.Json.Strings
import Shipyard.Proofs.Text.Trimming

/-!
# Identities that cross from the gateway

The gateway hands on the user of a session as a header, and the order API reads the header as the
user of an order. It reads printable ASCII only and takes surrounding blanks off; whatever else
the gateway lets through is no identity to it.
-/

namespace Shipyard

theorem Web.isVisible_iff {b : UInt8} :
    Web.isVisible b = true ↔ b.toNat = 9 ∨ 32 ≤ b.toNat ∧ b.toNat < 127 := by
  simp only [Web.isVisible, Bool.or_eq_true, Bool.and_eq_true, decide_eq_true_eq,
    UInt8.le_iff_toNat_le, UInt8.lt_iff_toNat_lt, ← UInt8.toNat_inj, UInt8.reduceToNat]
  omega

namespace Text

/-- A character that a header may have for the order API. -/
def IsPrintable (c : Char) : Prop := c.toNat = 9 ∨ 32 ≤ c.toNat ∧ c.toNat < 127

instance (c : Char) : Decidable (IsPrintable c) := inferInstanceAs (Decidable (_ ∨ _))

theorem exists_mem_utf8EncodeChar (c : Char) : ∃ b, b ∈ String.utf8EncodeChar c := by
  have some : 0 < (String.utf8EncodeChar c).length := by
    rw [String.length_utf8EncodeChar]
    exact c.utf8Size_pos
  exact List.exists_mem_of_length_pos some

/-- The bytes of a character are visible if it is a printable one. -/
theorem visible_utf8EncodeChar (c : Char) :
    (∀ b ∈ String.utf8EncodeChar c, Web.isVisible b = true) ↔ IsPrintable c := by
  constructor
  · intro visible
    obtain ⟨b, mem⟩ := exists_mem_utf8EncodeChar c
    have value := Web.isVisible_iff.mp (visible b mem)
    -- A character with more than one byte has none that is visible.
    rcases mem_utf8EncodeChar mem with ⟨-, same⟩ | large
    · rwa [same] at value
    · omega
  · intro printable b mem
    have small : c.toNat < 0x80 := by
      rcases printable with tab | ⟨-, less⟩ <;> omega
    rw [utf8EncodeChar_small small, List.mem_singleton] at mem
    have same : b.toNat = c.toNat := by
      rw [mem, UInt8.toNat_ofNat']
      omega
    rw [Web.isVisible_iff, same]
    exact printable

theorem visible?_bytes (s : String) [Decidable (∀ c ∈ s.toList, IsPrintable c)] :
    Web.visible? (bytes s) = if ∀ c ∈ s.toList, IsPrintable c then some s else none := by
  have same : (bytes s).all Web.isVisible = true ↔ ∀ c ∈ s.toList, IsPrintable c := by
    simp only [bytes, List.all_eq_true, List.mem_flatMap, forall_exists_index, and_imp]
    constructor
    · intro visible c mem
      exact (visible_utf8EncodeChar c).mp fun b inside => visible b c mem inside
    · intro printable b c mem inside
      exact (visible_utf8EncodeChar c).mpr (printable c mem) b inside
  rw [Web.visible?, ofBytes?_bytes]
  by_cases printable : ∀ c ∈ s.toList, IsPrintable c
  · rw [if_pos (same.mpr printable), if_pos printable]
  · rw [if_neg (mt same.mp printable), if_neg printable]

/-- A text without a blank at either end. -/
def IsUnpadded (s : String) : Prop :=
  (∀ c ∈ s.toList.head?, isBlank c = false) ∧ ∀ c ∈ s.toList.getLast?, isBlank c = false

instance (s : String) : Decidable (IsUnpadded s) :=
  @instDecidableAnd _ _ (Option.decidableForallMem _) (Option.decidableForallMem _)

theorem trimmed_of_unpadded {s : String} (h : IsUnpadded s) : trimmed s = s := by
  rw [trimmed, trim_of_solid h.1 h.2, String.ofList_toList]

end Text
namespace Api

/-- What the order API takes for the identity of a user: printable ASCII, not all of it blank. -/
def IsIdentity (s : String) : Prop :=
  (∀ c ∈ s.toList, Text.IsPrintable c) ∧ ∃ c ∈ s.toList, Text.isBlank c = false

-- Instances are given, as others would try every character there is.
instance (s : String) : Decidable (IsIdentity s) :=
  @instDecidableAnd _ _ (List.decidableBAll _ _) (List.decidableBEx _ _)

variable {q : Web.Request} {deadline : Span} {v : World}

theorem header?_withIdentity (q : Web.Request) (identity : Bytes) (name : String) :
    (withIdentity q identity).header? name =
      if name = "x-user-uuid" then some identity else q.header? name := by
  have lower : Web.lowered "x-user-uuid" = "x-user-uuid" := by decide +kernel
  by_cases same : name = "x-user-uuid"
  · simp [withIdentity, Web.Request.header?, lower, same]
  · simp [withIdentity, Web.Request.header?, lower, same, Ne.symm same]

theorem body_withIdentity {α : Type} (codec : Json.Codec α) (q : Web.Request) (identity : Bytes) :
    body codec (withIdentity q identity) = body codec q := by
  have kind : (withIdentity q identity).header? "content-type" = q.header? "content-type" := by
    rw [header?_withIdentity, if_neg (by decide)]
  rw [body, kind, body]
  rfl

/-- The user of an order is the identity without the blanks around it. -/
theorem user?_withIdentity (q : Web.Request) (s : String) :
    user? (withIdentity q (Text.bytes s)) =
      if IsIdentity s then .ok ⟨Text.trimmed s⟩ else .error unauthorized := by
  rw [user?, header?_withIdentity, if_pos rfl, Option.bind_some, Text.visible?_bytes]
  by_cases printable : ∀ c ∈ s.toList, Text.IsPrintable c
  · have empty : (Text.trimmed s).isEmpty = true ↔ ∀ c ∈ s.toList, Text.isBlank c = true := by
      refine Iff.trans ?_ Text.trim_eq_nil_iff
      simp [Text.trimmed]
    rw [if_pos printable]
    by_cases blank : ∀ c ∈ s.toList, Text.isBlank c = true
    · have none : ¬ IsIdentity s := by
        rintro ⟨-, c, mem, other⟩
        rw [blank c mem] at other
        cases other
      simp only [Option.map_some, empty.mpr blank, if_true, if_neg none]
    · have some : IsIdentity s := by
        refine ⟨printable, ?_⟩
        push Not at blank
        simpa using blank
      simp only [Option.map_some, mt empty.mp blank, if_pos some, Bool.false_eq_true, if_false]
  · have none : ¬ IsIdentity s := fun identity => printable identity.1
    rw [if_neg printable, if_neg none]
    rfl

/-- A request whose order would be taken under some identity. -/
def Acceptable (deadline : Span) (v : World) (q : Web.Request) : Prop :=
  ∃ identity r, (exchange deadline v (withIdentity q identity)).outcome = .ok r ∧ r.status = 201

/-- A request on the orders is answered by the taking of an order, with one header more. -/
theorem exchange_orders (deadline : Span) (v : World) (post : q.method = "POST")
    (route : Route.ofTarget? q.target = some .orders) :
    (exchange deadline v q).outcome = (v.finish (create ⟨.direct, deadline⟩ q)).2.map
        (fun r => { r with headers := anyOrigin :: r.headers }) ∧
      (exchange deadline v q).after = (v.finish (create ⟨.direct, deadline⟩ q)).1 := by
  have noHead : ¬ q.method = "HEAD" := by
    rw [post]
    decide
  have noOptions : ¬ q.method = "OPTIONS" := by
    rw [post]
    decide
  have accepted : Route.accepts .orders q.method = true := by
    rw [post]
    decide
  simp only [exchange, serve, if_neg noOptions, routed, route, accepted, if_true, finish_map,
    if_neg noHead, handle, Job.bind_done, and_self]

/-- What makes an order acceptable has nothing to do with its user. -/
theorem Acceptable.cases (h : Acceptable deadline v q) :
    q.method = "POST" ∧ Route.ofTarget? q.target = some .orders ∧
      ∃ new user method o, body NewOrder.codec q = .ok new ∧
        new.method.mapM readMethod = .ok method ∧
        (v.finish (Fulfilment.create .direct deadline user (new.parts.map PartId.mk)
          method)).2 = .ok (.ok o) := by
  obtain ⟨identity, r, told, status⟩ := h
  have serves := serve_serves v deadline (withIdentity q identity)
  have same : (v.finish (serve ⟨.direct, deadline⟩ (withIdentity q identity))).2 = .ok r := told
  rw [same] at serves
  obtain ⟨post, route, -⟩ := serves.of_created status
  refine ⟨post, route, ?_⟩
  rw [(exchange_orders (q := withIdentity q identity) deadline v post route).1] at told
  rcases create_cases ⟨.direct, deadline⟩ (withIdentity q identity) with
    ⟨x, refused, refuses⟩ | ⟨new, user, method, shape, user', way⟩
  · rw [refused] at told
    obtain rfl := Except.ok.inj told
    have ok : x.status = 201 := status
    exact absurd ⟨by omega, by omega⟩ refuses
  · rw [create_eq shape user' way, finish_map] at told
    rw [body_withIdentity] at shape
    cases outcome : (v.finish (Fulfilment.create .direct deadline user (new.parts.map PartId.mk)
        method)).2 with
    | error f =>
      rw [outcome] at told
      cases told
    | ok x =>
      cases x with
      | error e =>
        rw [outcome] at told
        obtain rfl := Except.ok.inj told
        have ok : (Error.order e).respond.status = 201 := status
        exact absurd ⟨by omega, by omega⟩ (refuses_order e)
      | ok o => exact ⟨new, user, method, o, shape, way, outcome⟩

/-- An acceptable order is taken for whoever has an identity. -/
theorem Acceptable.taken (h : Acceptable deadline v q) {u : String} (identity : IsIdentity u) :
    ∃ r, (exchange deadline v (withIdentity q (Text.bytes u))).outcome = .ok r ∧
      r.status = 201 := by
  obtain ⟨post, route, new, user, method, o, shape, way, taken⟩ := h.cases
  have shape' : body NewOrder.codec (withIdentity q (Text.bytes u)) = .ok new := by
    rw [body_withIdentity, shape]
  have user' : user? (withIdentity q (Text.bytes u)) = .ok ⟨Text.trimmed u⟩ := by
    rw [user?_withIdentity, if_pos identity]
  have taken' := Fulfilment.create_any_user taken ⟨Text.trimmed u⟩
  rw [(exchange_orders (q := withIdentity q (Text.bytes u)) deadline v post route).1,
    create_eq shape' user' way, finish_map, taken']
  exact ⟨_, rfl, rfl⟩

/-- Without an identity it is refused. -/
theorem Acceptable.refused (h : Acceptable deadline v q) {u : String} (none : ¬ IsIdentity u) :
    (∃ r, (exchange deadline v (withIdentity q (Text.bytes u))).outcome = .ok r ∧
        r.status = 401) ∧
      (exchange deadline v (withIdentity q (Text.bytes u))).after = v := by
  obtain ⟨post, route, new, user, method, o, shape, way, taken⟩ := h.cases
  have refused : create ⟨.direct, deadline⟩ (withIdentity q (Text.bytes u)) =
      .done unauthorized.respond := by
    simp only [create, body_withIdentity, shape, user?_withIdentity, if_neg none, refusing_error,
      bind, Except.bind, orRefuse]
  have same := exchange_orders (q := withIdentity q (Text.bytes u)) deadline v post route
  rw [same.1, same.2, refused]
  exact ⟨⟨_, rfl, rfl⟩, rfl⟩

end Api

namespace Gateway

/-- A request of a session was let through, with these headers to be handed on. -/
structure LetsThrough (w : World) (r : Web.Request) (s : Session)
    (headers : List (String × String)) : Prop where
  presents : Presents w r.headers s
  told : ∃ response, (w.finish (serve r)).2 = .ok response ∧ response.status = 200 ∧
    response.headers = headers

theorem LetsThrough.user {w : World} {r : Web.Request} {s : Session}
    {headers : List (String × String)} (h : LetsThrough w r s headers) :
    headers.lookup "x-user-uuid" = some s.user.text := by
  obtain ⟨presents, response, told, passed, rfl⟩ := h
  rw [finish_serve, answer_of_presents presents] at told
  split at told
  · obtain rfl := Except.ok.inj told
    rfl
  · obtain rfl := Except.ok.inj told
    cases passed

theorem letsThrough_passage {w : World} {r : Web.Request} {s : Session}
    (presents : Presents w r.headers s)
    (legal : (isHeaderValue s.user.text && isHeaderValue s.login) = true) :
    LetsThrough w r s (passage s).headers := by
  refine ⟨presents, passage s, ?_, rfl, rfl⟩
  rw [finish_serve, answer_of_presents presents, if_pos legal]

theorem presents_of_found {w : World} {headers : List (String × Bytes)} {s : Session}
    (token : String) (named : (cookies? headers).bind sessionToken? = some token)
    (found : w.sessions.table.find? token = some s) (up : w.sessions.down = false)
    (live : w.today.before s.expiresAt = true) : Presents w headers s := by
  obtain ⟨cookies, sent, read⟩ := Option.bind_eq_some_iff.mp named
  exact ⟨⟨cookies, token, sent, read, found⟩, up, live⟩

end Gateway

namespace Api

open Gateway (LetsThrough)

/-- An order that was taken under the identity that a session was given by the gateway. -/
def TakenFor (s : Session) (o : Order) : Prop :=
  ∃ w r headers u deadline v q response, LetsThrough w r s headers ∧
    headers.lookup "x-user-uuid" = some u ∧
    (exchange deadline v (withIdentity q (Text.bytes u))).outcome = .ok response ∧
    response.status = 201 ∧
    v.Takes o (exchange deadline v (withIdentity q (Text.bytes u))).after

theorem TakenFor.user {s : Session} {o : Order} (h : TakenFor s o) :
    o.user = ⟨Text.trimmed s.user.text⟩ := by
  obtain ⟨w, r, headers, u, deadline, v, q, response, passed, given, told, status, takes⟩ := h
  obtain rfl : u = s.user.text := Option.some.inj (given.symm.trans passed.user)
  obtain ⟨-, o', user, takes', -⟩ :=
    (exchange_isAtomic deadline v (withIdentity q (Text.bytes s.user.text))).created response told
      status
  obtain rfl := takes.unique takes'
  have same : user? (withIdentity q (Text.bytes s.user.text)) = .ok o.user := user
  rw [user?_withIdentity] at same
  split at same
  · exact (Except.ok.inj same).symm
  · cases same

/-- What the gateway tells of the user of a session is the user of the orders that are taken with
it, but for blanks around it, if it is printable ASCII and not all blank; no order is taken with
anything else that the gateway lets through. -/
theorem identity_crosses {w : World} {r : Web.Request} {s : Session}
    {headers : List (String × String)} (passed : LetsThrough w r s headers) {u : String}
    (given : headers.lookup "x-user-uuid" = some u) {deadline : Span} {v : World}
    {q : Web.Request} (acceptable : Acceptable deadline v q) :
    let x := exchange deadline v (withIdentity q (Text.bytes u))
    u = s.user.text ∧
      (IsIdentity u → ∃ response o, x.outcome = .ok response ∧ response.status = 201 ∧
        response.body = (created o).body ∧ v.Takes o x.after ∧ o.user = ⟨Text.trimmed u⟩ ∧
        (Text.IsUnpadded u → o.user = s.user)) ∧
      (¬ IsIdentity u → (∃ response, x.outcome = .ok response ∧ response.status = 401) ∧
        x.after = v) ∧
      ∀ s' o o', TakenFor s o → TakenFor s' o' → o.user = o'.user →
        Text.trimmed s.user.text = Text.trimmed s'.user.text := by
  intro x
  obtain rfl : u = s.user.text := Option.some.inj (given.symm.trans passed.user)
  refine ⟨rfl, fun identity => ?_, fun none => acceptable.refused none, ?_⟩
  · obtain ⟨response, told, status⟩ := acceptable.taken identity
    obtain ⟨-, o, -, takes, shows⟩ := (exchange_isAtomic deadline v _).created response told status
    have user := TakenFor.user
      ⟨w, r, headers, s.user.text, deadline, v, q, response, passed, given, told, status, takes⟩
    refine ⟨response, o, told, status, shows, takes, user, fun unpadded => ?_⟩
    rw [user, Text.trimmed_of_unpadded unpadded]
  · intro s' o o' taken taken' same
    rw [taken.user, taken'.user] at same
    exact congrArg UserId.text same

open Gateway (lodge alice asking passage letsThrough_passage presents_of_found)

theorem acceptable_boltOrder : Acceptable (.ofSeconds 5) shop boltOrder :=
  ⟨Text.bytes "u", Exchange.answered (by decide +kernel)⟩

theorem identity_crosses_for_alice :
    ∃ o, (exchange (.ofSeconds 5) shop (withIdentity boltOrder (Text.bytes "u1"))).before.Takes o
        (exchange (.ofSeconds 5) shop (withIdentity boltOrder (Text.bytes "u1"))).after ∧
      o.user = ⟨"u1"⟩ := by
  have presents : Gateway.Presents lodge (asking "\"a%20b\"").headers alice :=
    presents_of_found "a b" (by decide +kernel) (by decide +kernel) rfl rfl
  have passed : LetsThrough lodge (asking "\"a%20b\"") alice (passage alice).headers :=
    letsThrough_passage presents (by decide +kernel)
  obtain ⟨-, taken, -⟩ := identity_crosses passed (u := "u1") rfl acceptable_boltOrder
  obtain ⟨response, o, -, -, -, takes, -, own⟩ := taken (by decide +kernel)
  exact ⟨o, takes, own (by decide +kernel)⟩

/-- A user outside ASCII. -/
def dana : Session := ⟨⟨"\u00fc"⟩, "dana", ⟨1, 0, 0⟩⟩

/-- A user that is another one but for a blank. -/
def eve : Session := ⟨⟨" u1"⟩, "eve", ⟨1, 0, 0⟩⟩

def hostel : World :=
  { World.empty 1 false ⟨0, 0, 0⟩ with
    sessions := (Sessions.empty.put "dana" dana).put "eve" eve }

/-- Of two users that the gateway lets through one gets no order, and the other one gets an order
of somebody else. -/
theorem identity_lost :
    (LetsThrough hostel (asking "dana") dana (passage dana).headers ∧
      (exchange (.ofSeconds 5) shop
        (withIdentity boltOrder (Text.bytes dana.user.text))).outcome.map Web.Response.status =
        .ok 401) ∧
      LetsThrough hostel (asking "eve") eve (passage eve).headers ∧
      (exchange (.ofSeconds 5) shop
        (withIdentity boltOrder (Text.bytes eve.user.text))).after.store.orders.values.map
          Order.user = [alice.user] ∧
      eve.user ≠ alice.user := by
  have dana_passes : LetsThrough hostel (asking "dana") dana (passage dana).headers :=
    letsThrough_passage
      (presents_of_found "dana" (by decide +kernel) (by decide +kernel) rfl rfl)
      (by decide +kernel)
  have eve_passes : LetsThrough hostel (asking "eve") eve (passage eve).headers :=
    letsThrough_passage
      (presents_of_found "eve" (by decide +kernel) (by decide +kernel) rfl rfl)
      (by decide +kernel)
  refine ⟨⟨dana_passes, by decide +kernel⟩, eve_passes, by decide +kernel, by decide⟩

end Api
end Shipyard

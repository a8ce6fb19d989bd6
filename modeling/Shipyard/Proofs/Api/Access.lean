import Shipyard.Proofs.Api.Requests
import Shipyard.Proofs.Text.Escapes

/-!
# Requests without an identity

A request about orders that names no user is refused, and nothing happens. It is told that its
identity is missing if its path can be read and its body, where there is to be one, is announced as
JSON, not too long and of the right shape; what is wrong with these is told first, to anyone
(`Answers`). What the path names, and how an order is to be paid, is never looked at.
-/

namespace Shipyard.Api

variable {q : Web.Request} {c : Config}

/-- No identity comes with a request: the header is missing, or is not visible throughout, or there
is nothing in it but blanks. -/
def Unidentified (q : Web.Request) : Prop :=
  ∀ value s, q.header? "x-user-uuid" = some value → Web.visible? value = some s →
    (Text.trimmed s).isEmpty = true

theorem user?_of_unidentified (none : Unidentified q) : user? q = .error unauthorized := by
  unfold user?
  cases header : q.header? "x-user-uuid" with
  | none => rfl
  | some value =>
    rw [Option.bind_some]
    cases visible : Web.visible? value with
    | none => rfl
    | some s =>
      have blank : (Text.trimmed s).isEmpty = true := none value s header visible
      simp only [Option.map_some, blank, if_true]

namespace Route

/-- Whether the route is one of those for orders. -/
def isForOrders : Route → Bool
  | .health => false
  | .samples => false
  | _ => true

/-- The identifier that stands in the path. -/
def segment? : Route → Option Bytes
  | .order id => some id
  | .pay id => some id
  | .cancel id => some id
  | _ => none

/-- The method with which a route is asked. -/
def verb (r : Route) : String := if r.isRead then "GET" else "POST"

theorem accepts_verb (r : Route) : r.accepts r.verb = true := by
  cases read : r.isRead with
  | true => simp [accepts, verb, read]
  | false => simp [accepts, verb, read]

theorem verb_ne (r : Route) : r.verb ≠ "HEAD" ∧ r.verb ≠ "OPTIONS" := by
  cases read : r.isRead with
  | true => simp [verb, read]
  | false => simp [verb, read]

end Route

/-! ## Answers -/

/-- A refusal in plain words, as all origins may read it. -/
def refusal (status : Nat) (words : String) : Web.Response :=
  ⟨status, [("access-control-allow-origin", "*"), ("content-type", "text/plain; charset=utf-8")],
    Text.bytes words⟩

/-- The one response to a request that lacks nothing but an identity. -/
def missingIdentity : Web.Response :=
  ⟨401, [("access-control-allow-origin", "*"), ("content-type", "application/json")],
    Text.bytes "\x7b\"error\":\"Missing user identity\"\x7d"⟩

/-- The body is said to be JSON. -/
def AnnouncesJson (q : Web.Request) : Prop :=
  ∃ value kind, q.header? "content-type" = some value ∧ Web.visible? value = some kind ∧
    Web.Mime.isJson kind = true

/-- How a request without an identity is answered if it is to have a body. -/
inductive AnswersBody {α : Type} (codec : Json.Codec α) (q : Web.Request) : Web.Response → Prop
  | unannounced (other : ¬ AnnouncesJson q) : AnswersBody codec q
      (refusal 415 "Expected request with `Content-Type: application/json`")
  | long (announced : AnnouncesJson q) (long : 2097152 < q.body.length) : AnswersBody codec q
      (refusal 413 "Failed to buffer the request body: length limit exceeded")
  | malformed (announced : AnnouncesJson q) (short : q.body.length ≤ 2097152)
      (unread : codec.decode q.body = .error .illFormed ∨
        codec.decode q.body = .error .truncated) : AnswersBody codec q
      (refusal 400 "Failed to parse the request body as JSON")
  | unfit {path : List Json.Step} {cause : Json.Misfit} (announced : AnnouncesJson q)
      (short : q.body.length ≤ 2097152)
      (unread : codec.decode q.body = .error (.unfit path cause)) : AnswersBody codec q
      (refusal 422 (unfitText path cause))
  /-- Nothing but the identity is missing. -/
  | fits {x : α} (announced : AnnouncesJson q) (short : q.body.length ≤ 2097152)
      (read : codec.decode q.body = .ok x) : AnswersBody codec q missingIdentity

/-- How a request without an identity is answered by a route for orders. -/
inductive Answers (q : Web.Request) : Route → Web.Response → Prop
  /-- The identifier in the path is no text. -/
  | unreadable {route : Route} {segment : Bytes} (names : route.segment? = some segment)
      (noText : ∀ s, segment ≠ Text.bytes s) :
      Answers q route (refusal 400 "Invalid URL: Invalid UTF-8 in `id`")
  | create {r : Web.Response} (body : AnswersBody NewOrder.codec q r) : Answers q .orders r
  | pay {segment : Bytes} {s : String} {r : Web.Response} (text : segment = Text.bytes s)
      (body : AnswersBody NewPayment.codec q r) : Answers q (.pay segment) r
  | cancel {segment : Bytes} {s : String} (text : segment = Text.bytes s) :
      Answers q (.cancel segment) missingIdentity
  | find {segment : Bytes} {s : String} (text : segment = Text.bytes s) :
      Answers q (.order segment) missingIdentity

/-- A response as it leaves the service, for all origins. -/
def released (r : Web.Response) : Web.Response := { r with headers := anyOrigin :: r.headers }

theorem Answers.released {route : Route} (h : Answers q route missingIdentity) :
    Answers q route (Api.released unauthorized.respond) := by
  have same : Api.released unauthorized.respond = missingIdentity := by decide +kernel
  rwa [same]

/-- A body is read, or is refused with the answer that goes with what is wrong with it. -/
theorem body_answers {α : Type} (codec : Json.Codec α) (q : Web.Request) :
    (∃ x, body codec q = .ok x ∧ AnswersBody codec q missingIdentity) ∨
      ∃ r, body codec q = .error r ∧ AnswersBody codec q (released r) := by
  rw [body]
  split
  · next none =>
    refine .inr ⟨_, rfl, .unannounced ?_⟩
    rintro ⟨value, kind, header, visible, -⟩
    rw [header, Option.bind_some, visible] at none
    cases none
  · next kind got =>
    obtain ⟨value, header, visible⟩ := Option.bind_eq_some_iff.mp got
    split
    · next json =>
      have announced : AnnouncesJson q := ⟨value, kind, header, visible, json⟩
      split
      · next long => exact .inr ⟨_, rfl, .long announced long⟩
      · next within =>
        have short : q.body.length ≤ 2097152 := Nat.not_lt.mp within
        split
        · next x read => exact .inl ⟨x, rfl, .fits announced short read⟩
        · next path cause unread => exact .inr ⟨_, rfl, .unfit announced short unread⟩
        · next fault other unread =>
          refine .inr ⟨_, rfl, .malformed announced short ?_⟩
          cases fault with
          | illFormed => exact .inl unread
          | truncated => exact .inr unread
          | unfit path cause => exact absurd rfl (other path cause)
    · next other =>
      refine .inr ⟨_, rfl, .unannounced ?_⟩
      rintro ⟨value', kind', header', visible', json⟩
      obtain rfl : value = value' := Option.some.inj (header.symm.trans header')
      obtain rfl : kind = kind' := Option.some.inj (visible.symm.trans visible')
      exact other json

/-- The identifier in a path is a text, or is refused. -/
theorem pathText_answers (q : Web.Request) {route : Route} {segment : Bytes}
    (names : route.segment? = some segment) :
    (∃ s, pathText segment = .ok s ∧ segment = Text.bytes s) ∨
      ∃ r, pathText segment = .error r ∧ Answers q route (released r) := by
  rw [pathText]
  split
  · next s read => exact .inl ⟨s, rfl, Text.ofBytes?_eq_some_iff.mp read⟩
  · next unread =>
    refine .inr ⟨_, rfl, .unreadable names ?_⟩
    rintro s rfl
    rw [Text.ofBytes?_bytes] at unread
    cases unread

/-- A request without an identity is answered at once. -/
theorem handle_unidentified (none : Unidentified q) {route : Route}
    (orders : route.isForOrders = true) :
    ∃ r, Answers q route (released r) ∧ ∀ c, handle c q route = .done r := by
  have identity : user? q = .error unauthorized := user?_of_unidentified none
  cases route with
  | health => cases orders
  | samples => cases orders
  | orders =>
    rcases body_answers NewOrder.codec q with ⟨new, shape, answers⟩ | ⟨r, shape, answers⟩
    · refine ⟨_, (Answers.create answers).released, fun c => ?_⟩
      rw [handle, Api.create, shape, identity]
      rfl
    · refine ⟨r, .create answers, fun c => ?_⟩
      rw [handle, Api.create, shape]
      rfl
  | order segment =>
    have names : (Route.order segment).segment? = some segment := rfl
    rcases pathText_answers q names with ⟨s, path, text⟩ | ⟨r, path, answers⟩
    · refine ⟨_, (Answers.find text).released, fun c => ?_⟩
      rw [handle, Api.find, path, identity]
      rfl
    · refine ⟨r, answers, fun c => ?_⟩
      rw [handle, Api.find, path]
      rfl
  | cancel segment =>
    have names : (Route.cancel segment).segment? = some segment := rfl
    rcases pathText_answers q names with ⟨s, path, text⟩ | ⟨r, path, answers⟩
    · refine ⟨_, (Answers.cancel text).released, fun c => ?_⟩
      rw [handle, Api.cancel, path, identity]
      rfl
    · refine ⟨r, answers, fun c => ?_⟩
      rw [handle, Api.cancel, path]
      rfl
  | pay segment =>
    have names : (Route.pay segment).segment? = some segment := rfl
    rcases pathText_answers q names with ⟨s, path, text⟩ | ⟨r, path, answers⟩
    · rcases body_answers NewPayment.codec q with ⟨new, shape, answers⟩ | ⟨r, shape, answers⟩
      · refine ⟨_, (Answers.pay text answers).released, fun c => ?_⟩
        rw [handle, Api.pay, path, shape, identity]
        rfl
      · refine ⟨r, .pay text answers, fun c => ?_⟩
        rw [handle, Api.pay, path, shape]
        rfl
    · refine ⟨r, answers, fun c => ?_⟩
      rw [handle, Api.pay, path]
      rfl

/-- Whoever asks about orders without an identity changes nothing. If the path can be read and the
body, where there is to be one, is announced as JSON, not too long and of the right shape, then the
response is one and the same, whatever these name and whatever is stored; else it tells what is
wrong with the path or the body. -/
theorem unidentified_refused (none : Unidentified q) {route : Route}
    (found : Route.ofTarget? q.target = some route) (orders : route.isForOrders = true)
    (asked : q.method = route.verb) :
    ∃ r, Answers q route r ∧ ∀ (c : Config) (w : World), w.finish (serve c q) = (w, .ok r) := by
  obtain ⟨notHead, notOptions⟩ := route.verb_ne
  rw [← asked] at notHead notOptions
  have accepted : route.accepts q.method = true := by
    rw [asked]
    exact route.accepts_verb
  obtain ⟨r, answers, handled⟩ := handle_unidentified none orders
  refine ⟨released r, answers, fun c w => ?_⟩
  have answer : routed c q = .done r := by
    rw [routed, found]
    simp only [accepted, if_true, handled, Job.bind, notHead, if_false]
  rw [serve, if_neg notOptions, answer]
  rfl

/-- A request with nothing but a target. -/
def anonymous (target : String) : Web.Request := ⟨"POST", target, [], []⟩

theorem unidentified_anonymous (target : String) : Unidentified (anonymous target) := by
  intro value s present
  cases present

/-- Nobody learns without an identity that there is no such order. -/
theorem unidentified_refused_cancellation :
    Unidentified (anonymous "/orders/none/cancel") ∧
      shop.finish (serve ⟨.direct, .ofSeconds 5⟩ (anonymous "/orders/none/cancel")) =
        (shop, .ok missingIdentity) := by
  have found : Route.ofTarget? "/orders/none/cancel" = some (.cancel (Text.bytes "none")) := by
    decide +kernel
  obtain ⟨r, answers, answered⟩ := unidentified_refused (unidentified_anonymous _) found rfl rfl
  refine ⟨unidentified_anonymous _, ?_⟩
  rw [answered]
  cases answers with
  | unreadable names noText =>
    cases names
    exact absurd rfl (noText "none")
  | cancel => rfl

/-- What is wrong with a body is told although there is no identity. -/
theorem body_judged_first :
    let x := exchange (.ofSeconds 5) shop (anonymous "/orders")
    Unidentified x.request ∧ Route.ofTarget? x.request.target = some .orders ∧
      x.request.method = Route.verb .orders ∧
      x.outcome.map Web.Response.status = .ok 415 := by
  refine ⟨unidentified_anonymous _, by decide +kernel, rfl, by decide +kernel⟩

end Shipyard.Api

import Shipyard.Api
import Shipyard.Proofs.Fulfilment.Alone

/-!
# Requests one at a time

What one request to the order API makes of the world, by what it is told, when requests are
handled one after another and any switch is thrown in between.
-/

namespace Shipyard.Api

open World

variable {w v : World} {q : Web.Request} {c : Config} {deadline : Span}

theorem finish_map {α β : Type} (w : World) (j : Job α) (f : α → β) :
    w.finish (j.bind fun x => .done (f x)) = ((w.finish j).1, (w.finish j).2.map f) := by
  rw [finish_bind]
  cases w.finish j with
  | mk v x => cases x <;> rfl

@[simp] theorem refusing_ok {α : Type} (x : α) : refusing (.ok x) = .ok x := rfl

@[simp] theorem refusing_error {α : Type} (e : Error) :
    refusing (.error e : Except Error α) = .error e.respond := rfl

/-- A response that reports a success. -/
def Succeeds (r : Web.Response) : Prop := 200 ≤ r.status ∧ r.status < 300

/-! ## Refusals -/

theorem refuses_order (e : Fulfilment.Error) : ¬ Succeeds (Error.order e).respond := by
  show ¬ (200 ≤ orderStatus e ∧ orderStatus e < 300)
  cases e with
  | store e => cases e <;> simp [orderStatus, storeStatus]
  | _ => simp [orderStatus]

theorem refuses_client {e : Error} (client : e.status = 400 ∨ e.status = 401) :
    ¬ Succeeds e.respond := by
  have status : e.respond.status = e.status := rfl
  rcases client with same | same <;> simp [Succeeds, status, same]

theorem user?_error {e : Error} (h : user? q = .error e) : e.status = 400 ∨ e.status = 401 := by
  unfold user? at h
  split at h
  · split at h
    · cases h
      exact .inr rfl
    · cases h
  · cases h
    exact .inr rfl

theorem readId_error {s : String} {e : Error} (h : readId s = .error e) :
    e.status = 400 ∨ e.status = 401 := by
  unfold readId at h
  split at h
  · cases h
  · cases h
    exact .inl rfl

theorem readMethod_error {s : String} {e : Error} (h : readMethod s = .error e) :
    e.status = 400 ∨ e.status = 401 := by
  unfold readMethod at h
  split at h
  · cases h
  · cases h
    exact .inl rfl

theorem mapM_readMethod_error {x : Option String} {e : Error}
    (h : x.mapM readMethod = .error e) : e.status = 400 ∨ e.status = 401 := by
  cases x with
  | none => cases h
  | some s =>
    cases read : readMethod s with
    | error e' =>
      rw [Option.mapM_some, read] at h
      obtain rfl : e' = e := Except.error.inj h
      exact readMethod_error read
    | ok m =>
      rw [Option.mapM_some, read] at h
      cases h

theorem body_error {α : Type} {codec : Json.Codec α} {r : Web.Response}
    (h : body codec q = .error r) : ¬ Succeeds r := by
  unfold body at h
  split at h
  · cases h
    simp [Succeeds, plain]
  · split at h
    · split at h
      · cases h
        simp [Succeeds, plain]
      · split at h
        · cases h
        · cases h
          simp [Succeeds, plain]
        · cases h
          simp [Succeeds, plain]
    · cases h
      simp [Succeeds, plain]

theorem pathText_ok {segment : Bytes} {s : String} (h : pathText segment = .ok s) :
    Text.ofBytes? segment = some s := by
  unfold pathText at h
  split at h
  · next read => rw [read, Except.ok.inj h]
  · cases h

theorem readId_ok {s : String} {id : OrderId} (h : readId s = .ok id) :
    OrderId.parse s = .ok id := by
  unfold readId at h
  split at h
  · next read => rw [read, Except.ok.inj h]
  · cases h

theorem pathText_error {segment : Bytes} {r : Web.Response} (h : pathText segment = .error r) :
    ¬ Succeeds r := by
  unfold pathText at h
  split at h
  · cases h
  · cases h
    simp [Succeeds, plain]

/-! ## One request -/

/-- What a request makes of a world, by its outcome. -/
inductive Serves (w : World) (q : Web.Request) (v : World) : Except Fault Web.Response → Prop
  | refused (r : Web.Response) (refuses : ¬ Succeeds r) (rests : w.Rests v) : Serves w q v (.ok r)
  /-- An order was charged, and could then not be marked as paid. -/
  | unmarked (r : Web.Response) (status : r.status = 500) (segment : Bytes)
      (route : Route.ofTarget? q.target = some (.pay segment)) (down : w.store.writesDown = true)
      (x : Charge) (charges : w.Charges x v) : Serves w q v (.ok r)
  | told (r : Web.Response) (status : r.status = 200) (reads : q.method ≠ "POST") :
      Serves w q v (.ok r)
  | created (r : Web.Response) (status : r.status = 201) (post : q.method = "POST")
      (route : Route.ofTarget? q.target = some .orders) (o : Order)
      (body : r.body = (created o).body) (user : user? q = .ok o.user) (takes : w.Takes o v) :
      Serves w q v (.ok r)
  | paid (r : Web.Response) (status : r.status = 200) (post : q.method = "POST")
      (segment : Bytes) (text : String) (id : OrderId) (t : TransactionId) (m : PaymentMethod)
      (body : r.body = (paid t).body) (route : Route.ofTarget? q.target = some (.pay segment))
      (named : Text.ofBytes? segment = some text ∧ OrderId.parse text = .ok id)
      (pays : w.Pays id t m v) : Serves w q v (.ok r)
  | cancelled (r : Web.Response) (status : r.status = 204) (post : q.method = "POST")
      (segment : Bytes) (text : String) (id : OrderId)
      (route : Route.ofTarget? q.target = some (.cancel segment))
      (named : Text.ofBytes? segment = some text ∧ OrderId.parse text = .ok id)
      (cancels : w.Cancels id v) : Serves w q v (.ok r)
  /-- The prices of the parts have no sum. -/
  | overflowed (rests : w.Rests v) : Serves w q v (.error .addition)
  /-- The total of a new order has no text. -/
  | unsaid (o : Order) (takes : w.Takes o v) (least : o.total.cents = -0x8000000000000000) :
      Serves w q v (.error .negation)
  /-- The amount of a charge has no text. -/
  | unsaidCharge (x : Charge) (charges : w.Charges x v)
      (least : x.amount.cents = -0x8000000000000000) : Serves w q v (.error .negation)

/-- Headers do not matter, and bodies only where something was asked to be done. -/
theorem Serves.map {x : Except Fault Web.Response} (h : Serves w q v x)
    (f : Web.Response → Web.Response) (status : ∀ r, (f r).status = r.status)
    (body : q.method = "POST" → ∀ r, (f r).body = r.body) : Serves w q v (x.map f) := by
  cases h with
  | refused r refuses rests =>
    refine .refused (f r) ?_ rests
    rwa [Succeeds, status]
  | unmarked r failed segment route down x charges =>
    exact .unmarked (f r) ((status r).trans failed) segment route down x charges
  | told r ok reads => exact .told (f r) ((status r).trans ok) reads
  | created r ok post route o shows user takes =>
    exact .created (f r) ((status r).trans ok) post route o ((body post r).trans shows) user takes
  | paid r ok post segment text id t m shows route named pays =>
    exact .paid (f r) ((status r).trans ok) post segment text id t m ((body post r).trans shows)
      route named pays
  | cancelled r ok post segment text id route named cancels =>
    exact .cancelled (f r) ((status r).trans ok) post segment text id route named cancels
  | overflowed rests => exact .overflowed rests
  | unsaid o takes least => exact .unsaid o takes least
  | unsaidCharge x charges least => exact .unsaidCharge x charges least

namespace Serves

variable {r : Web.Response}

theorem of_refused (h : Serves w q v (.ok r)) (refuses : ¬ Succeeds r) : w.Rests v ∨
    r.status = 500 ∧ w.store.writesDown = true ∧
      ∃ segment c, Route.ofTarget? q.target = some (.pay segment) ∧ w.Charges c v := by
  cases h with
  | refused _ _ rests => exact .inl rests
  | unmarked _ status segment route down c charges =>
    exact .inr ⟨status, down, segment, c, route, charges⟩
  | told _ status => exact absurd ⟨by omega, by omega⟩ refuses
  | created _ status => exact absurd ⟨by omega, by omega⟩ refuses
  | paid _ status => exact absurd ⟨by omega, by omega⟩ refuses
  | cancelled _ status => exact absurd ⟨by omega, by omega⟩ refuses

theorem of_fault {f : Fault} (h : Serves w q v (.error f)) :
    f = .addition ∧ w.Rests v ∨ f = .negation ∧
      ((∃ o, w.Takes o v ∧ o.total.cents = -0x8000000000000000) ∨
        ∃ c, w.Charges c v ∧ c.amount.cents = -0x8000000000000000) := by
  cases h with
  | overflowed rests => exact .inl ⟨rfl, rests⟩
  | unsaid o takes least => exact .inr ⟨rfl, .inl ⟨o, takes, least⟩⟩
  | unsaidCharge c charges least => exact .inr ⟨rfl, .inr ⟨c, charges, least⟩⟩

theorem of_created (h : Serves w q v (.ok r)) (status : r.status = 201) :
    q.method = "POST" ∧ Route.ofTarget? q.target = some .orders ∧
      ∃ o, user? q = .ok o.user ∧ w.Takes o v ∧ r.body = (Api.created o).body := by
  cases h with
  | refused _ refuses => exact absurd ⟨by omega, by omega⟩ refuses
  | created _ _ post route o body user takes => exact ⟨post, route, o, user, takes, body⟩
  | unmarked _ other => omega
  | told _ other => omega
  | paid _ other => omega
  | cancelled _ other => omega

theorem of_paid (h : Serves w q v (.ok r)) (status : r.status = 200) (post : q.method = "POST") :
    ∃ segment text id t m, Route.ofTarget? q.target = some (.pay segment) ∧
      Text.ofBytes? segment = some text ∧ OrderId.parse text = .ok id ∧
      w.Pays id t m v ∧ r.body = (Api.paid t).body := by
  cases h with
  | refused _ refuses => exact absurd ⟨by omega, by omega⟩ refuses
  | told _ _ reads => exact absurd post reads
  | paid _ _ _ segment text id t m body route named pays =>
    exact ⟨segment, text, id, t, m, route, named.1, named.2, pays, body⟩
  | unmarked _ other => omega
  | created _ other => omega
  | cancelled _ other => omega

theorem of_cancelled (h : Serves w q v (.ok r)) (status : r.status = 204) :
    ∃ segment text id, Route.ofTarget? q.target = some (.cancel segment) ∧
      Text.ofBytes? segment = some text ∧ OrderId.parse text = .ok id ∧ w.Cancels id v := by
  cases h with
  | refused _ refuses => exact absurd ⟨by omega, by omega⟩ refuses
  | cancelled _ _ _ segment text id route named cancels =>
    exact ⟨segment, text, id, route, named.1, named.2, cancels⟩
  | unmarked _ other => omega
  | told _ other => omega
  | created _ other => omega
  | paid _ other => omega

end Serves

/-- A request to take an order that has a user, a list of parts and a way to pay. -/
theorem create_eq {new : NewOrder} {user : UserId} {method : Option PaymentMethod}
    (shape : body NewOrder.codec q = .ok new) (identity : user? q = .ok user)
    (way : new.method.mapM readMethod = .ok method) :
    create c q = (Fulfilment.create c.calls c.deadline user (new.parts.map PartId.mk) method).bind
      fun result => .done (conclude created result) := by
  simp only [create, shape, identity, way, refusing_ok, bind, Except.bind, orRefuse]

/-- Any other request to take an order is refused before anything happens. -/
theorem create_cases (c : Config) (q : Web.Request) :
    (∃ r, create c q = .done r ∧ ¬ Succeeds r) ∨
      ∃ new user method, body NewOrder.codec q = .ok new ∧ user? q = .ok user ∧
        new.method.mapM readMethod = .ok method := by
  cases shape : body NewOrder.codec q with
  | error r =>
    refine .inl ⟨r, ?_, body_error shape⟩
    simp only [create, shape, bind, Except.bind, orRefuse]
  | ok new =>
    cases identity : user? q with
    | error e =>
      refine .inl ⟨e.respond, ?_, refuses_client (user?_error identity)⟩
      simp only [create, shape, identity, refusing_error, bind, Except.bind, orRefuse]
    | ok user =>
      cases way : new.method.mapM readMethod with
      | error e =>
        refine .inl ⟨e.respond, ?_, refuses_client (mapM_readMethod_error way)⟩
        simp only [create, shape, identity, way, refusing_ok, refusing_error, bind, Except.bind,
          orRefuse]
      | ok method => exact .inr ⟨new, user, method, rfl, rfl, way⟩

theorem create_serves (w : World) (deadline : Span) (post : q.method = "POST")
    (route : Route.ofTarget? q.target = some .orders) :
    Serves w q (w.finish (create ⟨.direct, deadline⟩ q)).1
      (w.finish (create ⟨.direct, deadline⟩ q)).2 := by
  rcases create_cases ⟨.direct, deadline⟩ q with
    ⟨r, refused, refuses⟩ | ⟨new, user, method, shape, identity, way⟩
  · rw [refused]
    exact .refused r refuses (.refl w)
  · rw [create_eq shape identity way, finish_map]
    have outcome := Fulfilment.finish_create w deadline user (new.parts.map PartId.mk) method
    generalize (w.finish (Fulfilment.create .direct deadline user (new.parts.map PartId.mk)
      method)).2 = x at outcome ⊢
    cases outcome with
    | refused e rests => exact .refused _ (refuses_order e) rests
    | overflowed rests => exact .overflowed rests
    | taken o own takes => exact .created _ rfl post route o rfl (own ▸ identity) takes
    | unsaid o takes least => exact .unsaid o takes least

section Named

variable (c : Config) (segment : Bytes) (q : Web.Request)

/-- A request to pay for an order is refused before anything happens, or it names the order and a
way to pay. -/
theorem pay_cases :
    (∃ r, pay c segment q = .done r ∧ ¬ Succeeds r) ∨
      ∃ text id method, (Text.ofBytes? segment = some text ∧ OrderId.parse text = .ok id) ∧
        pay c segment q = (Fulfilment.pay c.calls c.deadline id method).bind
          fun result => .done (conclude paid result) := by
  rw [pay]
  cases path : pathText segment with
  | error r => exact .inl ⟨r, rfl, pathText_error path⟩
  | ok text =>
    cases shape : body NewPayment.codec q with
    | error r => exact .inl ⟨r, rfl, body_error shape⟩
    | ok new =>
      cases identity : user? q with
      | error e => exact .inl ⟨e.respond, rfl, refuses_client (user?_error identity)⟩
      | ok user =>
        cases name : readId text with
        | error e =>
          refine .inl ⟨e.respond, ?_, refuses_client (readId_error name)⟩
          simp only [refusing_ok, refusing_error, bind, Except.bind, name, orRefuse]
        | ok id =>
          cases way : readMethod new.method with
          | error e =>
            refine .inl ⟨e.respond, ?_, refuses_client (readMethod_error way)⟩
            simp only [refusing_ok, refusing_error, bind, Except.bind, name, way, orRefuse]
          | ok method =>
            refine .inr ⟨text, id, method, ⟨pathText_ok path, readId_ok name⟩, ?_⟩
            simp only [refusing_ok, bind, Except.bind, name, way, orRefuse]

/-- A request to cancel an order is refused before anything happens, or it names the order. -/
theorem cancel_cases :
    (∃ r, cancel c segment q = .done r ∧ ¬ Succeeds r) ∨
      ∃ text id, (Text.ofBytes? segment = some text ∧ OrderId.parse text = .ok id) ∧
        cancel c segment q = (Fulfilment.cancel c.calls id).bind
          fun result => .done (conclude (fun _ => .empty 204) result) := by
  rw [cancel]
  cases path : pathText segment with
  | error r => exact .inl ⟨r, rfl, pathText_error path⟩
  | ok text =>
    cases identity : user? q with
    | error e => exact .inl ⟨e.respond, rfl, refuses_client (user?_error identity)⟩
    | ok user =>
      cases name : readId text with
      | error e =>
        refine .inl ⟨e.respond, ?_, refuses_client (readId_error name)⟩
        simp only [refusing_ok, refusing_error, bind, Except.bind, name, orRefuse]
      | ok id =>
        refine .inr ⟨text, id, ⟨pathText_ok path, readId_ok name⟩, ?_⟩
        simp only [refusing_ok, bind, Except.bind, name, orRefuse]

/-- A request to see an order changes nothing; it is refused, or answered. -/
theorem finish_find (w : World) :
    ∃ r, w.finish (find segment q) = (w, .ok r) ∧ (¬ Succeeds r ∨ r.status = 200) := by
  rw [find]
  cases path : pathText segment with
  | error r => exact ⟨r, rfl, .inl (pathText_error path)⟩
  | ok text =>
    cases identity : user? q with
    | error e => exact ⟨e.respond, rfl, .inl (refuses_client (user?_error identity))⟩
    | ok user =>
      cases name : readId text with
      | error e =>
        refine ⟨e.respond, ?_, .inl (refuses_client (readId_error name))⟩
        simp only [refusing_ok, refusing_error, bind, Except.bind, name, orRefuse, finish]
      | ok id =>
        simp only [refusing_ok, bind, Except.bind, name, orRefuse, finish_map,
          Fulfilment.finish_load]
        refine ⟨_, rfl, ?_⟩
        cases w.store.read id with
        | error e => exact .inl (refuses_order _)
        | ok x =>
          cases x with
          | none => exact .inl (refuses_order _)
          | some o => exact .inr rfl

end Named

theorem pay_serves (w : World) (deadline : Span) (post : q.method = "POST") {segment : Bytes}
    (route : Route.ofTarget? q.target = some (.pay segment)) :
    Serves w q (w.finish (pay ⟨.direct, deadline⟩ segment q)).1
      (w.finish (pay ⟨.direct, deadline⟩ segment q)).2 := by
  rcases pay_cases ⟨.direct, deadline⟩ segment q with
    ⟨r, refused, refuses⟩ | ⟨text, id, method, named, asks⟩
  · rw [refused]
    exact .refused r refuses (.refl w)
  · rw [asks, finish_map]
    have outcome := Fulfilment.finish_pay w deadline id method
    generalize (w.finish (Fulfilment.pay .direct deadline id method)).2 = x at outcome ⊢
    cases outcome with
    | refused e rests => exact .refused _ (refuses_order e) rests
    | unmarked o t found down charges => exact .unmarked _ rfl segment route down _ charges
    | unsaid o t found charges least => exact .unsaidCharge _ charges least
    | paid t pays => exact .paid _ rfl post segment text id t method rfl route named pays

theorem cancel_serves (w : World) (deadline : Span) (post : q.method = "POST") {segment : Bytes}
    (route : Route.ofTarget? q.target = some (.cancel segment)) :
    Serves w q (w.finish (cancel ⟨.direct, deadline⟩ segment q)).1
      (w.finish (cancel ⟨.direct, deadline⟩ segment q)).2 := by
  rcases cancel_cases ⟨.direct, deadline⟩ segment q with
    ⟨r, refused, refuses⟩ | ⟨text, id, named, asks⟩
  · rw [refused]
    exact .refused r refuses (.refl w)
  · rw [asks, finish_map]
    have outcome := Fulfilment.finish_cancel w id
    generalize (w.finish (Fulfilment.cancel .direct id)).1 = v at outcome ⊢
    generalize (w.finish (Fulfilment.cancel .direct id)).2 = x at outcome ⊢
    cases outcome with
    | refused e same => exact .refused _ (refuses_order e) (same ▸ .refl w)
    | cancelled cancels => exact .cancelled _ rfl post segment text id route named cancels

theorem handle_serves (w : World) (deadline : Span) {route : Route}
    (found : Route.ofTarget? q.target = some route) (accepted : route.accepts q.method = true) :
    Serves w q (w.finish (handle ⟨.direct, deadline⟩ q route)).1
      (w.finish (handle ⟨.direct, deadline⟩ q route)).2 := by
  have reads (isRead : route.isRead = true) : q.method ≠ "POST" := by
    intro post
    simp [Route.accepts, isRead, post] at accepted
  have posts (isRead : route.isRead = false) : q.method = "POST" := by
    simpa [Route.accepts, isRead] using accepted
  cases route with
  | health => exact .told _ rfl (reads rfl)
  | samples => exact .told _ rfl (reads rfl)
  | orders => exact create_serves w deadline (posts rfl) found
  | order segment =>
    obtain ⟨r, found, refuses | told⟩ := finish_find segment q w
    · rw [handle, found]
      exact .refused r refuses (.refl w)
    · rw [handle, found]
      exact .told r told (reads rfl)
  | pay segment => exact pay_serves w deadline (posts rfl) found
  | cancel segment => exact cancel_serves w deadline (posts rfl) found

theorem routed_serves (w : World) (deadline : Span) (q : Web.Request) :
    Serves w q (w.finish (routed ⟨.direct, deadline⟩ q)).1
      (w.finish (routed ⟨.direct, deadline⟩ q)).2 := by
  rw [routed]
  split
  · exact .refused _ (by simp [Succeeds, Web.Response.empty]) (.refl w)
  · next route found =>
    split
    · next accepted =>
      rw [finish_map]
      -- Only an answer to HEAD loses its body, and HEAD is no POST.
      refine (handle_serves w deadline found accepted).map _ (fun r => ?_) fun post r => ?_
      · split <;> rfl
      · rw [if_neg (by rw [post]; decide)]
    · exact .refused _ (by simp [Succeeds]) (.refl w)

theorem serve_serves (w : World) (deadline : Span) (q : Web.Request) :
    Serves w q (w.finish (serve ⟨.direct, deadline⟩ q)).1
      (w.finish (serve ⟨.direct, deadline⟩ q)).2 := by
  rw [serve]
  split
  · next options => exact .told _ rfl (by rw [options]; decide)
  · rw [finish_map]
    exact (routed_serves w deadline q).map _ (fun r => rfl) fun _ r => rfl

/-- Whatever is only asked, nothing changes. -/
theorem finish_serve_read (w : World) (c : Config) (reads : q.method ≠ "POST") :
    (w.finish (serve c q)).1 = w := by
  rw [serve]
  split
  · rfl
  rw [finish_map, routed]
  split
  · rfl
  · next route found =>
    split
    · next accepted =>
      rw [finish_map]
      cases route with
      | health => rfl
      | samples => rfl
      | order segment =>
        obtain ⟨r, told, -⟩ := finish_find segment q w
        rw [handle, told]
      | orders => simp [Route.accepts, Route.isRead, reads] at accepted
      | pay segment => simp [Route.accepts, Route.isRead, reads] at accepted
      | cancel segment => simp [Route.accepts, Route.isRead, reads] at accepted
    · rfl

/-! ## Requests one after another -/

/-- What may come next: a switch is thrown, or a request is made. -/
inductive Visit
  | flip (f : Flip)
  | request (q : Web.Request)

def Visit.request? : Visit → Option Web.Request
  | .flip _ => none
  | .request q => some q

/-- A request with the worlds before and after it. -/
structure Exchange where
  before : World
  request : Web.Request
  outcome : Except Fault Web.Response
  after : World

def exchange (deadline : Span) (w : World) (q : Web.Request) : Exchange :=
  ⟨w, q, (w.finish (serve ⟨.direct, deadline⟩ q)).2, (w.finish (serve ⟨.direct, deadline⟩ q)).1⟩

/-- Handles requests one at a time. -/
def exchanges (deadline : Span) (w : World) : List Visit → List Exchange
  | [] => []
  | .flip f :: rest => exchanges deadline (w.flip f) rest
  | .request q :: rest =>
    exchange deadline w q :: exchanges deadline (exchange deadline w q).after rest

/-- A request does what it is told to have done, and otherwise nothing. -/
structure Exchange.IsAtomic (x : Exchange) : Prop where
  refused : ∀ r, x.outcome = .ok r → ¬ Succeeds r → x.before.Rests x.after ∨
    r.status = 500 ∧ x.before.store.writesDown = true ∧
      ∃ segment c, Route.ofTarget? x.request.target = some (.pay segment) ∧
        x.before.Charges c x.after
  /-- A sum that is out of range ends a request before anything has happened. The least amount, of
  which no text can be made for the log, ends it after it was stored or charged. -/
  aborted : ∀ f, x.outcome = .error f →
    f = .addition ∧ x.before.Rests x.after ∨ f = .negation ∧
      ((∃ o, x.before.Takes o x.after ∧ o.total.cents = -0x8000000000000000) ∨
        ∃ c, x.before.Charges c x.after ∧ c.amount.cents = -0x8000000000000000)
  created : ∀ r, x.outcome = .ok r → r.status = 201 →
    Route.ofTarget? x.request.target = some .orders ∧
      ∃ o, user? x.request = .ok o.user ∧ x.before.Takes o x.after ∧
        r.body = (Api.created o).body
  paid : ∀ r, x.outcome = .ok r → r.status = 200 → x.request.method = "POST" →
    ∃ segment text id t m, Route.ofTarget? x.request.target = some (.pay segment) ∧
      Text.ofBytes? segment = some text ∧ OrderId.parse text = .ok id ∧
      x.before.Pays id t m x.after ∧ r.body = (Api.paid t).body
  cancelled : ∀ r, x.outcome = .ok r → r.status = 204 →
    ∃ segment text id, Route.ofTarget? x.request.target = some (.cancel segment) ∧
      Text.ofBytes? segment = some text ∧ OrderId.parse text = .ok id ∧
      x.before.Cancels id x.after
  reads : x.request.method ≠ "POST" → x.after = x.before

theorem exchange_isAtomic (deadline : Span) (w : World) (q : Web.Request) :
    (exchange deadline w q).IsAtomic := by
  have serves : Serves w q (exchange deadline w q).after (exchange deadline w q).outcome :=
    serve_serves w deadline q
  constructor
  · intro r ok refuses
    rw [ok] at serves
    exact serves.of_refused refuses
  · intro f fault
    rw [fault] at serves
    exact serves.of_fault
  · intro r ok status
    rw [ok] at serves
    exact (serves.of_created status).2
  · intro r ok status post
    rw [ok] at serves
    exact serves.of_paid status post
  · intro r ok status
    rw [ok] at serves
    exact serves.of_cancelled status
  · intro reads
    exact finish_serve_read w ⟨.direct, deadline⟩ reads

/-- A request whose outcome has a status was answered. -/
theorem Exchange.answered {x : Exchange} {status : Nat}
    (h : x.outcome.map Web.Response.status = .ok status) :
    ∃ r, x.outcome = .ok r ∧ r.status = status := by
  cases told : x.outcome with
  | error f =>
    rw [told] at h
    cases h
  | ok r =>
    rw [told] at h
    exact ⟨r, rfl, Except.ok.inj h⟩

/-- One part is in stock, at a price. -/
def selling (price : Money) : World :=
  { World.empty 1 true ⟨0, 0, 0⟩ with
    stock := { Stock.empty with
      parts := Table.empty.put ⟨"bolt"⟩ ⟨⟨"bolt"⟩, "Bolt", price, 3⟩ } }

def shop : World := selling ⟨70, by decide⟩

/-- A request under an identity, which is looked at before any other that it may have. -/
def withIdentity (q : Web.Request) (identity : Bytes) : Web.Request :=
  { q with headers := ("x-user-uuid", identity) :: q.headers }

/-- The part is ordered. -/
def boltOrder : Web.Request :=
  ⟨"POST", "/orders", [("content-type", Text.bytes "application/json")],
    Text.bytes "\x7b\"part_uuids\":[\"bolt\"]\x7d"⟩

end Shipyard.Api

import Shipyard.Proofs.Delivery.Poll
import Shipyard.Proofs.Fulfilment.Accounts

/-!
# The calls of the service

The order operations and the polls of the four workers. All requests that have to do with payments
come from payments; builds are announced by the assembly only, for payments that it has read; the
other calls ask nothing of either kind.
-/

namespace Shipyard

/-- A request that neither charges nor marks as paid nor announces, and that is no step of a
consumer. An order that it stores is unpaid. -/
def Request.isQuiet : Request → Bool
  | .charge _ => false
  | .deliver _ _ => false
  | .commit _ _ _ _ => false
  | .insertOrder o => o.status = .pendingPayment && o.transaction.isNone
  | .changeOrder _ _ (.paid _ _) => false
  | .publish _ _ _ => false
  | .count (.publishFailures _) _ => false
  | _ => true

/-- What is asked while an order is taken: nothing changes but that an unpaid order may be
stored. -/
def Request.isTaking : Request → Bool
  | .clock => true
  | .calendar => true
  | .mint => true
  | .askStock _ => true
  | .insertOrder o => o.status = .pendingPayment && o.transaction.isNone
  | .count (.orders .created) _ => true
  | _ => false

theorem Request.isQuiet_of_isTaking {r : Request} (h : r.isTaking = true) : r.isQuiet = true := by
  cases r with
  | insertOrder o => exact h
  | count c n =>
    cases c with
    | publishFailures t => cases h
    | _ => rfl
  | clock => rfl
  | calendar => rfl
  | mint => rfl
  | askStock id => rfl
  | _ => cases h

/-- A job with no request of these kinds. -/
abbrev Job.Quiet {α : Type} (j : Job α) : Prop := j.Asks fun r => r.isQuiet = true

namespace ServiceCalls

theorem late_asks {α : Type} {Q : Request → Prop} {delay : Option Span} {j : Job α}
    (clock : Q .clock) (h : j.Asks Q) : (late delay j).Asks Q := by
  cases delay with
  | none => exact h
  | some s => exact ⟨clock, fun _ _ => h⟩

theorem lookUp_taking (id : PartId) : (direct.lookUp id).Asks fun r => r.isTaking = true :=
  ⟨rfl, fun _ => late_asks rfl trivial⟩

end ServiceCalls

namespace Fulfilment

theorem place_taking (user : UserId) (parts : List PartId) (method : Option PaymentMethod)
    (total : Money) : (place user parts method total).Asks fun r => r.isTaking = true := by
  refine ⟨rfl, fun u => ⟨rfl, fun now => ⟨by simp [Request.isTaking, Order.fresh], fun x => ?_⟩⟩⟩
  cases x with
  | error e => trivial
  | ok =>
    refine ⟨rfl, fun _ => ?_⟩
    cases total.text with
    | error f => trivial
    | ok s => trivial

theorem price_taking {deadline : Span} {next : Money → Job (Except Error Order)}
    (rest : ∀ total, (next total).Asks fun r => r.isTaking = true) (total : Money)
    (parts : List PartId) :
    (price .direct deadline next total parts).Asks fun r => r.isTaking = true := by
  induction parts generalizing total with
  | nil => exact rest total
  | cons id parts ih =>
    have lookUp : ((ServiceCalls.direct.lookUp id).within deadline
        (.error (.timeout deadline))).Asks fun r => r.isTaking = true :=
      And.intro rfl fun _ => (ServiceCalls.lookUp_taking id).upTo
    refine lookUp.bind fun x => ?_
    cases x with
    | error e => trivial
    | ok part =>
      show Job.Asks _ (if part.inStock then _ else _)
      split
      · cases total.add part.price with
        | error f => trivial
        | ok total => exact ih total
      · trivial

theorem create_taking (deadline : Span) (user : UserId) (parts : List PartId)
    (method : Option PaymentMethod) :
    (create .direct deadline user parts method).Asks fun r => r.isTaking = true := by
  rw [create]
  split
  · trivial
  · exact price_taking (place_taking user parts method) _ _

theorem create_quiet (deadline : Span) (user : UserId) (parts : List PartId)
    (method : Option PaymentMethod) : (create .direct deadline user parts method).Quiet :=
  (create_taking deadline user parts method).mono fun _ => Request.isQuiet_of_isTaking

theorem cancel_quiet (id : OrderId) : (cancel .direct id).Quiet := by
  refine ⟨rfl, fun x => ?_⟩
  cases x with
  | error e => trivial
  | ok o => exact ⟨rfl, fun _ => trivial⟩

theorem assemblePaid_quiet (id : OrderId) : (assemblePaid .direct id).Quiet := by
  refine ⟨rfl, fun x => ?_⟩
  cases x with
  | error e => trivial
  | ok o => exact ⟨rfl, fun _ => trivial⟩

theorem completeBuild_quiet (b : BuildCompleted) : (completeBuild .direct b).Quiet := by
  refine ⟨rfl, fun x => ?_⟩
  match x with
  | .error e => trivial
  | .ok none => trivial
  | .ok (some o) =>
    cases status : o.status with
    | assembled => simp only [status]; trivial
    | pendingPayment => simp only [status]; trivial
    | cancelled => simp only [status]; trivial
    | paid =>
      simp only [status]
      exact assemblePaid_quiet b.order

theorem buildHandler_quiet (history : List Delivery) (m : Bus.Message) (s : Option Signal) :
    (buildHandler .direct history m s).Quiet := by
  rw [buildHandler]
  cases BuildCompleted.decode m.topic m.payload with
  | error r => trivial
  | ok b => exact (completeBuild_quiet b).bind fun _ => trivial

end Fulfilment

namespace Notice

theorem notify_quiet (channel : Channel) (e : Event) : (notify channel e).Quiet := by
  cases channel with
  | outbox => exact ⟨rfl, fun _ => ⟨rfl, fun _ => trivial⟩⟩
  | log => exact ⟨rfl, fun _ => trivial⟩

theorem paidHandler_quiet (channel : Channel) (history : List Delivery) (m : Bus.Message)
    (s : Option Signal) : (paidHandler channel history m s).Quiet := by
  rw [paidHandler]
  cases PaymentCompleted.decode m.topic m.payload with
  | error r => trivial
  | ok p => exact (notify_quiet channel _).bind fun _ => trivial

theorem assembledHandler_quiet (channel : Channel) (history : List Delivery) (m : Bus.Message)
    (s : Option Signal) : (assembledHandler channel history m s).Quiet := by
  rw [assembledHandler]
  cases BuildCompleted.decode m.topic m.payload with
  | error r => trivial
  | ok b => exact (notify_quiet channel _).bind fun _ => trivial

end Notice

namespace Assembly

/-- A request that announces the build of a paid order. -/
def Announces (p : PaymentCompleted) (r : Request) : Prop :=
  ∃ u elapsed, r = .publish .assembled p.order.text (Event.build (completion u p elapsed)).encode

theorem assemble_asks (c : Config) (p : PaymentCompleted) (signal : Option Signal) :
    (assemble c p signal).Asks fun r => r.isQuiet = true ∨ Announces p r := by
  refine ⟨.inl rfl, fun _ => ⟨.inl rfl, fun _ wakeup => ⟨.inl rfl, fun now => ?_⟩⟩⟩
  cases wakeup with
  | raised => exact ⟨.inl rfl, fun _ => trivial⟩
  | elapsed =>
    refine ⟨.inl rfl, fun u => ⟨.inr ⟨_, _, rfl⟩, fun x => ?_⟩⟩
    cases x with
    | error e => exact ⟨.inl rfl, fun _ => trivial⟩
    | ok position => exact ⟨.inl rfl, fun _ => trivial⟩

theorem handler_asks (c : Config) (history : List Delivery) (m : Bus.Message)
    (s : Option Signal) : (handler c history m s).Asks fun r => r.isQuiet = true ∨
      ∃ p, PaymentCompleted.decode m.topic m.payload = .ok p ∧ Announces p r := by
  rw [handler]
  cases decoded : PaymentCompleted.decode m.topic m.payload with
  | error r => trivial
  | ok p =>
    refine Job.Asks.bind ((assemble_asks c p s).mono fun r => ?_) fun _ => trivial
    exact Or.imp_right fun announces => ⟨p, rfl, announces⟩

end Assembly

namespace Consumer

theorem deadLetters_ne_paid (t : Topic) : t.deadLetters ≠ .paid := by cases t <;> decide

theorem deadLetters_ne_assembled (t : Topic) : t.deadLetters ≠ .assembled := by cases t <;> decide

end Consumer

namespace Workers

variable {build : Assembly.Config} {channel : Notice.Channel} {config : Consumer.Config}
  {c : Consumer} {signal : Option Signal} {p : Nat} {tr : Trace}
  {j : Job (Except Bus.Error Bool)}

theorem orderService_mem (build : Assembly.Config) (channel : Notice.Channel)
    (config : Consumer.Config) :
    orderService .direct config ∈ all .direct build channel config := by
  simp [all]

theorem assembly_mem (build : Assembly.Config) (channel : Notice.Channel)
    (config : Consumer.Config) : assembly build config ∈ all .direct build channel config := by
  simp [all]

/-- Each worker has a group of its own. -/
theorem eq_of_group {c' : Consumer} (worker : c ∈ all .direct build channel config)
    (worker' : c' ∈ all .direct build channel config) (same : c.group = c'.group) : c = c' := by
  have groups : ((all .direct build channel config).map Consumer.group).Nodup := by
    show [Fulfilment.buildGroup, Assembly.group, Notice.paidGroup, Notice.assembledGroup].Nodup
    decide
  exact List.inj_on_of_nodup_map groups worker worker' same

/-- What the handler of a worker may ask about a record: something quiet, or it announces the build
of a payment. -/
def Handling (c : Consumer) (m : Bus.Message) (r : Request) : Prop :=
  r.isQuiet = true ∨ ∃ e, c.topic = .paid ∧
    PaymentCompleted.decode m.topic m.payload = .ok e ∧ Assembly.Announces e r

theorem handler_asks (worker : c ∈ all .direct build channel config) (history : List Delivery)
    (m : Bus.Message) (s : Option Signal) : (c.handler history m s).Asks (Handling c m) := by
  simp only [all, List.mem_cons, List.not_mem_nil, or_false] at worker
  rcases worker with rfl | rfl | rfl | rfl
  · exact (Fulfilment.buildHandler_quiet history m s).mono fun _ => .inl
  · refine (Assembly.handler_asks build history m s).mono fun r => Or.imp_right ?_
    rintro ⟨e, decoded, announces⟩
    exact ⟨e, rfl, decoded, announces⟩
  · exact (Notice.paidHandler_quiet channel history m s).mono fun _ => .inl
  · exact (Notice.assembledHandler_quiet channel history m s).mono fun _ => .inl

theorem poll_mem (worker : c ∈ all .direct build channel config)
    (path : (c.pollPartition signal p).After tr j) {r : Request} {x : r.Reply}
    (mem : .reply r x ∈ tr) :
    r = .committed c.group c.topic p ∨ (∃ i, r = .fetch c.topic p i) ∨
      ∃ i m, .reply (.fetch c.topic p i) (.ok (some m)) ∈ tr ∧ (c.Own m r ∨ Handling c m r) :=
  Consumer.poll_mem (Q := Handling c)
    (fun m history number => handler_asks worker history { m with attempt := number } signal)
    path mem

end Workers

namespace Encounter

/-- An encounter that adds to no account of payments. -/
structure Spares (e : Encounter) : Prop where
  charges : ∀ id, e.charges id = 0
  settles : ∀ id, e.settles id = 0
  settlements : e.settlements = 0
  records : e.records .paid = 0
  counts : e.counts (.publishFailures .paid) = 0

theorem spares_woken (wake : Nat) (signal : Option Signal) (x : Wakeup) :
    Spares (.woken wake signal x) :=
  ⟨fun _ => rfl, fun _ => rfl, rfl, rfl, rfl⟩

theorem spares_of_publish {t : Topic} (other : t ≠ .paid) {key : String} {payload : Bytes}
    (x : (Request.publish t key payload).Reply) : Spares (.reply (.publish t key payload) x) := by
  refine ⟨fun _ => rfl, fun _ => rfl, rfl, ?_, rfl⟩
  cases x with
  | error e => rfl
  | ok p => simp [records, publication?, other]

theorem spares_of_quiet {r : Request} (quiet : r.isQuiet = true) (x : r.Reply) :
    Spares (.reply r x) := by
  cases r with
  | insertOrder o =>
    have unsettled : o.status.isSettled = false := by
      have pending : o.status = .pendingPayment ∧ o.transaction = none := by
        simpa [Request.isQuiet] using quiet
      simp [pending.1, Order.Status.isSettled]
    cases x with
    | error e => exact ⟨fun _ => rfl, fun _ => rfl, rfl, rfl, rfl⟩
    | ok =>
      refine ⟨fun _ => rfl, fun id => ?_, ?_, rfl, rfl⟩
      · simp [settles, write?, unsettled]
      · simp [settlements, write?, unsettled]
  | changeOrder id expected c =>
    have free : c.settles = 0 := by
      cases c with
      | paid t m => cases quiet
      | assembled => rfl
      | cancelled => rfl
    cases x with
    | error e => exact ⟨fun _ => rfl, fun _ => rfl, rfl, rfl, rfl⟩
    | ok o =>
      refine ⟨fun _ => rfl, fun i => ?_, ?_, rfl, rfl⟩
      · simp [settles, write?, free]
      · simp [settlements, write?, free]
  | count c n =>
    refine ⟨fun _ => rfl, fun _ => rfl, rfl, rfl, ?_⟩
    cases c with
    | publishFailures t => cases quiet
    | _ => rfl
  | charge c => cases quiet
  | publish t key payload => cases quiet
  | _ => exact ⟨fun _ => rfl, fun _ => rfl, rfl, rfl, rfl⟩

theorem spares_of_own {c : Consumer} {m : Bus.Message} {r : Request} (own : c.Own m r)
    (x : r.Reply) : Spares (.reply r x) := by
  cases own with
  | bury => exact spares_of_publish (Consumer.deadLetters_ne_paid _) x
  | _ => exact ⟨fun _ => rfl, fun _ => rfl, rfl, rfl, rfl⟩

end Encounter

/-- The order operations, the completion of a build, and the polls of the workers. -/
inductive Call.OfService : Call → Prop
  | create (deadline : Span) (user : UserId) (parts : List PartId) (method : Option PaymentMethod) :
      OfService (.create deadline user parts method)
  | pay (deadline : Span) (id : OrderId) (method : PaymentMethod) :
      OfService (.pay deadline id method)
  | cancel (id : OrderId) : OfService (.cancel id)
  | complete (b : BuildCompleted) : OfService (.complete b)
  | poll {build : Assembly.Config} {channel : Notice.Channel} {config : Consumer.Config}
      {c : Consumer} (worker : c ∈ Workers.all .direct build channel config)
      (signal : Option Signal) (p : Nat) : OfService (.poll c signal p)

/-- Any call of the service may begin at any time. -/
abbrev Yard.Serving : World → Call → Prop := fun _ c => c.OfService

/-- A call that is no payment adds to no account of payments. -/
theorem Call.OfService.spares {c : Call} (service : c.OfService)
    (other : ∀ deadline id method, c ≠ .pay deadline id method) {tr : Trace} {j : Job c.Result}
    (path : c.job.After tr j) : ∀ e ∈ tr, e.Spares := by
  intro e mem
  cases e with
  | woken wake signal x => exact Encounter.spares_woken wake signal x
  | reply r x =>
    cases service with
    | create deadline user parts method =>
      have quiet := Fulfilment.create_quiet deadline user parts method
      exact Encounter.spares_of_quiet (quiet.of_mem path mem) x
    | pay deadline id method => exact absurd rfl (other deadline id method)
    | cancel id =>
      exact Encounter.spares_of_quiet ((Fulfilment.cancel_quiet id).of_mem path mem) x
    | complete b =>
      exact Encounter.spares_of_quiet ((Fulfilment.completeBuild_quiet b).of_mem path mem) x
    | poll worker signal p =>
      rcases Workers.poll_mem worker path mem with rfl | ⟨i, rfl⟩ | ⟨i, m, -, own | handling⟩
      · exact ⟨fun _ => rfl, fun _ => rfl, rfl, rfl, rfl⟩
      · exact ⟨fun _ => rfl, fun _ => rfl, rfl, rfl, rfl⟩
      · exact Encounter.spares_of_own own x
      · rcases handling with quiet | ⟨e, -, -, u, elapsed, rfl⟩
        · exact Encounter.spares_of_quiet quiet x
        · exact Encounter.spares_of_publish (by decide) x

end Shipyard

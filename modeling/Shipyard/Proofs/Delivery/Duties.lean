import Shipyard.Proofs.Delivery.Places

/-!
# What the workers do with a record

For each of the four handlers: while no failure switch is thrown it never fails, its record has its
effect exactly once, and a build that a shutdown breaks off has none. So every poll of a worker goes
from place to place as it should.
-/

namespace Shipyard

theorem Event.eq_payment {e : Event} (kind : e.topic = .paid) : ∃ p, e = .payment p := by
  cases e with
  | payment p => exact ⟨p, rfl⟩
  | build b => cases kind

theorem Event.eq_build {e : Event} (kind : e.topic = .assembled) : ∃ b, e = .build b := by
  cases e with
  | payment p => cases kind
  | build b => exact ⟨b, rfl⟩

namespace World

theorem isSettled_iff {w : World} {id : OrderId} :
    w.isSettled id = true ↔
      ∃ o, w.store.orders.find? id = some o ∧ (o.status = .paid ∨ o.status = .assembled) := by
  simp [isSettled, Order.Status.isSettled, Option.any_eq_true]

end World

namespace Store

variable {s : Store} {id : OrderId} {o : Order}

theorem transition_of_paid (up : s.writesDown = false) (found : s.orders.find? id = some o)
    (paid : o.status = .paid) (now : Instant) :
    s.transition id .paid .assembled now =
      .ok ({ o with status := .assembled, updatedAt := now },
        { s with
          orders := s.orders.put id { o with status := .assembled, updatedAt := now } }) := by
  simp [transition, up, found, paid, Order.apply, Order.settle, Order.Change.target,
    Order.Status.canBecome, Order.Status.canAssemble]

theorem transition_of_assembled (up : s.writesDown = false) (found : s.orders.find? id = some o)
    (assembled : o.status = .assembled) (now : Instant) :
    s.transition id .paid .assembled now = .error (.mismatch id .paid .assembled) := by
  simp [transition, up, found, assembled, Order.Change.target, Order.Status.canBecome,
    Order.Status.canAssemble]

end Store

namespace Site

variable {s : Site} {n : Nat}

theorem notify_follows {e : Event} (teller : s.duty = .tellPaid ∨ s.duty = .tellAssembled) :
    s.Follows (fun π _ => π = .holding n e true) (Notice.notify .outbox e)
      (.holding n e false) := by
  refine follows_answer (by simp) fun w sees => ?_
  have sent : w.outbox.send (Notice.text e) =
      .ok { w.outbox with sent := w.outbox.sent ++ [Notice.text e] } := by
    simp [Outbox.send, sees.fit.channel]
  refine ⟨.ok (), { w with outbox := { w.outbox with sent := w.outbox.sent ++ [Notice.text e] } },
    .holding n e true, ?_, .act (.tell teller rfl rfl rfl rfl), follows_plain rfl fun _ => rfl⟩
  show w.tried ((w.outbox.send (Notice.text e)).map _) = _
  rw [World.tried_map, sent]

theorem announce_follows {p : PaymentCompleted} (builder : s.duty = .build) (elapsed : Span) :
    s.Follows (fun π x => π = .holding n (.payment p) true ∧ ∃ b, x = .ok b)
      (Assembly.publish p elapsed) (.holding n (.payment p) false) := by
  refine follows_plain rfl fun u => follows_answer (by simp) fun w sees => ?_
  let b := Assembly.completion ⟨u⟩ p elapsed
  let q := Bus.partitionOf (Event.build b).key w.bus.partitions
  have published : w.bus.publish .assembled (Event.build b).key (Event.build b).encode =
      .ok (⟨q, (w.bus.log .assembled q).length⟩,
        w.bus.append .assembled q (Event.build b).record) := by
    simp [Bus.publish, sees.fit.bus, Event.record, q]
  refine ⟨.ok ⟨q, (w.bus.log .assembled q).length⟩,
    { w with bus := w.bus.append .assembled q (Event.build b).record },
    .holding n (.payment p) true, ?_, .act ?_, follows_plain rfl fun _ => ⟨rfl, b, rfl⟩⟩
  · show w.tried ((w.bus.publish .assembled (Event.build b).key (Event.build b).encode).map _) = _
    rw [World.tried_map, published]
  · rw [builder]
    exact .build (b := b) rfl rfl rfl rfl rfl rfl

/-- A build is announced, or a shutdown breaks it off before. -/
theorem assemble_follows {p : PaymentCompleted} (builder : s.duty = .build)
    (c : Assembly.Config) :
    s.Follows (fun π x => (π = .holding n (.payment p) true ∧ ∃ b, x = .ok b) ∨
        (π = .stopped ∧ x = .error .cancelled))
      (Assembly.assemble c p s.signal) (.holding n (.payment p) false) := by
  refine follows_plain rfl fun started => follows_plain rfl fun now => ?_
  refine follows_wait (follows_plain rfl fun later => ?_) fun w up => ?_
  · exact (announce_follows builder ⟨later - started⟩).mono fun π x done => .inl done
  · exact ⟨.stopped, .stop (.refl w) up,
      follows_plain rfl fun later => follows_plain rfl fun _ => .inr ⟨rfl, rfl⟩⟩

/-- What a poll that holds a build knows of its order. -/
theorem Sees.order {b : BuildCompleted} {made : Bool} {w : World}
    (sees : s.Sees w (.holding n (.build b) made)) (completer : s.duty = .complete) :
    ∃ o, w.store.orders.find? b.order = some o ∧ (o.status = .paid ∨ o.status = .assembled) := by
  obtain ⟨-, -, there⟩ := sees.knows
  rw [log, completer] at there
  exact World.isSettled_iff.mp (sees.fit.builds s.partition n b sees.inside there)

theorem assemblePaid_follows {b : BuildCompleted} (completer : s.duty = .complete) :
    s.Follows (fun π x => π = .holding n (.build b) true ∧ ∃ y, x = .ok y)
      (Fulfilment.assemblePaid .direct b.order) (.holding n (.build b) false) := by
  refine follows_answer (by simp) fun w sees => ?_
  obtain ⟨o, here, paid | assembled⟩ := sees.order completer
  · have changed := Store.transition_of_paid sees.fit.writes here paid w.today
    let o' := { o with status := .assembled, updatedAt := w.today }
    refine ⟨.ok o', { w with store := { w.store with orders := w.store.orders.put b.order o' } },
      .holding n (.build b) true, ?_, .act ?_, follows_plain rfl fun _ => ⟨rfl, _, rfl⟩⟩
    · show w.tried ((w.store.transition b.order .paid .assembled w.today).map _) = _
      rw [World.tried_map, changed]
    · rw [completer]
      exact .complete here paid rfl rfl rfl rfl
  · have refused := Store.transition_of_assembled sees.fit.writes here assembled w.today
    refine ⟨.error (.mismatch b.order .paid .assembled), w, .holding n (.build b) true, ?_,
      .act ?_, rfl, _, rfl⟩
    · show w.tried ((w.store.transition b.order .paid .assembled w.today).map _) = _
      rw [World.tried_map, refused]
    · rw [completer]
      exact .again here assembled (.refl w)

/-- A completion finds its order paid, or assembled by then. -/
theorem completeBuild_follows {b : BuildCompleted} (completer : s.duty = .complete) :
    s.Follows (fun π x => π = .holding n (.build b) true ∧ ∃ y, x = .ok y)
      (Fulfilment.completeBuild .direct b) (.holding n (.build b) false) := by
  refine follows_answer (by simp) fun w sees => ?_
  obtain ⟨o, here, settled⟩ := sees.order completer
  have read : w.store.read b.order = .ok (some o) := by simp [Store.read, sees.fit.reads, here]
  rcases settled with paid | assembled
  · refine ⟨.ok (some o), w, .holding n (.build b) false, congrArg (·, w) read, .idle (.refl w), ?_⟩
    simp only [paid]
    exact assemblePaid_follows completer
  · refine ⟨.ok (some o), w, .holding n (.build b) true, congrArg (·, w) read, .act ?_, ?_⟩
    · rw [completer]
      exact .again here assembled (.refl w)
    · simp only [assembled]
      exact ⟨rfl, _, rfl⟩

section Handlers

variable {m : Bus.Message} (history : List Delivery)

theorem buildHandler_follows {b : BuildCompleted} (completer : s.duty = .complete)
    (decoded : BuildCompleted.decode m.topic m.payload = .ok b) :
    s.Follows (Consumer.Handled n (.build b)) (Fulfilment.buildHandler .direct history m s.signal)
      (.holding n (.build b) false) := by
  rw [Fulfilment.buildHandler, decoded]
  refine (completeBuild_follows completer).bind ?_
  rintro π x ⟨rfl, y, rfl⟩
  exact .inl ⟨rfl, rfl⟩

theorem assemblyHandler_follows {p : PaymentCompleted} (builder : s.duty = .build)
    (c : Assembly.Config) (decoded : PaymentCompleted.decode m.topic m.payload = .ok p) :
    s.Follows (Consumer.Handled n (.payment p)) (Assembly.handler c history m s.signal)
      (.holding n (.payment p) false) := by
  rw [Assembly.handler, decoded]
  refine (assemble_follows builder c).bind ?_
  rintro π x (⟨rfl, b, rfl⟩ | ⟨rfl, rfl⟩)
  · exact .inl ⟨rfl, rfl⟩
  · exact .inr ⟨rfl, rfl⟩

theorem paidHandler_follows {p : PaymentCompleted} (teller : s.duty = .tellPaid)
    (decoded : PaymentCompleted.decode m.topic m.payload = .ok p) :
    s.Follows (Consumer.Handled n (.payment p)) (Notice.paidHandler .outbox history m s.signal)
      (.holding n (.payment p) false) := by
  rw [Notice.paidHandler, decoded]
  exact (notify_follows (.inl teller)).bind fun π _ here => .inl ⟨here, rfl⟩

theorem assembledHandler_follows {b : BuildCompleted} (teller : s.duty = .tellAssembled)
    (decoded : BuildCompleted.decode m.topic m.payload = .ok b) :
    s.Follows (Consumer.Handled n (.build b)) (Notice.assembledHandler .outbox history m s.signal)
      (.holding n (.build b) false) := by
  rw [Notice.assembledHandler, decoded]
  exact (notify_follows (.inr teller)).bind fun π _ here => .inl ⟨here, rfl⟩

end Handlers

/-- The handling of a record by the worker whose duty it is. -/
theorem handler_follows {e : Event} (kind : e.topic = s.duty.topic) (build : Assembly.Config)
    (history : List Delivery) (number : Nat) :
    s.Follows (Consumer.Handled n e) (s.duty.handler build history
      { s.message n e with attempt := number } s.signal) (.holding n e false) := by
  generalize message : { s.message n e with attempt := number } = m
  have topic : m.topic = s.duty.topic := by simp only [← message, Site.message, Bus.delivered]
  have payload : m.payload = e.encode := by
    simp only [← message, Site.message, Bus.delivered, Event.record]
  clear message
  cases duty : s.duty with
  | complete =>
    rw [duty] at kind topic
    obtain ⟨b, rfl⟩ := Event.eq_build kind
    refine buildHandler_follows history duty ?_
    rw [topic, payload]
    exact b.decode_encode
  | build =>
    rw [duty] at kind topic
    obtain ⟨q, rfl⟩ := Event.eq_payment kind
    refine assemblyHandler_follows history duty build ?_
    rw [topic, payload]
    exact q.decode_encode
  | tellPaid =>
    rw [duty] at kind topic
    obtain ⟨q, rfl⟩ := Event.eq_payment kind
    refine paidHandler_follows history duty ?_
    rw [topic, payload]
    exact q.decode_encode
  | tellAssembled =>
    rw [duty] at kind topic
    obtain ⟨b, rfl⟩ := Event.eq_build kind
    refine assembledHandler_follows history duty ?_
    rw [topic, payload]
    exact b.decode_encode

/-- Every poll of a worker goes from place to place. -/
theorem worker_follows (s : Site) (build : Assembly.Config) (config : Consumer.Config) :
    s.Follows Consumer.Polled
      ((s.duty.consumer build config).pollPartition s.signal s.partition) .reading :=
  poll_follows fun _ _ history number kind => handler_follows kind build history number

end Site
end Shipyard

import Shipyard.Proofs.Delivery.AtLeastOnce
import Shipyard.Proofs.Fulfilment.Causality

/-!
# No paid order is lost

The calls of the service move offsets by their consumers only, so what is known of at-least-once
delivery holds of them. A record that the assembly accepted was announced as a build, and one that
the order service accepted left its order assembled; what was not accepted is a dead letter.
-/

namespace Shipyard

theorem Request.isCommit_of_isQuiet {r : Request} (quiet : r.isQuiet = true) :
    r.isCommit = false := by
  cases r with
  | commit g t p n => cases quiet
  | _ => rfl

theorem Job.Quiet.sober {α : Type} {j : Job α} (h : j.Quiet) : j.Sober :=
  h.mono fun _ => Request.isCommit_of_isQuiet

namespace Fulfilment

theorem charged_sober (id : OrderId) (method : PaymentMethod) (t : TransactionId) :
    (charged .direct id method t).Sober := by
  refine ⟨rfl, fun x => ?_⟩
  cases x with
  | error e => trivial
  | ok o =>
    refine ⟨rfl, fun _ => ⟨rfl, fun _ => ⟨rfl, fun u => ⟨rfl, fun x => ?_⟩⟩⟩⟩
    cases x with
    | error e => exact ⟨rfl, fun _ => trivial⟩
    | ok p => trivial

theorem payable_sober (deadline : Span) (id : OrderId) (method : PaymentMethod) (o : Order) :
    (payable .direct deadline id method o).Sober := by
  rw [payable]
  split
  · refine ⟨rfl, fun now => ⟨rfl, fun u => ⟨rfl, fun x => ?_⟩⟩⟩
    cases x with
    | error e => trivial
    | ok x =>
      cases o.total.text with
      | error f => trivial
      | ok s => exact charged_sober id method ⟨u⟩
  · trivial

theorem pay_sober (deadline : Span) (id : OrderId) (method : PaymentMethod) :
    (pay .direct deadline id method).Sober := by
  refine ⟨rfl, fun x => ?_⟩
  match x with
  | .error e => trivial
  | .ok none => trivial
  | .ok (some o) => exact payable_sober deadline id method o

end Fulfilment

namespace Workers

variable {build : Assembly.Config} {channel : Notice.Channel} {config : Consumer.Config}
  {c : Consumer}

theorem handler_sober (worker : c ∈ all .direct build channel config) (history : List Delivery)
    (m : Bus.Message) (s : Option Signal) : (c.handler history m s).Sober := by
  refine (handler_asks worker history m s).mono fun r => ?_
  rintro (quiet | ⟨e, -, -, u, elapsed, rfl⟩)
  · exact Request.isCommit_of_isQuiet quiet
  · rfl

end Workers

namespace Assembly

/-- An assembly that succeeded has announced the build. -/
theorem assemble_ok {config : Config} {p : PaymentCompleted} {signal : Option Signal} {tr : Trace}
    {b : BuildCompleted} (h : (assemble config p signal).After tr (.done (.ok b))) :
    ∃ position, b.order = p.order ∧
      .reply (.publish .assembled (Event.build b).key (Event.build b).encode) (.ok position) ∈
        tr := by
  rcases Job.after_ask_iff.mp h with ⟨-, same⟩ | ⟨started, tr, rfl, h₁⟩
  · cases same
  rcases Job.after_ask_iff.mp h₁ with ⟨-, same⟩ | ⟨now, tr, rfl, h₂⟩
  · cases same
  rcases Job.after_wait_iff.mp h₂ with ⟨-, same⟩ | ⟨wakeup, tr, rfl, h₃⟩
  · cases same
  rcases Job.after_ask_iff.mp h₃ with ⟨-, same⟩ | ⟨now', tr, rfl, h₄⟩
  · cases same
  cases wakeup with
  | raised =>
    rcases Job.after_ask_iff.mp h₄ with ⟨-, same⟩ | ⟨_, tr, rfl, h₅⟩
    · cases same
    · cases (Job.after_done_iff.mp h₅).2
  | elapsed =>
    rcases Job.after_ask_iff.mp h₄ with ⟨-, same⟩ | ⟨u, tr, rfl, h₅⟩
    · cases same
    rcases Job.after_ask_iff.mp h₅ with ⟨-, same⟩ | ⟨x, tr, rfl, h₆⟩
    · cases same
    cases x with
    | error e =>
      rcases Job.after_ask_iff.mp h₆ with ⟨-, same⟩ | ⟨_, tr, rfl, h₇⟩
      · cases same
      · cases (Job.after_done_iff.mp h₇).2
    | ok position =>
      rcases Job.after_ask_iff.mp h₆ with ⟨-, same⟩ | ⟨_, tr, rfl, h₇⟩
      · cases same
      · cases (Job.after_done_iff.mp h₇).2
        exact ⟨position, rfl, by simp⟩

theorem handler_ok {config : Config} (history : List Delivery) {m : Bus.Message}
    {signal : Option Signal} {tr : Trace}
    (h : (handler config history m signal).After tr (.done (.ok ()))) :
    ∃ p b position, PaymentCompleted.decode m.topic m.payload = .ok p ∧ b.order = p.order ∧
      .reply (.publish .assembled (Event.build b).key (Event.build b).encode) (.ok position) ∈
        tr := by
  rw [handler] at h
  cases decoded : PaymentCompleted.decode m.topic m.payload with
  | error r =>
    simp only [decoded] at h
    cases (Job.after_done_iff.mp h).2
  | ok p =>
    simp only [decoded] at h
    obtain ⟨x, tr₁, tr₂, rfl, path, last⟩ := Job.after_bind_done h
    obtain ⟨rfl, same⟩ := Job.after_done_iff.mp last
    cases x with
    | error e => cases same
    | ok b =>
      obtain ⟨position, order, announced⟩ := assemble_ok path
      exact ⟨p, b, position, rfl, order, by simpa using announced⟩

end Assembly

namespace Fulfilment

/-- A build that the order service accepted was completed. -/
theorem buildHandler_ok (history : List Delivery) {m : Bus.Message} (signal : Option Signal)
    {tr : Trace} (h : (buildHandler .direct history m signal).After tr (.done (.ok ()))) :
    ∃ b outcome, BuildCompleted.decode m.topic m.payload = .ok b ∧
      (completeBuild .direct b).After tr (.done (.ok outcome)) := by
  rw [buildHandler] at h
  cases decoded : BuildCompleted.decode m.topic m.payload with
  | error r =>
    simp only [decoded] at h
    cases (Job.after_done_iff.mp h).2
  | ok b =>
    simp only [decoded] at h
    obtain ⟨x, tr₁, tr₂, rfl, path, last⟩ := Job.after_bind_done h
    obtain ⟨rfl, same⟩ := Job.after_done_iff.mp last
    cases x with
    | error e => cases same
    | ok outcome => exact ⟨b, outcome, rfl, by simpa using path⟩

end Fulfilment

namespace Yard

variable {y : Yard}

theorem Reachable.consuming (h : Reachable Pipeline y) : Reachable OnlyConsumersCommit y := by
  refine h.mono fun w c allowed => ?_
  cases allowed.1 with
  | create deadline user parts method =>
    exact .other _ (Fulfilment.create_quiet deadline user parts method).sober
  | pay deadline id method => exact .other _ (Fulfilment.pay_sober deadline id method)
  | cancel id => exact .other _ (Fulfilment.cancel_quiet id).sober
  | complete b => exact .other _ (Fulfilment.completeBuild_quiet b).sober
  | poll worker signal p => exact .poll _ signal p (Workers.handler_sober worker)

/-- Whoever polls is one of the workers. -/
theorem Reachable.worker (h : Reachable Pipeline y) {u : Thread} (mem : u ∈ y.threads)
    {c : Consumer} {signal : Option Signal} {p : Nat} (call : u.call = .poll c signal p) :
    ∃ build channel config, c ∈ Workers.all .direct build channel config := by
  have service := h.serving.served u mem
  rw [call] at service
  cases service with
  | poll worker => exact ⟨_, _, _, worker⟩

/-- A payment that the assembly accepted was announced as a build. -/
theorem Reachable.accepted_payment (h : Reachable Pipeline y) {p i : Nat} {r : Bus.Record}
    (accepted : y.Accepted Assembly.group .paid p i r) :
    ∃ e b, PaymentCompleted.decode .paid r.payload = .ok e ∧ b.order = e.order ∧
      y.world.IsAnnounced b := by
  obtain ⟨u, mem, c, signal, call, group, -, accepts⟩ := accepted
  obtain ⟨build, channel, config, worker⟩ := h.worker mem call
  obtain rfl := Workers.eq_of_group worker (Workers.assembly_mem ..) group
  obtain ⟨before, number, history, mid, after, trace, path⟩ := accepts
  obtain ⟨e, b, position, decoded, order, announced⟩ := Assembly.handler_ok history path
  have there : .reply (.publish .assembled (Event.build b).key (Event.build b).encode)
      (.ok position) ∈ u.trace := by
    rw [trace]
    simp [announced]
  obtain ⟨-, record⟩ := h.known u mem _ there
  exact ⟨e, b, decoded, order, .of_record record⟩

/-- A build that the order service accepted left its order assembled. -/
theorem Reachable.accepted_build (h : Reachable Pipeline y) {p i : Nat} {r : Bus.Record}
    (accepted : y.Accepted Fulfilment.buildGroup .assembled p i r) :
    ∃ b o, BuildCompleted.decode .assembled r.payload = .ok b ∧
      y.world.store.orders.find? b.order = some o ∧ o.status = .assembled := by
  obtain ⟨u, mem, c, signal, call, group, -, accepts⟩ := accepted
  obtain ⟨build, channel, config, worker⟩ := h.worker mem call
  obtain rfl := Workers.eq_of_group worker (Workers.orderService_mem ..) group
  obtain ⟨before, number, history, mid, after, trace, path⟩ := accepts
  obtain ⟨b, outcome, decoded, completed⟩ := Fulfilment.buildHandler_ok history signal path
  obtain ⟨call', tr, j⟩ := u
  dsimp only at call trace
  subst call trace
  obtain ⟨mid', inside, path', found⟩ := h.applies mem (.delivered group decoded completed)
  have other : outcome ≠ .skipped := fun same => path'.not_skipped found (by rw [same])
  obtain ⟨o, stored, assembled⟩ := path'.assembles other fun e he => h.known _ mem e (inside e he)
  exact ⟨b, o, decoded, stored, assembled⟩

/-- A record is ahead of a group, or the group accepted it, or it is a dead letter. -/
theorem Reachable.kept (h : Reachable OnlyConsumersCommit y) (g : String) {t : Topic} {p i : Nat}
    {r : Bus.Record} (there : (y.world.bus.log t p)[i]? = some r) :
    y.world.bus.offset g t p ≤ i ∨ y.Accepted g t p i r ∨
      ∃ q k : Nat, (y.world.bus.log t.deadLetters q)[k]? = some r := by
  by_cases below : i < y.world.bus.offset g t p
  · have reached := h.mono fun _ _ allowed => allowed.kept g t
    obtain ⟨r', there', settled⟩ := reached.settled p i below
    obtain rfl : r = r' := Option.some.inj (there.symm.trans there')
    rcases settled with accepted | ⟨_, -, _, _, position, -, -, -, -, buried⟩
    · exact .inr (.inl accepted)
    · exact .inr (.inr ⟨_, _, buried⟩)
  · exact .inl (by omega)

/-- A record about a payment that the assembly is done with was built, or is a dead letter. -/
theorem Reachable.payment_kept (h : Reachable Pipeline y) {p i : Nat} {r : Bus.Record}
    (there : (y.world.bus.log .paid p)[i]? = some r) :
    ∃ e, PaymentCompleted.decode .paid r.payload = .ok e ∧
      (y.world.bus.offset Assembly.group .paid p ≤ i ∨
        (∃ b, y.world.IsAnnounced b ∧ b.order = e.order) ∨
        ∃ q k : Nat, (y.world.bus.log .paidDeadLetters q)[k]? = some r) := by
  obtain ⟨e, -, decoded, -⟩ := h.serving.paid_record_true there
  refine ⟨e, decoded, ?_⟩
  rcases h.consuming.kept Assembly.group there with ahead | accepted | buried
  · exact .inl ahead
  · obtain ⟨e', b, decoded', order, announced⟩ := h.accepted_payment accepted
    obtain rfl : e = e' := Except.ok.inj (decoded.symm.trans decoded')
    exact .inr (.inl ⟨b, announced, order⟩)
  · exact .inr (.inr buried)

/-- A record about a build that the order service is done with left its order assembled, or is a
dead letter. -/
theorem Reachable.build_kept (h : Reachable Pipeline y) {p i : Nat} {r : Bus.Record}
    (there : (y.world.bus.log .assembled p)[i]? = some r) :
    ∃ b, BuildCompleted.decode .assembled r.payload = .ok b ∧
      (y.world.bus.offset Fulfilment.buildGroup .assembled p ≤ i ∨
        (∃ o, y.world.store.orders.find? b.order = some o ∧ o.status = .assembled) ∨
        ∃ q k : Nat, (y.world.bus.log .assembledDeadLetters q)[k]? = some r) := by
  obtain ⟨b, _, _, _, _, decoded, -⟩ := h.serving.assembled_record there
  refine ⟨b, decoded, ?_⟩
  rcases h.consuming.kept Fulfilment.buildGroup there with ahead | accepted | buried
  · exact .inl ahead
  · obtain ⟨b', o, decoded', found, assembled⟩ := h.accepted_build accepted
    obtain rfl : b = b' := Except.ok.inj (decoded.symm.trans decoded')
    exact .inr (.inl ⟨o, found, assembled⟩)
  · exact .inr (.inr buried)

/-- A record is in a partition that the bus has. -/
theorem Reachable.partition_lt {may : World → Call → Prop} (h : Reachable may y) {t : Topic}
    {p i : Nat} {r : Bus.Record} (there : (y.world.bus.log t p)[i]? = some r) :
    p < y.world.bus.partitions := by
  obtain ⟨u, mem, published⟩ := h.published there
  exact (h.known u mem _ published).1

/-- A topic without records. -/
theorem Reachable.no_record {may : World → Call → Prop} (h : Reachable may y) {t : Topic}
    (empty : y.world.bus.count t = 0) (p i : Nat) : (y.world.bus.log t p)[i]? = none := by
  cases there : (y.world.bus.log t p)[i]? with
  | none => rfl
  | some r =>
    have inside := h.partition_lt there
    rw [Bus.count, ← List.sum_eq_foldr, List.sum_eq_zero_iff] at empty
    have none := empty (y.world.bus.log t p).length
      (List.mem_map_of_mem (List.mem_range.mpr inside))
    rw [List.length_eq_zero_iff.mp none] at there
    cases there

/-- A group without lag is done with every record. -/
theorem Reachable.done_with (h : Reachable Pipeline y) {g : String} {t : Topic}
    (lag : y.world.bus.lag g t = 0) {p i : Nat} {r : Bus.Record}
    (there : (y.world.bus.log t p)[i]? = some r) : i < y.world.bus.offset g t p := by
  have inside := h.partition_lt there
  have within := (List.getElem?_eq_some_iff.mp there).1
  rw [Bus.lag, ← List.sum_eq_foldr, List.sum_eq_zero_iff] at lag
  have none := lag _ (List.mem_map_of_mem (List.mem_range.mpr inside))
  omega

/-- A record about a payment is ahead of the assembly, or has become a record about a build, or is
a dead letter; a record about a build is ahead of the order service, or its order is assembled, or
it is a dead letter. With nothing ahead and no dead letters, every order whose payment was
announced is assembled. -/
theorem no_payment_lost (h : Reachable Pipeline y) :
    (∀ (p i : Nat) (r : Bus.Record), (y.world.bus.log .paid p)[i]? = some r →
      ∃ e, PaymentCompleted.decode .paid r.payload = .ok e ∧
        (y.world.bus.offset Assembly.group .paid p ≤ i ∨
          (∃ b, y.world.IsAnnounced b ∧ b.order = e.order) ∨
          ∃ q k : Nat, (y.world.bus.log .paidDeadLetters q)[k]? = some r)) ∧
    (∀ (p i : Nat) (r : Bus.Record), (y.world.bus.log .assembled p)[i]? = some r →
      ∃ b, BuildCompleted.decode .assembled r.payload = .ok b ∧
        (y.world.bus.offset Fulfilment.buildGroup .assembled p ≤ i ∨
          (∃ o, y.world.store.orders.find? b.order = some o ∧ o.status = .assembled) ∨
          ∃ q k : Nat, (y.world.bus.log .assembledDeadLetters q)[k]? = some r)) ∧
    (y.world.bus.lag Assembly.group .paid = 0 →
      y.world.bus.lag Fulfilment.buildGroup .assembled = 0 →
      y.world.bus.count .paidDeadLetters = 0 → y.world.bus.count .assembledDeadLetters = 0 →
      ∀ (p i : Nat) (r : Bus.Record), (y.world.bus.log .paid p)[i]? = some r →
        ∃ e o, PaymentCompleted.decode .paid r.payload = .ok e ∧
          y.world.store.orders.find? e.order = some o ∧ o.status = .assembled) := by
  refine ⟨fun p i r there => h.payment_kept there, fun p i r there => h.build_kept there, ?_⟩
  intro lag lag' letters letters' p i r there
  have done := h.done_with lag there
  obtain ⟨e, decoded, ahead | ⟨b, ⟨q, k, s, there', built⟩, order⟩ | ⟨q, k, letter⟩⟩ :=
    h.payment_kept there
  · omega
  · have done' := h.done_with lag' there'
    obtain ⟨b', built', ahead | ⟨o, found, assembled⟩ | ⟨q', k', letter⟩⟩ := h.build_kept there'
    · omega
    · obtain rfl : b = b' := Except.ok.inj (built.symm.trans built')
      exact ⟨e, o, decoded, order ▸ found, assembled⟩
    · rw [h.no_record letters'] at letter
      cases letter
  · rw [h.no_record letters] at letter
    cases letter

/-- The order service reads the build that was announced. -/
def buildRead : List Act :=
  .begin (.poll (Workers.orderService .direct .usual) none 0) :: List.replicate 8 (.move 5)

theorem no_payment_lost_one_build :
    let y := ((Yard.empty 1 true ⟨0, 0, 0⟩).play oneBuild).play buildRead
    y.world.bus.lag Assembly.group .paid = 0 ∧
      y.world.bus.lag Fulfilment.buildGroup .assembled = 0 ∧
      ∃ e o, (∃ r, (y.world.bus.log .paid 0)[0]? = some r ∧
        PaymentCompleted.decode .paid r.payload = .ok e) ∧
        y.world.store.orders.find? e.order = some o ∧ o.status = .assembled := by
  intro y
  have reached : Reachable Pipeline y := by
    refine reachable_oneBuild.play fun w c mem => ?_
    simp only [buildRead, List.mem_cons, List.mem_replicate, Act.begin.injEq, reduceCtorEq,
      and_false, or_false] at mem
    subst mem
    exact ⟨.poll (Workers.orderService_mem .usual .log .usual) none 0,
      fun b same => by cases same⟩
  obtain ⟨lag, lag', letters, letters', paid⟩ : y.world.bus.lag Assembly.group .paid = 0 ∧
      y.world.bus.lag Fulfilment.buildGroup .assembled = 0 ∧
      y.world.bus.count .paidDeadLetters = 0 ∧ y.world.bus.count .assembledDeadLetters = 0 ∧
      0 < (y.world.bus.log .paid 0).length := by
    decide +kernel
  obtain ⟨-, -, assembled⟩ := no_payment_lost reached
  obtain ⟨e, o, decoded, found, status⟩ :=
    assembled lag lag' letters letters' 0 0 _ (List.getElem?_eq_getElem paid)
  exact ⟨lag, lag', e, o, ⟨_, List.getElem?_eq_getElem paid, decoded⟩, found, status⟩

end Yard
end Shipyard

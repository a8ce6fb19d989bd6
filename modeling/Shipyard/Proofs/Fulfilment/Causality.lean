import Shipyard.Proofs.Fulfilment.Announcements

/-!
# Store and events agree

What is announced about an order is so in the store, and a build is announced for a paid order only.
Therefore the completion of an announced build finds its order paid, or assembled by then, at
whatever moment it looks.
-/

namespace Shipyard

/-- A build that some record tells of. -/
def World.IsAnnounced (w : World) (b : BuildCompleted) : Prop :=
  ∃ (p i : Nat) (r : Bus.Record), (w.bus.log .assembled p)[i]? = some r ∧
    BuildCompleted.decode .assembled r.payload = .ok b

theorem World.IsAnnounced.of_grows {w w' : World} {b : BuildCompleted} (h : w.IsAnnounced b)
    (grown : w.Grows w') : w'.IsAnnounced b := by
  obtain ⟨p, i, r, there, decoded⟩ := h
  exact ⟨p, i, r, grown.record there, decoded⟩

theorem World.IsAnnounced.of_record {w : World} {b : BuildCompleted} {p i : Nat} {key : String}
    (there : (w.bus.log .assembled p)[i]? = some ⟨key, (Event.build b).encode⟩) :
    w.IsAnnounced b := by
  refine ⟨p, i, _, there, ?_⟩
  dsimp only
  exact b.decode_encode

/-- The order was paid when the encounter happened. -/
def Encounter.FindsSettled (id : OrderId) (e : Encounter) : Prop :=
  ∃ (w w' : World) (o : Order), w.Meets e w' ∧ w.store.orders.find? id = some o ∧
    o.status.isSettled = true

namespace Fulfilment

theorem read_settled {id : OrderId} {x : Except Store.Error (Option Order)}
    (h : Encounter.FindsSettled id (.reply (.readOrder id) x)) :
    (∃ e, x = .error e) ∨ ∃ o, x = .ok (some o) ∧ o.status.isSettled = true := by
  obtain ⟨w, w', o, met, found, settled⟩ := h
  have told : x = w.store.read id := met.reply (by simp)
  rw [Store.read] at told
  split at told
  · exact .inl ⟨_, told⟩
  · exact .inr ⟨o, by rw [told, found], settled⟩

theorem change_settled {id : OrderId} {e : Store.Error}
    (h : Encounter.FindsSettled id (.reply (.changeOrder id .paid .assembled) (.error e))) :
    unassembled e ≠ .ok .skipped := by
  obtain ⟨w, w', o, met, found, settled⟩ := h
  have told := met.reply (by simp)
  simp only [World.answer, World.tried_map] at told
  cases changed : w.store.transition id .paid .assembled w.today with
  | ok s => simp [changed] at told
  | error e' =>
    simp only [changed] at told
    cases told
    cases e with
    | mismatch i expected actual =>
      obtain ⟨o', found', status, other⟩ := Store.transition_mismatch changed
      obtain rfl : o = o' := Option.some.inj (found.symm.trans found')
      have assembled : actual = .assembled := by
        rw [status] at settled
        revert settled other
        cases actual <;> simp [Order.Status.isSettled]
      simp [assembled, unassembled]
    | notFound i =>
      rw [Store.transition_notFound changed] at found
      cases found
    | _ => simp [unassembled]

/-- A completion that finds its order paid whenever it looks does not skip it. -/
theorem Completing.not_skipped {id : OrderId} {tr : Trace}
    {x : Except HandlerError BuildOutcome} (h : Completing id tr (.done x))
    (found : ∀ e ∈ tr, Encounter.FindsSettled id e) : x ≠ .ok .skipped := by
  cases h with
  | unread e => simp
  | absent =>
    rcases read_settled (x := .ok none) (found _ (by simp)) with ⟨e, same⟩ | ⟨o, same, -⟩
    · cases same
    · cases same
  | duplicate o assembled => simp
  | unsettled o unsettled =>
    rcases read_settled (x := .ok (some o)) (found _ (by simp)) with
      ⟨e, same⟩ | ⟨o', same, settled⟩
    · cases same
    · cases same
      rw [settled] at unsettled
      cases unsettled
  | refused o paid e => exact change_settled (found _ (by simp))
  | assembled o paid o' => simp

/-- A completion that neither failed nor skipped its order leaves it assembled. -/
theorem Completing.assembles {w : World} {id : OrderId} {tr : Trace} {outcome : BuildOutcome}
    (h : Completing id tr (.done (.ok outcome))) (other : outcome ≠ .skipped)
    (known : ∀ e ∈ tr, e.Holds w) :
    ∃ o, w.store.orders.find? id = some o ∧ o.status = .assembled := by
  generalize ended : (Job.done (.ok outcome) : Job (Except HandlerError BuildOutcome)) = j at h
  cases h with
  | absent => cases ended; exact absurd rfl other
  | duplicate o assembled =>
    obtain ⟨o', found, older⟩ := known (.reply (.readOrder id) (.ok (some o))) (by simp)
    have leads := older.status
    rw [assembled] at leads
    exact ⟨o', found, Order.Status.assembled_of_leadsTo leads⟩
  | unsettled o unsettled => cases ended; exact absurd rfl other
  | refused o paid e =>
    have answer : unassembled e = .ok outcome := (Job.done.inj ended).symm
    cases e with
    | mismatch i expected actual =>
      have assembled : actual = .assembled := by
        cases actual with
        | assembled => rfl
        | _ => exact absurd (Except.ok.inj answer).symm other
      obtain ⟨o', found, leads⟩ := known
        (.reply (.changeOrder id .paid .assembled) (.error (.mismatch i expected actual))) (by simp)
      rw [assembled] at leads
      exact ⟨o', found, Order.Status.assembled_of_leadsTo leads⟩
    | notFound i => exact absurd (Except.ok.inj answer).symm other
    | _ => cases answer
  | assembled o paid o' =>
    obtain ⟨status, -, o'', found, older⟩ :=
      known (.reply (.changeOrder id .paid .assembled) (.ok o')) (by simp)
    have leads := older.status
    rw [status] at leads
    exact ⟨o'', found, Order.Status.assembled_of_leadsTo leads⟩
  | _ => cases ended

end Fulfilment

namespace Workers

variable {build : Assembly.Config} {channel : Notice.Channel} {config : Consumer.Config}
  {c : Consumer} {signal : Option Signal} {p : Nat} {tr : Trace}
  {j : Job (Except Bus.Error Bool)}

/-- What a worker delivers it has read before. -/
theorem fetched_of_delivered (worker : c ∈ all .direct build channel config)
    (path : (c.pollPartition signal p).After tr j) {g : String} {m : Bus.Message}
    {history : List Delivery} (mem : .reply (.deliver g m) history ∈ tr) :
    ∃ i m', .reply (.fetch c.topic p i) (.ok (some m')) ∈ tr ∧ m.topic = m'.topic ∧
      m.payload = m'.payload := by
  rcases poll_mem worker path mem with same | ⟨i, same⟩ | ⟨i, m', fetched, asked⟩
  · cases same
  · cases same
  rcases asked with own | quiet | ⟨e, -, -, u, elapsed, same⟩
  · generalize same : Request.deliver g m = r at own
    cases own with
    | deliver number =>
      cases same
      exact ⟨i, m', fetched, rfl, rfl⟩
    | _ => cases same
  · cases quiet
  · cases same

end Workers

/-- The completion of a build was run to its end: it was called, or a handler of the group in which
builds are read was handed a record that tells of the build. -/
inductive Thread.Applies (b : BuildCompleted) (x : Except HandlerError Fulfilment.BuildOutcome) :
    Thread → Prop
  | called (tr : Trace) : Applies b x ⟨.complete b, tr, .done x⟩
  | delivered {c : Consumer} {signal : Option Signal} {p : Nat} {m : Bus.Message}
      {history : List Delivery} {before mid after : Trace} {j : Job (Except Bus.Error Bool)}
      (group : c.group = Fulfilment.buildGroup)
      (decoded : BuildCompleted.decode m.topic m.payload = .ok b)
      (path : (Fulfilment.completeBuild .direct b).After mid (.done x)) :
      Applies b x
        ⟨.poll c signal p, before ++ .reply (.deliver c.group m) history :: (mid ++ after), j⟩

namespace Yard

/-- Any call of the service may begin at any time, but builds are completed only after they were
announced. -/
def Pipeline (w : World) (c : Call) : Prop :=
  c.OfService ∧ ∀ b, c = .complete b → w.IsAnnounced b

variable {y : Yard}

theorem Reachable.serving (h : Reachable Pipeline y) : Reachable Serving y :=
  h.mono fun _ _ allowed => allowed.1

/-- The order of an announced build is paid. -/
theorem Reachable.announced_settled (h : Reachable Serving y) {b : BuildCompleted}
    (announced : y.world.IsAnnounced b) :
    ∃ o, y.world.store.orders.find? b.order = some o ∧ o.status.isSettled = true ∧
      o.user = b.user := by
  obtain ⟨p, i, r, there, decoded⟩ := announced
  obtain ⟨b', q, k, e, s, decoded', -, paid, read, order, user⟩ := h.assembled_record there
  obtain rfl : b = b' := Except.ok.inj (decoded.symm.trans decoded')
  obtain ⟨e', o, read', -, found, settled, same, -⟩ := h.paid_record_true paid
  obtain rfl : e = e' := Except.ok.inj (read.symm.trans read')
  rw [← order, ← user]
  exact ⟨o, found, settled, same⟩

/-- Whenever a completion looks at its order, the build has been announced, so the order is
paid. -/
theorem Reachable.finds_settled (h : Reachable Pipeline y) {t : Thread} (mem : t ∈ y.threads)
    {b : BuildCompleted} (before mid after : Trace) (trace : t.trace = before ++ (mid ++ after))
    (announced : ∀ y₀, Reachable Pipeline y₀ → ∀ t₀ ∈ y₀.threads, t₀.call = t.call →
      before <+: t₀.trace → y₀.world.IsAnnounced b) :
    ∀ e ∈ mid, e.FindsSettled b.order := by
  intro e he
  obtain ⟨earlier, later, rfl⟩ := List.append_of_mem he
  have split : t.trace = (before ++ earlier) ++ e :: (later ++ after) := by simp [trace]
  obtain ⟨y₀, w, t₀, reached, -, mem₀, call, trace₀, met⟩ := h.happened mem split
  have told := announced y₀ reached t₀ mem₀ call (trace₀ ▸ List.prefix_append _ _)
  obtain ⟨o, found, settled, -⟩ := reached.serving.announced_settled told
  exact ⟨y₀.world, w, o, met, found, settled⟩

/-- A completion that was called has its announcement behind it. -/
theorem Reachable.called_announced (h : Reachable Pipeline y) {t : Thread} (mem : t ∈ y.threads)
    {b : BuildCompleted} (call : t.call = .complete b) : y.world.IsAnnounced b := by
  obtain ⟨y₀, -, run, -, announced⟩ := h.begun t mem
  exact (announced b call).of_grows run.grows

/-- A record about a build that was handed to a handler is there. -/
theorem Reachable.delivered_announced (h : Reachable Pipeline y) {t : Thread} (mem : t ∈ y.threads)
    {c : Consumer} {signal : Option Signal} {p : Nat} (call : t.call = .poll c signal p)
    (group : c.group = Fulfilment.buildGroup) {m : Bus.Message} {history : List Delivery}
    (delivered : .reply (.deliver c.group m) history ∈ t.trace) {b : BuildCompleted}
    (decoded : BuildCompleted.decode m.topic m.payload = .ok b) : y.world.IsAnnounced b := by
  have path := h.coherent t mem
  have known := h.known t mem
  have service := h.serving.served t mem
  obtain ⟨call', tr, j⟩ := t
  dsimp only at path known service call delivered
  subst call
  cases service with
  | poll worker =>
    obtain ⟨i, m', fetched, topic, payload⟩ := Workers.fetched_of_delivered worker path delivered
    obtain rfl := Workers.eq_of_group worker (Workers.orderService_mem ..) group
    obtain ⟨r, there, rfl⟩ := known _ fetched
    rw [topic, payload] at decoded
    exact ⟨p, i, r, there, decoded⟩

/-- What a completion met with, it met with when the order was paid. -/
theorem Reachable.applies (h : Reachable Pipeline y) {t : Thread} (mem : t ∈ y.threads)
    {b : BuildCompleted} {x : Except HandlerError Fulfilment.BuildOutcome}
    (applies : t.Applies b x) :
    ∃ mid, (∀ e ∈ mid, e ∈ t.trace) ∧ Fulfilment.Completing b.order mid (.done x) ∧
      ∀ e ∈ mid, e.FindsSettled b.order := by
  cases applies with
  | called tr =>
    refine ⟨tr, fun e he => he, Fulfilment.complete_course (h.coherent _ mem), ?_⟩
    refine h.finds_settled mem [] tr [] (by simp) ?_
    intro y₀ reached t₀ mem₀ call _
    exact reached.called_announced mem₀ call
  | @delivered c signal p m history before mid after j group decoded path =>
    refine ⟨mid, fun e he => by simp [he], Fulfilment.complete_course path, ?_⟩
    refine h.finds_settled mem (before ++ [.reply (.deliver c.group m) history]) mid after
      (by simp) ?_
    intro y₀ reached t₀ mem₀ call longer
    have delivered : .reply (.deliver c.group m) history ∈ t₀.trace := longer.subset (by simp)
    exact reached.delivered_announced mem₀ call group delivered decoded

/-- Every record about a payment tells what the store has, and there is one for each order at most;
the orders without one are those whose announcement failed or is to come. Every record about a
build is about an order of such a record, and no completion of an announced build skips its
order. -/
theorem store_and_events_agree (h : Reachable Pipeline y) :
    (∀ (p i : Nat) (r : Bus.Record), (y.world.bus.log .paid p)[i]? = some r →
      ∃ e o, PaymentCompleted.decode .paid r.payload = .ok e ∧ r.key = e.order.text ∧
        y.world.store.orders.find? e.order = some o ∧ o.status.isSettled = true ∧
        o.user = e.user ∧ o.method = some e.method ∧ o.transaction = some e.transaction) ∧
    (∀ (p i q k : Nat) (r s : Bus.Record) (e e' : PaymentCompleted),
      (y.world.bus.log .paid p)[i]? = some r → (y.world.bus.log .paid q)[k]? = some s →
      PaymentCompleted.decode .paid r.payload = .ok e →
      PaymentCompleted.decode .paid s.payload = .ok e' → e.order = e'.order → p = q ∧ i = k) ∧
    y.world.settledCount = y.world.bus.count .paid + y.threads.countP Thread.isUnannounced +
      y.threads.countP Thread.isAnnouncing ∧
    (y.world.meter.enabled = true → y.world.meter.count (.publishFailures .paid) =
      y.threads.countP Thread.isUnannounced % 0x10000000000000000) ∧
    (∀ (p i : Nat) (r : Bus.Record), (y.world.bus.log .assembled p)[i]? = some r →
      ∃ (b : BuildCompleted) (q k : Nat) (s : Bus.Record) (e : PaymentCompleted) (o : Order),
        BuildCompleted.decode .assembled r.payload = .ok b ∧ r.key = b.order.text ∧
        (y.world.bus.log .paid q)[k]? = some s ∧
        PaymentCompleted.decode .paid s.payload = .ok e ∧ e.order = b.order ∧
        y.world.store.orders.find? b.order = some o ∧ o.user = b.user) ∧
    (∀ t ∈ y.threads, ∀ b x, t.Applies b x → x ≠ .ok .skipped) := by
  have served := h.serving
  refine ⟨fun p i r there => served.paid_record_true there, ?_, served.paid_balance,
    served.failure_count, ?_, ?_⟩
  · intro p i q k r s e e' there there' decoded decoded' same
    obtain ⟨e₁, -, read, key, -⟩ := served.paid_record_true there
    obtain ⟨e₂, -, read', key', -⟩ := served.paid_record_true there'
    obtain rfl : e = e₁ := Except.ok.inj (decoded.symm.trans read)
    obtain rfl : e' = e₂ := Except.ok.inj (decoded'.symm.trans read')
    exact served.paid_record_unique there there' (by rw [key, key', same])
  · intro p i r there
    obtain ⟨b, q, k, e, s, built, key, paid, decoded, order, -⟩ := served.assembled_record there
    obtain ⟨o, found, -, user⟩ := served.announced_settled ⟨p, i, r, there, built⟩
    exact ⟨b, q, k, s, e, o, built, key, paid, decoded, order, found, user⟩
  · intro t mem b x applies
    obtain ⟨mid, -, path, found⟩ := h.applies mem applies
    exact path.not_skipped found

/-- The second identifier that is given out. -/
def secondOrder : OrderId := ⟨World.mintedUuid 2⟩

/-- Two orders are paid, the second one while the bus is down; the ship of the first one is
built. -/
def oneBuild : List Act :=
  takingOneOrder ++ [.begin (.create (.ofSeconds 5) ⟨"u"⟩ [⟨"bolt"⟩] none)] ++
    List.replicate 6 (.move 1) ++ [.begin (.pay (.ofSeconds 5) firstOrder .card)] ++
    List.replicate 9 (.move 2) ++
    [.flip (.bus true), .begin (.pay (.ofSeconds 5) secondOrder .sbp)] ++
    List.replicate 10 (.move 3) ++
    [.flip (.bus false), .begin (.poll (Workers.assembly ⟨.ofSeconds 0, 1, 1⟩ .usual) none 0)] ++
    List.replicate 12 (.move 4)

theorem reachable_oneBuild : Reachable Pipeline ((Yard.empty 1 true ⟨0, 0, 0⟩).play oneBuild) := by
  refine Reachable.play (.empty 1 true ⟨0, 0, 0⟩) fun w c mem => ?_
  simp only [oneBuild, takingOneOrder, List.mem_append, List.mem_cons, List.mem_replicate,
    Act.begin.injEq, reduceCtorEq, List.not_mem_nil, and_false, false_or, or_false] at mem
  rcases mem with (((rfl | rfl) | rfl) | rfl) | rfl
  · exact ⟨.create _ _ _ _, fun b same => by cases same⟩
  · exact ⟨.create _ _ _ _, fun b same => by cases same⟩
  · exact ⟨.pay _ _ _, fun b same => by cases same⟩
  · exact ⟨.pay _ _ _, fun b same => by cases same⟩
  · exact ⟨.poll (Workers.assembly_mem ⟨.ofSeconds 0, 1, 1⟩ .log .usual) none 0,
      fun b same => by cases same⟩

theorem store_and_events_agree_one_build :
    let y := (Yard.empty 1 true ⟨0, 0, 0⟩).play oneBuild
    y.world.settledCount = 2 ∧ y.world.bus.count .paid = 1 ∧
      y.world.meter.count (.publishFailures .paid) = 1 ∧
      ∃ b o, (∃ r, (y.world.bus.log .assembled 0)[0]? = some r ∧
        BuildCompleted.decode .assembled r.payload = .ok b) ∧
        y.world.store.orders.find? b.order = some o ∧ o.user = b.user := by
  intro y
  have reached : Reachable Pipeline y := reachable_oneBuild
  obtain ⟨-, -, balance, failures, builds, -⟩ := store_and_events_agree reached
  obtain ⟨records, unannounced, announcing, on, built⟩ : y.world.bus.count .paid = 1 ∧
      y.threads.countP Thread.isUnannounced = 1 ∧ y.threads.countP Thread.isAnnouncing = 0 ∧
      y.world.meter.enabled = true ∧ 0 < (y.world.bus.log .assembled 0).length := by
    decide +kernel
  obtain ⟨b, _, _, _, _, o, decoded, -, -, -, -, found, user⟩ :=
    builds 0 0 _ (List.getElem?_eq_getElem built)
  refine ⟨?_, records, ?_, b, o, ⟨_, List.getElem?_eq_getElem built, decoded⟩, found, user⟩
  · rw [balance, records, unannounced, announcing]
  · rw [failures on, unannounced, Nat.mod_eq_of_lt (by decide)]

end Yard
end Shipyard

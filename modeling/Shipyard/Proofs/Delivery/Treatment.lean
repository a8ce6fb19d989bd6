import Shipyard.Proofs.Delivery.Company
import Shipyard.Proofs.Delivery.Redelivery

/-!
# What becomes of a record

One poll of a partition by the only consumer of its group, with a handler that leaves the bus to
it. Whatever the handler answers, and whatever else happens meanwhile, the poll comes to its end,
and its last delivery decides whether the offset has moved and whether there is a dead letter
(`Consumer.record_treated`). That need not be the last one that may be made: the wait after it may
be cut short, or too long to be doubled.
-/

namespace Shipyard

namespace Request

variable (r : Request) (idle : r.isDeed = false)
include idle

theorem adds_of_idle (partitions : Nat) (t : Topic) (p : Nat) : r.adds partitions t p = [] := by
  cases r with
  | publish => cases idle
  | _ => rfl

theorem outcomes_of_idle (t : Topic) (g : String) : r.outcomes t g = [] := by
  unfold outcomes
  split
  · cases idle
  · rfl

end Request

namespace Encounter

/-- Why a publication failed or a wait was cut short, if that has just been met in a world. -/
def IsExplained (w : World) : Encounter → Prop
  | .reply (.publish _ _ _) (.error e) => e = Bus.unreachable ∧ w.bus.down = true
  | .woken _ signal .raised => ∃ s, signal = some s ∧ s ∈ w.raised
  | _ => True

end Encounter

theorem World.Meets.isExplained {w w' : World} {e : Encounter} (h : w.Meets e w') :
    e.IsExplained w' := by
  cases h with
  | answer r =>
    cases r with
    | publish t key payload =>
      cases down : w.bus.down with
      | true =>
        rw [World.answer_publish_down down]
        exact ⟨rfl, down⟩
      | false =>
        obtain ⟨p, w', told, -⟩ := World.answer_publish_up down t key payload
        rw [told]
        trivial
    | _ => trivial
  | mint => trivial
  | elapsed => trivial
  | raised up => exact ⟨_, rfl, up⟩

namespace Consumer

/-- A poll of one partition at work in a world, with all it has met with. -/
structure Poll where
  world : World
  trace : Trace
  job : Job (Except Bus.Error Bool)

namespace Poll

/-- Others may do something; then the poll meets with something. -/
inductive Step (others : World → World → Prop) : Poll → Poll → Prop
  | intro {w v w' : World} {tr : Trace} {j j' : Job (Except Bus.Error Bool)} {e : Encounter}
      (meanwhile : others w v) (world : v.Meets e w') (job : j.Meets e j') :
      Step others ⟨w, tr, j⟩ ⟨w', tr ++ [e], j'⟩

variable {others : World → World → Prop}

theorem exists_step (time : ∀ w v, w.Passes v → others w v) {x : Poll}
    (unfinished : ¬ x.job.IsOver) : ∃ y, Step others x y := by
  obtain ⟨w, tr, j⟩ := x
  cases j with
  | done => exact absurd trivial unfinished
  | fault => exact absurd trivial unfinished
  | ask r k => exact ⟨_, .intro (time w w (.refl w)) (.answer r) (.reply r k _)⟩
  | wait wake signal k =>
    have due : wake ≤ (w.advance wake).clock := Nat.le_max_right _ _
    exact ⟨_, .intro (time w _ ((World.Passes.refl w).tick wake)) (.elapsed due)
      (.woken wake signal k .elapsed)⟩

/-- A poll comes to its end, and what every step keeps holds there. -/
theorem inevitable (time : ∀ w v, w.Passes v → others w v) {I P : Poll → Prop}
    (keeps : ∀ x y, I x → Step others x y → I y) (ends : ∀ x, I x → x.job.IsOver → P x) {x : Poll}
    (h : I x) : Inevitable (Step others) P x := by
  obtain ⟨w, tr, j⟩ := x
  induction j using (Job.wellFounded_meets _).induction generalizing w tr with
  | _ j ih =>
    by_cases finished : j.IsOver
    · exact .now (ends _ h finished)
    · refine .later (exists_step time finished) fun y step => ?_
      have kept := keeps _ y h step
      cases step with
      | intro _ _ job => exact ih _ ⟨_, job⟩ _ _ kept

end Poll

/-- The handler leaves all deeds of consumers to the consumer. -/
def IsIdle (c : Consumer) : Prop :=
  ∀ history m signal, (c.handler history m signal).Asks fun r => r.isDeed = false

variable {c : Consumer} {signal : Option Signal} {p : Nat} {r : Bus.Record} {w : World}

theorem IsIdle.discreet (idle : c.IsIdle) : c.IsDiscreet := by
  refine fun history m signal => (idle history m signal).mono fun r isIdle concerns => ?_
  cases concerns with
  | commit => cases isIdle
  | deliver => cases isIdle

/-- In a view of deeds there is nothing of the handler. -/
theorem IsIdle.handles {β : Type} {F : Request → List β} {m : Bus.Message} (idle : c.IsIdle)
    (none : ∀ r, r.isDeed = false → F r = []) : c.Handles signal m fun r => F r = [] :=
  fun history _ => (idle history _ signal).mono none

/-- The record that a partition has for a group, as it is handed over first. -/
def upcoming (c : Consumer) (w : World) (p : Nat) (r : Bus.Record) : Bus.Message :=
  Bus.delivered c.topic p (w.bus.offset c.group c.topic p) r

/-- A poll that began in a world where the record was next has dealt with it. -/
structure Treated (c : Consumer) (signal : Option Signal) (p : Nat) (r : Bus.Record) (w : World)
    (xs : List Reaction) (ending : Ending) (tr : Trace) (x : Poll) : Prop where
  trace : x.trace =
    .reply (.committed c.group c.topic p) (.ok (w.bus.offset c.group c.topic p)) ::
      .reply (.fetch c.topic p (w.bus.offset c.group c.topic p))
        (.ok (some (c.upcoming w p r))) :: tr
  attempts : c.Attempts signal (c.upcoming w p r) (c.config.maxAttempts - 1) 1 c.config.backoff
    xs ending tr
  ends : Ends (max 1 c.config.maxAttempts) xs ending
  job : x.job = .lift ending.result
  offset : x.world.bus.offset c.group c.topic p =
    if ending.isSettled then w.bus.offset c.group c.topic p + 1
    else w.bus.offset c.group c.topic p
  logs : ∀ t q, x.world.bus.log t q = w.bus.log t q ++
    if ending.isBuried ∧ c.topic.deadLetters = t ∧ Bus.partitionOf r.key w.bus.partitions = q then
      [r]
    else []
  handed : x.world.handedFrom c.group c.topic p = w.handedFrom c.group c.topic p ++
    (List.range xs.length).map fun k => { c.upcoming w p r with attempt := 1 + k }
  outcomes : tr.done.flatMap (Request.outcomes c.topic c.group) =
    List.replicate (xs.length - 1) .retried ++ ending.outcomes
  moved : (∀ e, ending ≠ .refused e) ∧ ∀ position e, ending ≠ .unmoved position e
  unreachable : ∀ e, ending = .unburied e → e = Bus.unreachable ∧ x.world.bus.down = true
  stopped : ending = .stopped → ∃ s, signal = some s ∧ s ∈ x.world.raised
  sound : ∀ f, x.job = .fault f → c.MayFault signal f

/-- A poll on its way. -/
structure OnTheWay (c : Consumer) (signal : Option Signal) (p : Nat) (w : World) (x : Poll) :
    Prop where
  underway : c.Underway signal p (w.bus.offset c.group c.topic p)
    (w.bus.log c.topic p)[w.bus.offset c.group c.topic p]?
    (x.world.bus.offset c.group c.topic p) x.trace x.job
  partitions : x.world.bus.partitions = w.bus.partitions
  logs : ∀ t q, x.world.bus.log t q =
    w.bus.log t q ++ x.trace.done.flatMap (Request.adds w.bus.partitions t q)
  handed : x.world.handedFrom c.group c.topic p =
    w.handedFrom c.group c.topic p ++ x.trace.done.flatMap (Request.hands c.group c.topic p)
  last : ∀ e, x.trace.getLast? = some e → e.IsExplained x.world

theorem OnTheWay.step (idle : c.IsIdle) (inside : p < w.bus.partitions)
    (there : (w.bus.log c.topic p)[w.bus.offset c.group c.topic p]? = some r) {x y : Poll}
    (h : c.OnTheWay signal p w x) (step : Poll.Step (World.Leaves c fun _ => True) x y) :
    c.OnTheWay signal p w y := by
  obtain ⟨underway, partitions, logs, handed, -⟩ := h
  cases step with
  | @intro u v w' tr j j' e meanwhile world job =>
    dsimp only at underway partitions logs handed
    have partitions' : v.bus.partitions = w.bus.partitions := meanwhile.partitions.trans partitions
    have record : (v.bus.log c.topic p)[w.bus.offset c.group c.topic p]? = some r := by
      have before := (List.getElem?_eq_some_iff.mp there).1
      rw [meanwhile.logs _ _ trivial, logs, List.getElem?_append_left before, there]
    obtain ⟨n', underway', offset⟩ := underway.meets idle.discreet (partitions' ▸ inside)
      (meanwhile.offsets p) (record.trans there.symm) world job
    constructor
    case underway => exact offset ▸ underway'
    case partitions => exact world.partitions_eq.trans partitions'
    case logs =>
      intro t q
      rw [world.log_done, meanwhile.logs t q trivial, logs, partitions', Trace.done_append,
        Trace.done_singleton, List.flatMap_append, List.append_assoc]
    case handed =>
      rw [world.handedFrom_done, meanwhile.handedFrom, handed, Trace.done_append,
        Trace.done_singleton, List.flatMap_append, List.append_assoc]
    case last =>
      intro e' last
      obtain rfl : e = e' := Option.some.inj (List.getLast?_concat.symm.trans last)
      exact world.isExplained

theorem OnTheWay.treated (idle : c.IsIdle)
    (there : (w.bus.log c.topic p)[w.bus.offset c.group c.topic p]? = some r) {x : Poll}
    (h : c.OnTheWay signal p w x) (finished : x.job.IsOver) :
    ∃ xs ending tr, c.Treated signal p r w xs ending tr x := by
  obtain ⟨underway, -, logs, handed, explained⟩ := h
  have path := underway.path
  rw [there] at underway
  rcases underway.at_end idle.discreet finished with ⟨none, -⟩ |
    ⟨r', xs, ending, tr, same, trace, attempts, job, offset, moved⟩
  · cases none
  cases same
  have done : x.trace.done = tr.done := by rw [trace]; rfl
  rw [done] at logs handed
  have ends := attempts.ends
  have most : c.config.maxAttempts - 1 + 1 = max 1 c.config.maxAttempts := by omega
  have count : xs.length - 1 + 1 = xs.length := Nat.succ_pred_eq_of_pos attempts.length_pos
  obtain ⟨left, backoff, y, tr₁, tr₂, split, closes⟩ := attempts.closing
  have explained (e : Encounter) (last : tr₂.getLast? = some e) : e.IsExplained x.world :=
    explained e (by rw [trace, split]; simp [List.getLast?_cons, List.getLast?_append, last])
  refine ⟨xs, ending, tr, trace, attempts, most ▸ ends, job, offset, fun t q => ?_, ?_, ?_, moved,
    fun e same => ?_, fun same => ?_, fun f fault => ?_⟩
  · rw [logs t q, attempts.view (idle.handles fun r idle => r.adds_of_idle idle ..), deeds_adds]
    rfl
  · rw [handed, attempts.view (idle.discreet.hands _ p)]
    have hands := deeds_hands (m := c.upcoming w p r) (c := c) rfl ending 1 (xs.length - 1)
    rw [count] at hands
    exact congrArg _ hands
  · rw [attempts.view (idle.handles fun r idle => r.outcomes_of_idle idle ..), deeds_outcomes]
  · subst same
    exact explained _ closes.last_of_unburied
  · subst same
    obtain ⟨wake, last⟩ := closes.last_of_stopped
    exact explained _ last
  · exact poll_mayFault (fault ▸ path)

/-- A poll of a partition that has a record for the group comes to its end, whatever the handler
answers and whatever others do that leave the bus to it. Deliveries count from one and stop at the
first that did not fail, or when all have been made, or with a wait that is cut short or cannot be
doubled. The offset has moved by one, or not at all. There is one dead letter, or nothing was published; a publication
fails only while the bus is down. Every failure but the last counts as one retry. -/
theorem record_treated (idle : c.IsIdle) (inside : p < w.bus.partitions)
    (there : (w.bus.log c.topic p)[w.bus.offset c.group c.topic p]? = some r) :
    Inevitable (Poll.Step (World.Leaves c fun _ => True))
      (fun x => ∃ xs ending tr, c.Treated signal p r w xs ending tr x)
      ⟨w, [], c.pollPartition signal p⟩ := by
  have start : c.OnTheWay signal p w ⟨w, [], c.pollPartition signal p⟩ :=
    ⟨.begun, rfl, fun t q => (List.append_nil _).symm, (List.append_nil _).symm, by simp⟩
  exact Poll.inevitable (fun w v passes => passes.leaves c _)
    (fun x y (h : c.OnTheWay signal p w x) step => h.step idle inside there step)
    (fun x h finished => h.treated idle there finished) start

/-- A payment that is refused twice. Nobody else being there, it becomes a dead letter. -/
theorem record_treated_refusing :
    let c := refusing ⟨2, .ofMillis 100, .ofSeconds 5, .ofMillis 50⟩
    Inevitable (Poll.Step (World.Leaves c fun _ => True))
      (fun x => ∃ xs ending tr, c.Treated none 0 ⟨"a", [1]⟩ onePayment xs ending tr x)
      ⟨onePayment, [], c.pollPartition none 0⟩ ∧
    (onePayment.finish (c.pollPartition none 0)).1.bus.log .paidDeadLetters 0 = [⟨"a", [1]⟩] ∧
      (onePayment.finish (c.pollPartition none 0)).1.bus.offset "clerks" .paid 0 = 1 := by
  intro c
  have idle : c.IsIdle := fun _ _ _ => trivial
  exact ⟨record_treated idle (by decide) (by decide), by decide +kernel, by decide +kernel⟩

/-- Refuses every payment once. -/
def relenting : Consumer where
  group := "clerks"
  topic := .paid
  handler _ m _ := .done <| if m.attempt = 1 then .error (.failed "not now") else .ok ()
  config := ⟨3, .ofMillis 100, .ofSeconds 5, .ofMillis 50⟩

/-- The first of three deliveries may also be the last if it failed. A wait that cannot be doubled
aborts the poll, and one that begins when the signal has been raised ends at once, although the
second delivery would be accepted. -/
theorem refused_once_handed_once :
    let s : Signal := ⟨0⟩
    let c := refusing ⟨3, ⟨Span.longest⟩, .ofSeconds 5, .ofMillis 50⟩
    let aborted := onePayment.finish (c.pollPartition none 0)
    let stopped := (onePayment.answer (.raise s)).2.finish (relenting.pollPartition (some s) 0)
    let settled := onePayment.finish (relenting.pollPartition none 0)
    (c.IsIdle ∧ aborted.2 = .error .spanProduct ∧
      aborted.1.handedFrom "clerks" .paid 0 = [firstPayment] ∧
      aborted.1.bus.offset "clerks" .paid 0 = 0 ∧ aborted.1.bus.log .paidDeadLetters 0 = []) ∧
    relenting.IsIdle ∧ stopped.2 = .ok (.ok false) ∧
      stopped.1.handedFrom "clerks" .paid 0 = [firstPayment] ∧
      stopped.1.bus.offset "clerks" .paid 0 = 0 ∧
      settled.2 = .ok (.ok true) ∧ (settled.1.handedFrom "clerks" .paid 0).length = 2 := by
  intro s c aborted stopped settled
  refine ⟨⟨fun _ _ _ => trivial, ?_⟩, fun _ _ _ => trivial, ?_⟩
  · decide +kernel
  · decide +kernel

end Consumer
end Shipyard

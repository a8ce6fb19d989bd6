import Shipyard.Proofs.Delivery.Settlement
import Shipyard.Proofs.Fulfilment.Accounts
import Shipyard.Proofs.Json.Events

/-!
# Notices get asked for once

About every record that it can read, a notifier asks the channel once to send a notice. Whatever
the channel answers is counted, and then the record is done with. A record that cannot be read is
no reason to ask for anything; it becomes a dead letter after some deliveries (`drain_notifies`).
Nothing is assumed of the channel: it may fail and recover at any time.
-/

namespace Shipyard

/-- A text that the channel was asked to send, with its answer. -/
structure Sending where
  text : String
  answer : Except ChannelError Unit

def Sending.isDelivered (s : Sending) : Bool := s.answer.toBool

def Encounter.sendings : Encounter → List Sending
  | .reply (.send text) answer => [⟨text, answer⟩]
  | _ => []

namespace Trace

/-- All that the channel was asked to send, in the order of time. -/
def sendings (tr : Trace) : List Sending := tr.flatMap Encounter.sendings

/-- The texts that it has taken. -/
def delivered (tr : Trace) : List String :=
  (tr.sendings.filter Sending.isDelivered).map Sending.text

theorem sendings_append (tr tr' : Trace) :
    sendings (tr ++ tr') = tr.sendings ++ tr'.sendings := List.flatMap_append

theorem sendings_flatten (trs : List Trace) :
    sendings trs.flatten = trs.flatMap sendings := by
  rw [sendings, ← List.flatMap_id, List.flatMap_assoc]
  rfl

theorem delivered_append (tr tr' : Trace) :
    delivered (tr ++ tr') = tr.delivered ++ tr'.delivered := by
  rw [delivered, sendings_append, List.filter_append, List.map_append]
  rfl

theorem delivered_perm {tr tr' : Trace} (h : tr.Perm tr') : tr.delivered.Perm tr'.delivered :=
  ((h.flatMap_right _).filter _).map _

/-- All answers of the channel, and nothing else, have been counted as notices of a kind. -/
def IsCounted (kind : Meter.NoticeKind) (tr : Trace) : Prop :=
  ∀ delivered, (tr.map (Encounter.counts (.notices kind delivered))).sum =
    tr.sendings.countP fun s => s.isDelivered = delivered

namespace IsCounted

variable {kind : Meter.NoticeKind} {tr tr' : Trace}

theorem append (h : tr.IsCounted kind) (h' : tr'.IsCounted kind) :
    Trace.IsCounted kind (tr ++ tr') := by
  intro delivered
  rw [List.map_append, List.sum_append, h, h', sendings_append, List.countP_append]

/-- Encounters of other kinds do not matter. -/
theorem behind {e : Encounter} (unasked : e.sendings = [])
    (uncounted : ∀ delivered, e.counts (.notices kind delivered) = 0) (h : tr.IsCounted kind) :
    Trace.IsCounted kind (e :: tr) := by
  have alone : Trace.IsCounted kind [e] := by
    intro delivered
    rw [List.map_singleton, List.sum_singleton, uncounted, sendings, List.flatMap_singleton,
      unasked, List.countP_nil]
  exact alone.append h

theorem flatMap {α : Type} {xs : List α} {f : α → Trace} (each : ∀ x ∈ xs, (f x).IsCounted kind) :
    Trace.IsCounted kind (xs.flatMap f) := by
  induction xs with
  | nil => exact fun _ => rfl
  | cons x xs ih =>
    obtain ⟨first, rest⟩ := List.forall_mem_cons.mp each
    rw [List.flatMap_cons]
    exact first.append (ih rest)

/-- Where nothing has been done, nothing was sent. -/
theorem sendings_of_idle (h : tr.IsCounted kind) (idle : tr.done = []) : tr.sendings = [] := by
  refine List.eq_nil_iff_forall_not_mem.mpr fun s mem => ?_
  have none : (tr.map (Encounter.counts (.notices kind s.isDelivered))).sum = 0 := by
    refine Trace.sum_eq_zero fun e met => ?_
    have undone := List.filterMap_eq_nil_iff.mp idle e met
    unfold Encounter.counts
    split
    · cases undone
    · rfl
  rw [h, List.countP_eq_zero] at none
  exact none s mem (decide_eq_true rfl)

end IsCounted
end Trace

theorem Outbox.send_ok {o o' : Outbox} {text : String} (h : o.send text = .ok o') :
    o' = { o with sent := o.sent ++ [text] } := by
  rw [Outbox.send] at h
  split at h
  · cases h
  · exact (Except.ok.inj h).symm

namespace World

/-- The outbox keeps what it has taken. -/
theorem Meets.outbox_sent {w w' : World} {e : Encounter} (h : w.Meets e w') :
    w'.outbox.sent = w.outbox.sent ++ Trace.delivered [e] := by
  cases h.alters with
  | idle drill idle =>
    have none : Trace.delivered [e] = [] := by
      cases e with
      | woken => rfl
      | reply r x =>
        cases r with
        | send text =>
          cases x with
          | ok => cases idle
          | error => rfl
        | _ => rfl
    rw [none, List.append_nil]
  | send done =>
    obtain rfl := Outbox.send_ok done
    rfl
  | _ => exact (List.append_nil _).symm

end World

namespace Notice

/-- The consumer that sends the notices of a kind. -/
def notifier (kind : Meter.NoticeKind) (config : Consumer.Config) : Consumer :=
  match kind with
  | .orderPaid => Workers.paidNotices .outbox config
  | .orderAssembled => Workers.assembledNotices .outbox config

/-- What is read of a record for a notice of a kind. -/
def read (kind : Meter.NoticeKind) (t : Topic) (payload : Bytes) : Except Event.Refusal Event :=
  match kind with
  | .orderPaid => (PaymentCompleted.decode t payload).map .payment
  | .orderAssembled => (BuildCompleted.decode t payload).map .build

/-- Sends the notice of an event and counts the answer. -/
def tell (kind : Meter.NoticeKind) (e : Event) : Job (Except HandlerError Unit) :=
  .ask (.send (text e)) fun answer =>
    .ask (.count (.notices kind answer.toBool) 1) fun _ => .done (.ok ())

variable {kind : Meter.NoticeKind} {config : Consumer.Config} {signal : Option Signal}

theorem handler_eq (history : List Delivery) (m : Bus.Message) :
    (notifier kind config).handler history m signal =
      match read kind m.topic m.payload with
      | .error r => .done (.error (.undecodable r.message))
      | .ok e => tell kind e := by
  cases kind with
  | orderPaid =>
    show paidHandler .outbox history m signal = _
    rw [paidHandler, read]
    cases PaymentCompleted.decode m.topic m.payload with
    | error r => rfl
    | ok p => rfl
  | orderAssembled =>
    show assembledHandler .outbox history m signal = _
    rw [assembledHandler, read]
    cases BuildCompleted.decode m.topic m.payload with
    | error r => rfl
    | ok b => rfl

/-- Whatever can be decoded on its topic is something to tell about. -/
theorem read_eq (payload : Bytes) : read kind (notifier kind config).topic payload =
    Event.decode (notifier kind config).topic payload := by
  cases kind with
  | orderPaid =>
    show (PaymentCompleted.decode .paid payload).map Event.payment = Event.decode .paid payload
    rw [PaymentCompleted.decode]
    cases decoded : Event.decode .paid payload with
    | error r => rfl
    | ok e =>
      cases e with
      | payment p => rfl
      | build b => cases Event.kind_of_decode decoded
  | orderAssembled =>
    show (BuildCompleted.decode .assembled payload).map Event.build =
      Event.decode .assembled payload
    rw [BuildCompleted.decode]
    cases decoded : Event.decode .assembled payload with
    | error r => rfl
    | ok e =>
      cases e with
      | payment p => cases Event.kind_of_decode decoded
      | build b => rfl

theorem handler_asks (history : List Delivery) (m : Bus.Message) :
    ((notifier kind config).handler history m signal).Asks fun r =>
      (∃ text, r = .send text) ∨ ∃ delivered, r = .count (.notices kind delivered) 1 := by
  rw [handler_eq]
  cases read kind m.topic m.payload with
  | error r => trivial
  | ok e => exact ⟨.inl ⟨_, rfl⟩, fun answer => ⟨.inr ⟨_, rfl⟩, fun _ => trivial⟩⟩

/-- A notifier neither waits nor fails but for what it cannot read. -/
theorem handler_over {history : List Delivery} {m : Bus.Message} {tr : Trace}
    {x : Consumer.Reaction}
    (path : ((notifier kind config).handler history m signal).After tr (.lift x)) :
    (∃ r, read kind m.topic m.payload = .error r ∧ x = .ok (.error (.undecodable r.message)) ∧
      tr = []) ∨
    ∃ e answer, read kind m.topic m.payload = .ok e ∧ x = .ok (.ok ()) ∧
      tr = [.reply (.send (text e)) answer,
        .reply (.count (.notices kind answer.toBool) 1) ()] := by
  have lift_ne_ask {r : Request} {k : r.Reply → Job (Except HandlerError Unit)} :
      Job.lift x ≠ .ask r k := by
    cases x <;> nofun
  have lift_done {y : Except HandlerError Unit} (same : Job.lift x = .done y) : x = .ok y := by
    cases x with
    | error f => cases same
    | ok y' => exact congrArg Except.ok (Job.done.inj same)
  rw [handler_eq] at path
  cases found : read kind m.topic m.payload with
  | error r =>
    rw [found] at path
    obtain ⟨rfl, same⟩ := Job.after_done_iff.mp path
    exact .inl ⟨r, rfl, lift_done same, rfl⟩
  | ok e =>
    rw [found] at path
    rcases Job.after_ask_iff.mp path with ⟨-, same⟩ | ⟨answer, tr, rfl, path₁⟩
    · exact absurd same lift_ne_ask
    rcases Job.after_ask_iff.mp path₁ with ⟨-, same⟩ | ⟨counted, tr, rfl, path₂⟩
    · exact absurd same lift_ne_ask
    obtain ⟨rfl, same⟩ := Job.after_done_iff.mp path₂
    exact .inr ⟨e, answer, rfl, lift_done same, rfl⟩

theorem steady : (notifier kind config).IsSteady signal where
  discreet history m signal := (handler_asks history m).mono fun r asked concerns => by
    rcases asked with ⟨text, rfl⟩ | ⟨delivered, rfl⟩ <;> cases concerns
  uncancelled history m tr path := by
    have finished : ((notifier kind config).handler history m signal).After tr
      (.lift (.ok (.error .cancelled))) := path
    rcases handler_over finished with ⟨r, -, same, -⟩ | ⟨e, answer, -, same, -⟩ <;> cases same
  unpublished history m := (handler_asks history m).mono fun r asked t key payload same => by
    subst same
    rcases asked with ⟨text, same⟩ | ⟨delivered, same⟩ <;> cases same
  silent history m := (handler_asks history m).mono fun r asked s same => by
    subst same
    rcases asked with ⟨text, same⟩ | ⟨delivered, same⟩ <;> cases same

theorem primary : (notifier kind config).topic.isDeadLetters = false := by
  cases kind <;> rfl

theorem mayFault {f : Fault} (h : (notifier kind config).MayFault signal f) :
    f = .spanProduct ∧ ¬ config.IsMild := by
  rcases h with ⟨rfl, wild⟩ | ⟨history, m, tr, path⟩
  · refine ⟨rfl, ?_⟩
    cases kind <;> exact wild
  · have finished : ((notifier kind config).handler history m signal).After tr
      (.lift (.error f)) := path
    rcases handler_over finished with ⟨r, -, same, -⟩ | ⟨e, answer, -, same, -⟩ <;> cases same

/-! ## Polls -/

/-- The text of the notice about a payload that can be read on a topic. -/
def text? (t : Topic) (payload : Bytes) : Option String :=
  match Event.decode t payload with
  | .error _ => none
  | .ok e => some (text e)

section Polls

variable {m : Bus.Message} {number left p : Nat} {backoff : Span} {x : Consumer.Reaction}
  {xs : List Consumer.Reaction} {ending : Consumer.Ending} {tr : Trace}

/-- A delivery fails if the payload cannot be read. If it can be, the channel is asked once. -/
theorem delivers_asks (about : m.topic = (notifier kind config).topic)
    (h : (notifier kind config).Delivers signal m number x tr) :
    x.isFailure = (text? m.topic m.payload).isNone ∧
      tr.sendings.map Sending.text = (text? m.topic m.payload).toList := by
  cases h with
  | intro history path =>
    have decoded : read kind m.topic m.payload = Event.decode m.topic m.payload :=
      about ▸ read_eq m.payload
    rw [text?, ← decoded]
    rcases handler_over path with ⟨r, found, rfl, rfl⟩ | ⟨e, answer, found, rfl, rfl⟩
    · have found : read kind m.topic m.payload = .error r := found
      rw [found]
      exact ⟨rfl, rfl⟩
    · have found : read kind m.topic m.payload = .ok e := found
      rw [found]
      exact ⟨rfl, rfl⟩

theorem delivers_counted (h : (notifier kind config).Delivers signal m number x tr) :
    tr.IsCounted kind := by
  cases h with
  | intro history path =>
    intro delivered
    rcases handler_over path with ⟨r, -, -, rfl⟩ | ⟨e, answer, -, -, rfl⟩
    · rfl
    · by_cases same : Except.toBool answer = delivered <;>
        simp [Encounter.counts, Trace.sendings, Encounter.sendings, Sending.isDelivered, same]

theorem closes_sendings {c : Consumer} (h : c.Closes signal m backoff left x ending tr) :
    tr.sendings = [] := by
  cases h <;> rfl

theorem closes_counted {c : Consumer} (h : c.Closes signal m backoff left x ending tr) :
    tr.IsCounted kind := by
  cases h <;> exact fun _ => rfl

theorem attempts_ask (about : m.topic = (notifier kind config).topic)
    (h : (notifier kind config).Attempts signal m left number backoff xs ending tr) :
    (∀ x ∈ xs, x.isFailure = (text? m.topic m.payload).isNone) ∧
      tr.sendings.map Sending.text = (text? m.topic m.payload).toList := by
  induction h with
  | last delivers closes =>
    obtain ⟨failure, asked⟩ := delivers_asks about delivers
    rw [Trace.sendings_append, closes_sendings closes, List.append_nil]
    exact ⟨List.forall_mem_singleton.mpr failure, asked⟩
  | again delivers failure next rest ih =>
    obtain ⟨unread, asked⟩ := delivers_asks about delivers
    obtain ⟨unread', asked'⟩ := ih
    refine ⟨List.forall_mem_cons.mpr ⟨unread, unread'⟩, ?_⟩
    -- Only what cannot be read is delivered again, so no delivery has asked for anything.
    have none := Option.isNone_iff_eq_none.mp (unread.symm.trans failure)
    rw [none, Option.toList_none, List.map_eq_nil_iff] at asked asked' ⊢
    rw [Trace.sendings_append, asked, List.nil_append]
    exact asked'

theorem attempts_counted
    (h : (notifier kind config).Attempts signal m left number backoff xs ending tr) :
    tr.IsCounted kind := by
  induction h with
  | last delivers closes => exact (delivers_counted delivers).append (closes_counted closes)
  | again delivers failure next rest ih =>
    refine (delivers_counted delivers).append ?_
    exact .behind rfl (fun _ => rfl) (.behind rfl (fun _ => rfl) (.behind rfl (fun _ => rfl) ih))

/-- When a poll is over, all answers of the channel have been counted. -/
theorem poll_counted {j : Job (Except Bus.Error Bool)}
    (path : ((notifier kind config).pollPartition signal p).After tr j) (finished : j.IsOver) :
    tr.IsCounted kind := by
  cases Consumer.poll_course path with
  | fetched i m path' =>
    obtain ⟨xs, ending, attempts, -⟩ := Consumer.attempt_over path' finished
    have counted := attempts_counted attempts
    exact .behind rfl (fun _ => rfl) (.behind rfl (fun _ => rfl) counted)
  | _ => exact fun _ => rfl

end Polls

end Notice

/-! ## Drains -/

namespace Consumer

/-- The records of a partition that the group is not done with, in the order of their offsets. -/
def pending (c : Consumer) (w : World) (p : Nat) : List Bus.Record :=
  (w.bus.log c.topic p).drop (w.bus.offset c.group c.topic p)

theorem pending_eq (c : Consumer) (w : World) (p : Nat) : c.pending w p =
    (List.range (c.backlog w p)).map fun i =>
      ⟨(c.awaiting w p i).key, (c.awaiting w p i).payload⟩ := by
  refine List.ext_getElem? fun i => ?_
  rw [pending, List.getElem?_drop, List.getElem?_map]
  by_cases behind : i < c.backlog w p
  · have inside : w.bus.offset c.group c.topic p + i < (w.bus.log c.topic p).length := by
      rw [backlog] at behind
      omega
    simp [behind, awaiting, Bus.firstAt, Bus.delivered, inside]
  · have beyond : (w.bus.log c.topic p).length ≤ w.bus.offset c.group c.topic p + i := by
      rw [backlog] at behind
      omega
    simp [behind, beyond]

end Consumer

namespace Notice

variable {kind : Meter.NoticeKind} {config : Consumer.Config} {signal : Option Signal}

/-- Others leave to a notifier the records, the outbox and the counters. But the channel may fail
and recover. -/
structure Others (kind : Meter.NoticeKind) (config : Consumer.Config) (signal : Option Signal)
    (w v : World) : Prop extends World.LeavesAlone (notifier kind config) signal w v where
  sent : v.outbox.sent = w.outbox.sent
  counts : ∀ delivered,
    v.meter.count (.notices kind delivered) = w.meter.count (.notices kind delivered)
  enabled : v.meter.enabled = w.meter.enabled

theorem others_of_passes {w v : World} (h : w.Passes v) : Others kind config signal w v := by
  refine ⟨h.leavesAlone _ _, ?_, ?_, ?_⟩ <;> obtain ⟨time, today, rfl⟩ := h
  · rfl
  · exact fun _ => rfl
  · rfl

/-- The texts of the notices about the records of a partition that the notifier is not done with. -/
def due (c : Consumer) (w : World) (p : Nat) : List String :=
  (c.pending w p).filterMap fun r => text? c.topic r.payload

/-- Those of these records that cannot be read, as they go to a partition of dead letters. -/
def unreadable (c : Consumer) (w : World) (q : Nat) : List Bus.Record :=
  (List.range w.bus.partitions).flatMap fun p => (c.pending w p).filter fun r =>
    text? c.topic r.payload = none ∧ Bus.partitionOf r.key w.bus.partitions = q

open Consumer (Chronicle)

/-- What holds in a round of a drain that began in the world `w`, after so many rounds. -/
structure Telling (kind : Meter.NoticeKind) (config : Consumer.Config) (signal : Option Signal)
    (w : World) (rounds : Nat) (x : Chronicle) : Prop where
  settling : x.Settling (notifier kind config) signal w rounds
  balanced : ∀ p, p < w.bus.partitions → ∀ tr ∈ x.past p, tr.IsCounted kind
  sent : x.world.outbox.sent.Perm (w.outbox.sent ++ (x.events w.bus.partitions).delivered)
  enabled : x.world.meter.enabled = w.meter.enabled
  counted : w.meter.enabled = true → ∀ delivered,
    ((x.world.meter.count (.notices kind delivered) : ℕ) : ZMod 0x10000000000000000) =
      (w.meter.count (.notices kind delivered) +
        ((x.events w.bus.partitions).map (Encounter.counts (.notices kind delivered))).sum : ℕ)

namespace Telling

variable {w v w' : World} {rounds p : Nat} {x : Chronicle}

theorem start (up : w.bus.down = false) (quiet : w.IsQuiet signal) :
    Telling kind config signal w 0 (.start w) := by
  have none : (Chronicle.start w).events w.bus.partitions = [] :=
    List.flatMap_eq_nil_iff.mpr fun p _ => rfl
  refine ⟨.start up quiet, fun p _ tr mem => (nomatch mem), ?_, rfl, fun _ delivered => ?_⟩ <;>
    rw [none]
  · exact .of_eq (List.append_nil _).symm
  · rfl

theorem meanwhile (h : Telling kind config signal w rounds x)
    (others : Others kind config signal x.world v) :
    Telling kind config signal w rounds { x with world := v } := by
  refine ⟨h.settling.meanwhile others.toLeavesAlone, h.balanced, ?_,
    others.enabled.trans h.enabled, fun on delivered => ?_⟩
  · rw [others.sent]
    exact h.sent
  · rw [others.counts]
    exact h.counted on delivered

theorem note (h : Telling kind config signal w rounds x) (inside : p < w.bus.partitions)
    {j j' : Job (Except Bus.Error Bool)} {e : Encounter}
    (path : ((notifier kind config).pollPartition signal p).After (x.now p) j)
    (world : x.world.Meets e w') (job : j.Meets e j') :
    Telling kind config signal w rounds (x.note w' p e) := by
  have longer := x.events_note w' inside e
  refine ⟨h.settling.note steady primary inside path world job, h.balanced, ?_,
    world.enabled.trans h.enabled, fun on delivered => ?_⟩
  · refine List.Perm.trans ?_ ((Trace.delivered_perm longer).symm.append_left _)
    rw [Trace.delivered_append, ← List.append_assoc]
    show w'.outbox.sent.Perm _
    rw [world.outbox_sent]
    exact h.sent.append_right _
  · show ((w'.meter.count (.notices kind delivered) : ℕ) : ZMod 0x10000000000000000) = _
    rw [world.counts _ (h.enabled.trans on), h.counted on, (longer.map _).sum_eq]
    simp [add_assoc]

theorem close (h : Telling kind config signal w rounds x)
    {results : Nat → Except Bus.Error Bool}
    (ended : x.Ended (notifier kind config) signal w.bus.partitions results) :
    Telling kind config signal w (rounds + 1)
      (x.close x.world (Chronicle.gain w.bus.partitions results)) := by
  have events (n : Nat) : (x.close x.world n).events w.bus.partitions =
      x.events w.bus.partitions := by
    rw [Chronicle.events, Chronicle.story_close, Chronicle.events]
  refine ⟨h.settling.close steady ended, fun p inside tr mem => ?_, ?_, h.enabled, ?_⟩
  · rcases List.mem_append.mp mem with earlier | last
    · exact h.balanced p inside tr earlier
    · obtain rfl := List.mem_singleton.mp last
      exact poll_counted (ended p inside) trivial
  · rw [events]
    exact h.sent
  · rw [events]
    exact h.counted

end Telling

/-- A drain that began in a world has asked for the notices that were due, and for no others. -/
structure Notified (kind : Meter.NoticeKind) (config : Consumer.Config) (w : World) (x : Chronicle)
    (k : Consumer.Worker) : Prop where
  stage : k.stage =
    .ended (.ok (w.bus.lag (notifier kind config).group (notifier kind config).topic))
  lag : x.world.bus.lag (notifier kind config).group (notifier kind config).topic = 0
  asked : ∀ p, p < w.bus.partitions →
    (x.story p).sendings.map Sending.text = due (notifier kind config) w p
  sent : x.world.outbox.sent.Perm (w.outbox.sent ++ (x.events w.bus.partitions).delivered)
  buried : ∀ q, (x.world.bus.log (notifier kind config).topic.deadLetters q).Perm
    (w.bus.log (notifier kind config).topic.deadLetters q ++
      unreadable (notifier kind config) w q)
  counted : w.meter.enabled = true → ∀ delivered,
    x.world.meter.count (.notices kind delivered) % 0x10000000000000000 =
      (w.meter.count (.notices kind delivered) +
        (x.events w.bus.partitions).sendings.countP fun s => s.isDelivered = delivered) %
          0x10000000000000000
  total : w.meter.enabled = true →
    (x.world.meter.count (.notices kind true) + x.world.meter.count (.notices kind false)) %
        0x10000000000000000 =
      (w.meter.count (.notices kind true) + w.meter.count (.notices kind false) +
        ((List.range w.bus.partitions).flatMap (due (notifier kind config) w)).length) %
          0x10000000000000000

section Settled

variable {w : World} {rounds p : Nat} {x : Chronicle} {k : Consumer.Worker}
  {answers : Nat → Nat → List Consumer.Reaction}

theorem settles_asks {i : Nat} {xs : List Consumer.Reaction} {ending : Consumer.Ending} {tr : Trace}
    (h : (notifier kind config).Settles signal w p i xs ending tr) :
    (∀ x ∈ xs, x.isFailure = (text? (notifier kind config).topic
      ((notifier kind config).awaiting w p i).payload).isNone) ∧
    tr.sendings.map Sending.text = (text? (notifier kind config).topic
      ((notifier kind config).awaiting w p i).payload).toList := by
  obtain ⟨rest, rfl, attempts, -⟩ := h
  obtain ⟨failures, asked⟩ := attempts_ask rfl attempts
  exact ⟨failures, asked⟩

theorem asked_of_settled (h : Telling kind config signal w rounds x) (fresh : x.now = fun _ => [])
    (settled : x.Settled (notifier kind config) signal w answers k)
    (inside : p < w.bus.partitions) :
    (x.story p).sendings.map Sending.text = due (notifier kind config) w p := by
  have enough : (notifier kind config).backlog w p ≤ (x.past p).length := by
    by_contra few
    obtain ⟨ending, tr, there, -⟩ := settled.answered p inside _ (Nat.lt_of_not_le few)
    simp at there
  have story : (x.story p).sendings.map Sending.text =
      (x.past p).flatMap fun tr => tr.sendings.map Sending.text := by
    rw [Chronicle.story, fresh, List.append_nil, Trace.sendings_flatten, List.map_flatMap]
  rw [story, due, Consumer.pending_eq, List.filterMap_map, List.filterMap_eq_flatMap_toList]
  refine Consumer.flatMap_eq_range enough fun i tr there => ?_
  split
  · next behind =>
    obtain ⟨ending, tr', there', settles⟩ := settled.answered p inside i behind
    obtain rfl := Option.some.inj (there'.symm.trans there)
    exact (settles_asks settles).2
  · next beyond =>
    have idle := ((h.settling.along p inside).past i tr there).2 (Nat.not_lt.mp beyond)
    have balanced := h.balanced p inside tr (List.mem_of_getElem? there)
    rw [balanced.sendings_of_idle idle, List.map_nil]

/-- The deliveries of a record fail if and only if it cannot be read. -/
theorem fallen_of_settled (settled : x.Settled (notifier kind config) signal w answers k)
    (q : Nat) : Chronicle.fallen (notifier kind config) w answers q =
      unreadable (notifier kind config) w q := by
  refine List.flatMap_congr fun p mem => ?_
  have inside := List.mem_range.mp mem
  rw [Consumer.pending_eq, ← List.filterMap_eq_filter, List.filterMap_map,
    List.filterMap_eq_flatMap_toList]
  refine List.flatMap_congr fun i mem' => ?_
  have behind := List.mem_range.mp mem'
  obtain ⟨ending, tr, -, settles⟩ := settled.answered p inside i behind
  obtain ⟨some, -⟩ := settled.few p inside i behind
  have failures : (∀ x ∈ answers p i, x.isFailure = true) ↔
      text? (notifier kind config).topic ((notifier kind config).awaiting w p i).payload =
        none := by
    have same := (settles_asks settles).1
    rw [← Option.isNone_iff_eq_none]
    constructor
    · intro all
      obtain ⟨x, mem⟩ := List.exists_mem_of_length_pos some
      exact (same x mem).symm.trans (all x mem)
    · intro unread x mem
      exact (same x mem).trans unread
  simp only [failures, Function.comp_apply, Option.guard, decide_eq_true_eq]
  split <;> rfl

theorem counted_of_settled (h : Telling kind config signal w rounds x)
    (fresh : x.now = fun _ => []) : (x.events w.bus.partitions).IsCounted kind := by
  refine Trace.IsCounted.flatMap fun p mem => ?_
  rw [Chronicle.story, fresh, List.append_nil, ← List.flatMap_id]
  exact Trace.IsCounted.flatMap (h.balanced p (List.mem_range.mp mem))

theorem length_of_asked
    (asked : ∀ p, p < w.bus.partitions →
      (x.story p).sendings.map Sending.text = due (notifier kind config) w p) :
    (x.events w.bus.partitions).sendings.length =
      ((List.range w.bus.partitions).flatMap (due (notifier kind config) w)).length := by
  rw [Chronicle.events, Trace.sendings, List.flatMap_assoc, List.length_flatMap,
    List.length_flatMap]
  congr 1
  refine List.map_congr_left fun p mem => ?_
  rw [← asked p (List.mem_range.mp mem), List.length_map]
  rfl

/-- The drain has ended. -/
theorem Telling.notified (h : Telling kind config signal w rounds x) (fresh : x.now = fun _ => [])
    (settled : x.Settled (notifier kind config) signal w answers k) :
    Notified kind config w x k := by
  have asked (p : Nat) (inside : p < w.bus.partitions) :
      (x.story p).sendings.map Sending.text = due (notifier kind config) w p :=
    asked_of_settled h fresh settled inside
  have counted (on : w.meter.enabled = true) (delivered : Bool) :
      x.world.meter.count (.notices kind delivered) % 0x10000000000000000 =
        (w.meter.count (.notices kind delivered) +
          (x.events w.bus.partitions).sendings.countP fun s => s.isDelivered = delivered) %
            0x10000000000000000 := by
    rw [← counted_of_settled h fresh delivered]
    exact (ZMod.natCast_eq_natCast_iff' _ _ _).mp (h.counted on delivered)
  refine ⟨settled.stage, settled.lag, asked, h.sent, fun q => ?_, counted, fun on => ?_⟩
  · rw [← fallen_of_settled settled q]
    exact settled.buried q
  · have all : ((x.events w.bus.partitions).sendings.countP fun s => s.isDelivered = true) +
        ((x.events w.bus.partitions).sendings.countP fun s => s.isDelivered = false) =
        ((List.range w.bus.partitions).flatMap (due (notifier kind config) w)).length := by
      rw [← length_of_asked asked,
        List.length_eq_countP_add_countP Sending.isDelivered]
      simp
    rw [Nat.add_mod, counted on, counted on, ← Nat.add_mod, ← all]
    congr 1
    omega

end Settled

def someBuild : Event := .build { event := ⟨⟨1⟩⟩, order := ⟨⟨2⟩⟩, user := ⟨"u"⟩, seconds := 90 }

/-- A build behind something that cannot be read, while the channel is down. -/
def twoRecords : World :=
  let w := World.empty 1 true ⟨0, 0, 0⟩
  let w := (w.answer (.publish .assembled "a" [1])).2
  { (w.answer (.publish .assembled "b" someBuild.encode)).2 with outbox := ⟨[], true⟩ }

def twice : Consumer.Config := { Consumer.Config.usual with maxAttempts := 2 }

/-- A backoff that cannot be doubled aborts the drain at the record that cannot be read. -/
example :
    let c := notifier .orderAssembled { twice with backoff := ⟨Span.longest⟩ }
    (Consumer.drained c twoRecords).2.threads.map (fun x => x.2.stage.fault?) =
      [some .spanProduct] := by
  decide +kernel

end Notice
end Shipyard

import Shipyard.Proofs.Delivery.Crew
import Shipyard.Proofs.Delivery.Poll
import Shipyard.Proofs.Effects
import Shipyard.Proofs.Json.Events

/-!
# Where a poll stands

A poll of one of the four workers goes from place to place: it has not read yet, it knows the
offset, it holds a record whose effect it has or has not had, it has settled the record, found
none, or was stopped. `Site.Move` says how the place and the world change together in one step, and
`poll_follows` that every poll of a worker makes no other moves while no failure switch is thrown
and all records can be read, whatever else happens between its steps.
-/

namespace Shipyard

/-- The record that announces an event. -/
def Event.record (e : Event) : Bus.Record := ⟨e.key, e.encode⟩

/-- The four workers, by what they do. -/
inductive Duty
  | complete
  | build
  | tellPaid
  | tellAssembled
deriving DecidableEq

namespace Duty

def group : Duty → String
  | .complete => Fulfilment.buildGroup
  | .build => Assembly.group
  | .tellPaid => Notice.paidGroup
  | .tellAssembled => Notice.assembledGroup

def topic : Duty → Topic
  | .complete => .assembled
  | .build => .paid
  | .tellPaid => .paid
  | .tellAssembled => .assembled

def handler (c : Assembly.Config) : Duty → Handler
  | .complete => Fulfilment.buildHandler .direct
  | .build => Assembly.handler c
  | .tellPaid => Notice.paidHandler .outbox
  | .tellAssembled => Notice.assembledHandler .outbox

def consumer (build : Assembly.Config) (config : Consumer.Config) (d : Duty) : Consumer :=
  ⟨d.group, d.topic, d.handler build, config⟩

def all : List Duty := [.complete, .build, .tellPaid, .tellAssembled]

theorem group_injective : Function.Injective group := by
  intro d d' same
  cases d <;> cases d' <;> first | rfl | exact absurd same (by decide)

end Duty

namespace World

/-- What the workers act upon is the same in both worlds. -/
structure Alike (w w' : World) : Prop where
  store : w'.store = w.store
  bus : w'.bus = w.bus
  outbox : w'.outbox = w.outbox
  raised : w'.raised = w.raised

theorem Alike.refl (w : World) : w.Alike w := ⟨rfl, rfl, rfl, rfl⟩

/-- No failure switch is thrown; every record announces an event of its topic, and every build is
that of an order that was paid. -/
structure Fit (w : World) : Prop where
  reads : w.store.readsDown = false
  writes : w.store.writesDown = false
  bus : w.bus.down = false
  channel : w.outbox.down = false
  events : ∀ (d : Duty) (p i : Nat) (r : Bus.Record), (w.bus.log d.topic p)[i]? = some r →
    ∃ e : Event, e.topic = d.topic ∧ r = e.record
  builds : ∀ (p i : Nat) (b : BuildCompleted), p < w.bus.partitions →
    (w.bus.log .assembled p)[i]? = some (Event.build b).record → w.isSettled b.order = true

end World

/-- A request whose answer leaves everything alike. -/
def Request.isPlain : Request → Bool
  | .raise _ => false
  | .insertOrder _ => false
  | .changeOrder _ _ _ => false
  | .setWritesDown _ => false
  | .publish _ _ _ => false
  | .commit _ _ _ _ => false
  | .send _ => false
  | _ => true

theorem World.Meets.alike {w w' : World} {r : Request} {x : r.Reply}
    (h : w.Meets (.reply r x) w') (plain : r.isPlain = true) : w.Alike w' := by
  cases h.alters with
  | raise => cases plain
  | insertOrder => cases plain
  | changeOrder => cases plain
  | setWritesDown => cases plain
  | publish => cases plain
  | commit => cases plain
  | send => cases plain
  | _ => exact ⟨rfl, rfl, rfl, rfl⟩

namespace Duty

/-- The effect that a record is to have, once. -/
inductive Does : Duty → Event → World → World → Prop
  | complete {b : BuildCompleted} {o : Order} {now : Instant} {w w' : World}
      (found : w.store.orders.find? b.order = some o) (paid : o.status = .paid)
      (store : w'.store = { w.store with
        orders := w.store.orders.put b.order { o with status := .assembled, updatedAt := now } })
      (bus : w'.bus = w.bus) (outbox : w'.outbox = w.outbox) (raised : w'.raised = w.raised) :
      Does .complete (.build b) w w'
  /-- The order was assembled before. -/
  | again {b : BuildCompleted} {o : Order} {w w' : World}
      (found : w.store.orders.find? b.order = some o) (assembled : o.status = .assembled)
      (same : w.Alike w') : Does .complete (.build b) w w'
  | build {p : PaymentCompleted} {b : BuildCompleted} {w w' : World} (order : b.order = p.order)
      (user : b.user = p.user)
      (bus : w'.bus = w.bus.append .assembled
        (Bus.partitionOf (Event.build b).key w.bus.partitions) (Event.build b).record)
      (store : w'.store = w.store) (outbox : w'.outbox = w.outbox) (raised : w'.raised = w.raised) :
      Does .build (.payment p) w w'
  | tell {d : Duty} {e : Event} {w w' : World} (teller : d = .tellPaid ∨ d = .tellAssembled)
      (outbox : w'.outbox = { w.outbox with sent := w.outbox.sent ++ [Notice.text e] })
      (store : w'.store = w.store) (bus : w'.bus = w.bus) (raised : w'.raised = w.raised) :
      Does d e w w'

end Duty

inductive Place
  | reading
  | located (offset : Nat)
  /-- The record was read; the flag tells whether it has had its effect. -/
  | holding (offset : Nat) (e : Event) (made : Bool)
  | settled
  | emptied (offset : Nat)
  | stopped

namespace Place

/-- Whether the record at the offset has had its effect. -/
def credit : Place → Nat
  | .holding _ _ true => 1
  | _ => 0

/-- What a poll that ends at a place results in. -/
def result? : Place → Option Bool
  | .settled => some true
  | .emptied _ => some false
  | .stopped => some false
  | _ => none

theorem settled_of_result {π : Place} (h : π.result? = some true) : π = .settled := by
  cases π <;> first | rfl | cases h

theorem credit_of_result {π : Place} {b : Bool} (h : π.result? = some b) : π.credit = 0 := by
  cases π <;> first | rfl | cases h

end Place

/-- A partition that a worker polls. In calm waters nobody adds to the topic meanwhile. -/
structure Site where
  duty : Duty
  partition : Nat
  signal : Option Signal
  calm : Prop

namespace Site

variable {s : Site} {α β : Type}

def offset (s : Site) (w : World) : Nat := w.bus.offset s.duty.group s.duty.topic s.partition

def log (s : Site) (w : World) : List Bus.Record := w.bus.log s.duty.topic s.partition

def IsStopped (s : Site) (w : World) : Prop := ∃ signal, s.signal = some signal ∧ signal ∈ w.raised

/-- What a poll knows at a place. -/
def Knows (s : Site) (w : World) : Place → Prop
  | .reading => True
  | .located n => s.offset w = n
  | .holding n e _ => s.offset w = n ∧ e.topic = s.duty.topic ∧ (s.log w)[n]? = some e.record
  | .settled => True
  | .emptied n => s.calm → s.offset w = n ∧ (s.log w).length ≤ n
  | .stopped => s.IsStopped w

/-- One move of a poll. -/
inductive Move (s : Site) : Place → World → Place → World → Prop
  | idle {π : Place} {w w' : World} (same : w.Alike w') : Move s π w π w'
  | locate {w w' : World} (same : w.Alike w') : Move s .reading w (.located (s.offset w)) w'
  | take {n : Nat} {e : Event} {w w' : World} (same : w.Alike w')
      (kind : e.topic = s.duty.topic) (there : (s.log w)[n]? = some e.record) :
      Move s (.located n) w (.holding n e false) w'
  | miss {n : Nat} {w w' : World} (same : w.Alike w') (none : (s.log w).length ≤ n) :
      Move s (.located n) w (.emptied n) w'
  | act {n : Nat} {e : Event} {w w' : World} (does : s.duty.Does e w w') :
      Move s (.holding n e false) w (.holding n e true) w'
  | commit {n : Nat} {e : Event} {w w' : World}
      (bus : w.bus.commit s.duty.group s.duty.topic s.partition (n + 1) = .ok w'.bus)
      (store : w'.store = w.store) (outbox : w'.outbox = w.outbox) (raised : w'.raised = w.raised) :
      Move s (.holding n e true) w .settled w'
  | stop {n : Nat} {e : Event} {w w' : World} (same : w.Alike w') (up : s.IsStopped w) :
      Move s (.holding n e false) w .stopped w'

/-- A poll may rely on this when it moves. -/
structure Sees (s : Site) (w : World) (π : Place) : Prop where
  fit : w.Fit
  inside : s.partition < w.bus.partitions
  knows : s.Knows w π

/-- From a place on, a job makes no moves but those of a poll, and ends as it should. Between its
steps the world may change as long as what the poll knows stays true. -/
def Follows (s : Site) (ends : Place → α → Prop) : Job α → Place → Prop
  | .done x, π => ends π x
  | .fault _, _ => False
  | .ask r k, π => ∀ w x w', s.Sees w π → w.Meets (.reply r x) w' →
      ∃ π', s.Move π w π' w' ∧ s.Follows ends (k x) π'
  | .wait wake signal k, π => ∀ w x w', s.Sees w π → w.Meets (.woken wake signal x) w' →
      ∃ π', s.Move π w π' w' ∧ s.Follows ends (k x) π'

theorem Follows.meets {ends : Place → α → Prop} {j j' : Job α} {π : Place} {w w' : World}
    {e : Encounter} (h : s.Follows ends j π) (sees : s.Sees w π) (world : w.Meets e w')
    (job : j.Meets e j') : ∃ π', s.Move π w π' w' ∧ s.Follows ends j' π' := by
  cases job with
  | reply r k x => exact h w x w' sees world
  | woken wake signal k x => exact h w x w' sees world

theorem Follows.bind {first : Place → α → Prop} {ends : Place → β → Prop} {j : Job α}
    {f : α → Job β} {π : Place} (h : s.Follows first j π)
    (next : ∀ π x, first π x → s.Follows ends (f x) π) : s.Follows ends (j.bind f) π := by
  induction j generalizing π with
  | done x => exact next π x h
  | fault => exact h
  | ask r k ih =>
    intro w x w' sees world
    obtain ⟨π', move, rest⟩ := h w x w' sees world
    exact ⟨π', move, ih x rest⟩
  | wait wake signal k ih =>
    intro w x w' sees world
    obtain ⟨π', move, rest⟩ := h w x w' sees world
    exact ⟨π', move, ih x rest⟩

theorem Follows.mono {ends ends' : Place → α → Prop} {j : Job α} {π : Place}
    (h : s.Follows ends j π) (imp : ∀ π x, ends π x → ends' π x) : s.Follows ends' j π := by
  rw [← j.bind_done]
  exact h.bind imp

theorem follows_plain {ends : Place → α → Prop} {r : Request} {k : r.Reply → Job α} {π : Place}
    (plain : r.isPlain = true) (rest : ∀ x, s.Follows ends (k x) π) :
    s.Follows ends (.ask r k) π := by
  intro w x w' sees world
  exact ⟨π, .idle (world.alike plain), rest x⟩

/-- A request that is answered by the world. -/
theorem follows_answer {ends : Place → α → Prop} {r : Request} {k : r.Reply → Job α} {π : Place}
    (known : r ≠ .mint)
    (answered : ∀ w, s.Sees w π → ∃ x w' π', w.answer r = (x, w') ∧ s.Move π w π' w' ∧
      s.Follows ends (k x) π') : s.Follows ends (.ask r k) π := by
  intro w x w' sees world
  obtain ⟨y, v, π', told, move, rest⟩ := answered w sees
  cases world with
  | answer =>
    rw [told]
    exact ⟨π', move, rest⟩
  | mint => exact absurd rfl known

theorem follows_wait {ends : Place → α → Prop} {wake : Nat} {k : Wakeup → Job α} {π : Place}
    (elapsed : s.Follows ends (k .elapsed) π)
    (raised : ∀ w, s.IsStopped w → ∃ π', s.Move π w π' w ∧ s.Follows ends (k .raised) π') :
    s.Follows ends (.wait wake s.signal k) π := by
  intro w x w' sees world
  obtain rfl := world.woken_eq
  cases x with
  | elapsed => exact ⟨π, .idle (.refl _), elapsed⟩
  | raised =>
    generalize same : s.signal = signal at world
    cases world with
    | raised up => exact raised w' ⟨_, same, up⟩

end Site

namespace Consumer

/-- How a poll ends. -/
def Polled (π : Place) (x : Except Bus.Error Bool) : Prop := ∃ b, π.result? = some b ∧ x = .ok b

/-- How the handling of a record ends: it has had its effect, or was stopped before. -/
def Handled (n : Nat) (e : Event) (π : Place) (x : Except HandlerError Unit) : Prop :=
  (π = .holding n e true ∧ x = .ok ()) ∨ (π = .stopped ∧ x = .error .cancelled)

end Consumer

namespace Site

variable {s : Site} {build : Assembly.Config} {config : Consumer.Config} {n : Nat} {e : Event}

/-- The record that is held, as it is handed to the handler. -/
def message (s : Site) (n : Nat) (e : Event) : Bus.Message :=
  Bus.delivered s.duty.topic s.partition n e.record

theorem accept_follows :
    s.Follows Consumer.Polled ((s.duty.consumer build config).accept (s.message n e))
      (.holding n e true) := by
  refine follows_answer (by simp) fun w sees => ?_
  obtain ⟨here, -, -⟩ := sees.knows
  have ahead : ¬ n + 1 < w.bus.offset s.duty.group s.duty.topic s.partition := by
    have : w.bus.offset s.duty.group s.duty.topic s.partition = n := here
    omega
  obtain ⟨b, committed⟩ : ∃ b, w.bus.commit s.duty.group s.duty.topic s.partition (n + 1) =
      .ok b := by
    simp [Bus.commit, Bus.known, sees.inside, ahead, bind, Except.bind]
  refine ⟨.ok (), { w with bus := b }, .settled, ?_, .commit committed rfl rfl rfl, ?_⟩
  · show w.tried ((w.bus.commit s.duty.group s.duty.topic s.partition (n + 1)).map _) = _
    rw [World.tried_map, committed]
  · exact follows_plain rfl fun _ => ⟨true, rfl, rfl⟩

/-- A record whose handling ends as it should is dealt with at the first delivery. -/
theorem attempt_follows (handled : ∀ history number,
      s.Follows (Consumer.Handled n e) (s.duty.handler build history
        { s.message n e with attempt := number } s.signal) (.holding n e false))
    (left number : Nat) (backoff : Span) :
    s.Follows Consumer.Polled
      ((s.duty.consumer build config).attempt s.signal (s.message n e) left number backoff)
      (.holding n e false) := by
  rw [Consumer.attempt_eq]
  refine follows_plain rfl fun history => (handled history number).bind ?_
  rintro π x (⟨rfl, rfl⟩ | ⟨rfl, rfl⟩)
  · exact accept_follows
  · exact follows_plain rfl fun _ => ⟨false, rfl, rfl⟩

theorem poll_follows (handled : ∀ n e history number, e.topic = s.duty.topic →
      s.Follows (Consumer.Handled n e) (s.duty.handler build history
        { s.message n e with attempt := number } s.signal) (.holding n e false)) :
    s.Follows Consumer.Polled
      ((s.duty.consumer build config).pollPartition s.signal s.partition) .reading := by
  refine follows_answer (by simp) fun w sees => ?_
  have read : w.bus.committed s.duty.group s.duty.topic s.partition = .ok (s.offset w) := by
    simp [Bus.committed, Bus.known, sees.inside, bind, Except.bind, offset]
  refine ⟨.ok (s.offset w), w, .located (s.offset w), ?_, .locate (.refl w), ?_⟩
  · exact congrArg (·, w) read
  generalize s.offset w = i
  refine follows_answer (by simp) fun w sees => ?_
  cases there : (s.log w)[i]? with
  | none =>
    have fetched : w.bus.fetch s.duty.topic s.partition i = .ok none := by
      rw [log] at there
      simp [Bus.fetch, Bus.known, sees.inside, bind, Except.bind, there]
    have short : (s.log w).length ≤ i := List.getElem?_eq_none_iff.mp there
    exact ⟨.ok none, w, .emptied i, congrArg (·, w) fetched, .miss (.refl w) short, false, rfl, rfl⟩
  | some r =>
    obtain ⟨e, kind, rfl⟩ := sees.fit.events s.duty s.partition i r there
    have fetched : w.bus.fetch s.duty.topic s.partition i = .ok (some (s.message i e)) := by
      rw [log] at there
      simp [Bus.fetch, Bus.known, sees.inside, bind, Except.bind, there, message]
    exact ⟨.ok (some (s.message i e)), w, .holding i e false, congrArg (·, w) fetched,
      .take (.refl w) kind there,
      attempt_follows (fun history number => handled i e history number kind) _ _ _⟩

end Site
end Shipyard

import Shipyard.Proofs.Delivery.Deeds

/-!
# What becomes of a poll

If what a handler answers depends on the message alone, the deeds of a poll and its result can be
told beforehand from the offset of the partition, the record there and whether the bus is down:
the fate of the poll. `Errand.poll_keeps` says that the poll does these deeds in this order and none
besides, whatever happens between its steps, as long as the world keeps looking as it did to the
poll. That the poll comes to the end that was told is part of it.
-/

namespace Shipyard

/-- Whatever worlds it meets in which a signal is not raised, a job ends with a result. Until then
it does no deeds of consumers and does not raise the signal. -/
def Job.Gives {α : Type} (signal : Option Signal) (y : α) : Job α → Prop
  | .done x => x = y
  | .fault _ => False
  | .ask r k => r.isDeed = false ∧ (∀ s, signal = some s → r ≠ .raise s) ∧
      ∀ (w : World) x w', w.IsQuiet signal → w.Meets (.reply r x) w' → (k x).Gives signal y
  | .wait wake s k => ∀ (w : World) x w', w.IsQuiet signal → w.Meets (.woken wake s x) w' →
      (k x).Gives signal y

/-- The deeds of a poll in their order, and how it ends. -/
structure Fate where
  deeds : List Request
  result : Except Fault (Except Bus.Error Bool)

namespace Fate

def ended (x : Except Bus.Error Bool) : Fate := ⟨[], .ok x⟩

def after (r : Request) (φ : Fate) : Fate := ⟨r :: φ.deeds, φ.result⟩

end Fate

namespace Consumer

/-- What the handler answers depends on the message alone. -/
def Answers (c : Consumer) (signal : Option Signal)
    (answers : Bus.Message → Except HandlerError Unit) : Prop :=
  ∀ history m, (c.handler history m signal).Gives signal (answers m)

/-- From an accepted record on. -/
def acceptedFate (c : Consumer) (m : Bus.Message) : Fate :=
  .after (.commit c.group c.topic m.partition (m.offset + 1))
    (.after (c.counted .acked) (.ended (.ok true)))

/-- From the last delivery on, if it failed. -/
def buriedFate (c : Consumer) (down : Bool) (m : Bus.Message) : Fate :=
  if down then .ended (.error Bus.unreachable)
  else
    .after (.publish c.topic.deadLetters m.key m.payload)
      (.after (.commit c.group c.topic m.partition (m.offset + 1))
        (.after (c.counted .deadLettered)
          (.after (.count (.deadLettered c.topic c.group) 1) (.ended (.ok true)))))

/-- From a delivery on, by what the handler answered. -/
def outcomeFate (c : Consumer) (m : Bus.Message) (failing : Fate) :
    Except HandlerError Unit → Fate
  | .ok () => c.acceptedFate m
  | .error .cancelled => .after (c.counted .cancelled) (.ended (.ok false))
  | .error _ => failing

/-- What becomes of a record. -/
def recordFate (c : Consumer) (answers : Bus.Message → Except HandlerError Unit) (down : Bool)
    (m : Bus.Message) : Nat → Nat → Span → Fate
  | 0, number, _ =>
    .after (.deliver c.group { m with attempt := number })
      (c.outcomeFate m (c.buriedFate down m) (answers { m with attempt := number }))
  | left + 1, number, backoff =>
    .after (.deliver c.group { m with attempt := number })
      (c.outcomeFate m
        (.after (c.counted .retried)
          (match c.nextBackoff backoff with
          | .error f => ⟨[], .error f⟩
          | .ok backoff => c.recordFate answers down m left (number + 1) backoff))
        (answers { m with attempt := number }))

section Fates

variable {c : Consumer} {answers : Bus.Message → Except HandlerError Unit} {down : Bool}
  {m : Bus.Message}

/-- A statement about fates that is kept by deeds holds of the fate of a record if it holds of all
ends. What is assumed of the first backoff must last while it grows. -/
theorem recordFate_induction (P : Fate → Prop) (good : Span → Prop)
    (deed : ∀ r φ, c.Own m r → P φ → P (.after r φ)) (done : ∀ b, P (.ended (.ok b)))
    (unsent : P (.ended (.error Bus.unreachable)))
    (overflow : ∀ s f, good s → c.nextBackoff s = .error f → P ⟨[], .error f⟩)
    (longer : ∀ s s', good s → c.nextBackoff s = .ok s' → good s')
    (left number : Nat) {backoff : Span} (start : good backoff) :
    P (c.recordFate answers down m left number backoff) := by
  have outcome (failing : Fate) (h : P failing) (y : Except HandlerError Unit) :
      P (c.outcomeFate m failing y) := by
    match y with
    | .ok () => exact deed _ _ .commit (deed _ _ (.counted _) (done true))
    | .error .cancelled => exact deed _ _ (.counted _) (done false)
    | .error (.undecodable e) => exact h
    | .error (.failed e) => exact h
  induction left generalizing number backoff with
  | zero =>
    refine deed _ _ (.deliver number) (outcome _ ?_ _)
    rw [buriedFate]
    split
    · exact unsent
    · exact deed _ _ .bury (deed _ _ .commit (deed _ _ (.counted _) (deed _ _ .buried (done true))))
  | succ left ih =>
    refine deed _ _ (.deliver number) (outcome _ (deed _ _ (.counted _) ?_) _)
    cases doubled : c.nextBackoff backoff with
    | error f => exact overflow backoff f start doubled
    | ok s => exact ih (number + 1) (longer backoff s start doubled)

variable {left number : Nat} {backoff : Span}

/-- All deeds are a consumer's own, about the record. -/
theorem own_of_mem_recordFate {r : Request}
    (mem : r ∈ (c.recordFate answers down m left number backoff).deeds) : c.Own m r := by
  refine recordFate_induction (fun φ => ∀ r ∈ φ.deeds, c.Own m r) (fun _ => True) ?_ ?_ ?_ ?_ ?_
    left number trivial r mem
  · intro r φ own rest r' mem
    rcases List.mem_cons.mp mem with rfl | mem
    · exact own
    · exact rest r' mem
  · exact fun b r mem => absurd mem List.not_mem_nil
  · exact fun r mem => absurd mem List.not_mem_nil
  · exact fun s f _ _ r mem => absurd mem List.not_mem_nil
  · exact fun s s' _ _ => trivial

/-- Nothing goes wrong with the bus but that a record cannot be published. -/
theorem unreachable_of_recordFate {e : Bus.Error}
    (failed : (c.recordFate answers down m left number backoff).result = .ok (.error e)) :
    e = Bus.unreachable := by
  refine recordFate_induction (fun φ => φ.result = .ok (.error e) → e = Bus.unreachable)
    (fun _ => True) ?_ ?_ ?_ ?_ ?_ left number trivial failed
  · exact fun r φ _ rest => rest
  · exact fun b same => by cases same
  · intro same
    cases same
    rfl
  · exact fun s f _ _ same => by cases same
  · exact fun s s' _ _ => trivial

/-- Twice a backoff is a span of time, always. -/
structure Config.IsMild (config : Config) : Prop where
  backoff : 2 * config.backoff.nanos ≤ Span.longest
  maxBackoff : 2 * config.maxBackoff.nanos ≤ Span.longest

/-- So they are for all consumers of the service, of which only the number of attempts is set. -/
theorem Config.isMild_usual (attempts : Nat) :
    { Config.usual with maxAttempts := attempts }.IsMild := by
  have backoff : 2 * Config.usual.backoff.nanos ≤ Span.longest := by decide
  have maxBackoff : 2 * Config.usual.maxBackoff.nanos ≤ Span.longest := by decide
  exact ⟨backoff, maxBackoff⟩

theorem recordFate_sound (mild : c.config.IsMild) (f : Fault) :
    (c.recordFate answers down m left number c.config.backoff).result ≠ .error f := by
  refine recordFate_induction (fun φ => φ.result ≠ .error f) (fun s => 2 * s.nanos ≤ Span.longest)
    ?_ ?_ ?_ ?_ ?_ left number mild.backoff
  · exact fun r φ _ rest => rest
  · exact fun b same => by cases same
  · exact fun same => by cases same
  · intro s f short overflow
    rw [nextBackoff, Span.double, if_pos short] at overflow
    cases overflow
  · intro s s' short doubled
    rw [nextBackoff, Span.double, if_pos short] at doubled
    obtain rfl := Except.ok.inj doubled
    have most := mild.maxBackoff
    show 2 * (Span.shorter ⟨2 * s.nanos⟩ c.config.maxBackoff).nanos ≤ Span.longest
    unfold Span.shorter
    split
    · exact most
    · next least =>
      have least : 2 * s.nanos ≤ c.config.maxBackoff.nanos := Nat.not_lt.mp least
      omega

end Fates
end Consumer

/-- A poll of all partitions of a topic, and the world in which it begins. -/
structure Sweep where
  consumer : Consumer
  /-- What the handler answers. -/
  answers : Bus.Message → Except HandlerError Unit
  signal : Option Signal
  outset : World

/-- The part of it that polls one partition. -/
structure Errand extends Sweep where
  partition : Nat

namespace Errand

def offset (s : Errand) : Nat :=
  s.outset.bus.offset s.consumer.group s.consumer.topic s.partition

def record? (s : Errand) : Option Bus.Record :=
  (s.outset.bus.log s.consumer.topic s.partition)[s.offset]?

/-- The record that the poll finds, as it is handed over. -/
def message (s : Errand) (r : Bus.Record) : Bus.Message :=
  Bus.delivered s.consumer.topic s.partition s.offset r

def fate (s : Errand) : Fate :=
  match s.record? with
  | none => .ended (.ok false)
  | some r =>
    s.consumer.recordFate s.answers s.outset.bus.down (s.message r)
      (s.consumer.config.maxAttempts - 1) 1 s.consumer.config.backoff

/-- What a poll may rely on when it moves: all that its fate was told from is as it was. -/
structure Sees (s : Errand) (w : World) (φ : Fate) : Prop where
  quiet : w.IsQuiet s.signal
  down : w.bus.down = s.outset.bus.down
  inside : s.partition < w.bus.partitions
  record : (w.bus.log s.consumer.topic s.partition)[s.offset]? = s.record?
  fresh : φ.deeds = s.fate.deeds →
    w.bus.offset s.consumer.group s.consumer.topic s.partition = s.offset
  near : w.bus.offset s.consumer.group s.consumer.topic s.partition ≤ s.offset + 1

/-- A move of a poll, and what is left of its fate. -/
inductive Move (s : Errand) (w : World) : Fate → World → Fate → Prop
  | aside {φ : Fate} {w' : World} (same : w.Aside s.signal w') : Move s w φ w' φ
  | deed {φ : Fate} {r : Request} {w' : World} (does : w.Does r w') : Move s w (.after r φ) w' φ

/-- A job makes no moves but those of its fate, and ends as it was told. -/
def Keeps (s : Errand) : Job (Except Bus.Error Bool) → Fate → Prop
  | .done x, φ => φ = .ended x
  | .fault f, φ => φ = ⟨[], .error f⟩
  | .ask r k, φ => ∀ w x w', s.Sees w φ → w.Meets (.reply r x) w' →
      ∃ φ', s.Move w φ w' φ' ∧ s.Keeps (k x) φ'
  | .wait wake signal k, φ => ∀ w x w', s.Sees w φ → w.Meets (.woken wake signal x) w' →
      ∃ φ', s.Move w φ w' φ' ∧ s.Keeps (k x) φ'

variable {s : Errand} {φ : Fate}

theorem Keeps.meets {j j' : Job (Except Bus.Error Bool)} {w w' : World} {e : Encounter}
    (h : s.Keeps j φ) (sees : s.Sees w φ) (world : w.Meets e w') (job : j.Meets e j') :
    ∃ φ', s.Move w φ w' φ' ∧ s.Keeps j' φ' := by
  cases job with
  | reply r k x => exact h w x w' sees world
  | woken wake signal k x => exact h w x w' sees world

/-- A request that is none of the deeds. -/
theorem keeps_aside {r : Request} {k : r.Reply → Job (Except Bus.Error Bool)}
    (other : r.isDeed = false) (silent : ∀ signal, s.signal = some signal → r ≠ .raise signal)
    (rest : ∀ w x w', s.Sees w φ → w.Meets (.reply r x) w' → s.Keeps (k x) φ) :
    s.Keeps (.ask r k) φ := by
  intro w x w' sees world
  exact ⟨φ, .aside (world.aside other silent), rest w x w' sees world⟩

/-- A deed that the world does not refuse. -/
theorem keeps_deed {r : Request} {k : r.Reply → Job (Except Bus.Error Bool)} (known : r ≠ .mint)
    (done : ∀ w, s.Sees w (.after r φ) → ∃ x w', w.answer r = (x, w') ∧ w.Does r w' ∧
      s.Keeps (k x) φ) : s.Keeps (.ask r k) (.after r φ) := by
  intro w x w' sees world
  obtain ⟨y, v, told, does, rest⟩ := done w sees
  cases world with
  | answer =>
    rw [told]
    exact ⟨φ, .deed does, rest⟩
  | mint => exact absurd rfl known

theorem keeps_count {c : Meter.Counter} {k : Unit → Job (Except Bus.Error Bool)}
    (rest : s.Keeps (k ()) φ) : s.Keeps (.ask (.count c 1) k) (.after (.count c 1) φ) :=
  keeps_deed (by simp) fun w _ => ⟨(), _, rfl, .count c, rest⟩

/-- The handler does no deeds, and its answer is known. -/
theorem keeps_bind {α : Type} {y : α} {j : Job α} {f : α → Job (Except Bus.Error Bool)}
    (handled : j.Gives s.signal y) (rest : s.Keeps (f y) φ) : s.Keeps (j.bind f) φ := by
  induction j with
  | done x =>
    obtain rfl : x = y := handled
    exact rest
  | fault => exact handled.elim
  | ask r k ih =>
    obtain ⟨other, silent, next⟩ := handled
    exact keeps_aside other silent fun w x w' sees world => ih x (next w x w' sees.quiet world)
  | wait wake signal k ih =>
    intro w x w' sees world
    obtain rfl := world.woken_eq
    exact ⟨φ, .aside (.refl _ _), ih x (handled w' x w' sees.quiet world)⟩

/-- A wait that no signal cuts short. -/
theorem keeps_sleep {backoff : Span} {f : Wakeup → Job (Except Bus.Error Bool)}
    (rest : s.Keeps (f .elapsed) φ) : s.Keeps ((Job.sleep backoff s.signal).bind f) φ := by
  refine keeps_aside rfl (by simp) fun _ now _ _ _ => ?_
  intro w x w' sees world
  obtain rfl := world.woken_eq
  refine ⟨φ, .aside (.refl _ _), ?_⟩
  generalize same : s.signal = signal at world
  cases world with
  | elapsed => exact rest
  | raised up => exact absurd up (sees.quiet _ same)

section Records

variable {r : Bus.Record}

theorem settle_keeps {after : Job (Except Bus.Error Bool)} (rest : s.Keeps after φ) :
    s.Keeps (s.consumer.settle (s.message r) after)
      (.after (.commit s.consumer.group s.consumer.topic s.partition (s.offset + 1)) φ) := by
  refine keeps_deed (by simp) fun w sees => ?_
  obtain ⟨w', told, does⟩ := World.answer_commit sees.inside sees.near
  exact ⟨.ok (), w', told, does, rest⟩

theorem accept_keeps :
    s.Keeps (s.consumer.accept (s.message r)) (s.consumer.acceptedFate (s.message r)) :=
  settle_keeps (keeps_count rfl)

theorem deadLetter_keeps :
    s.Keeps (s.consumer.deadLetter (s.message r))
      (s.consumer.buriedFate s.outset.bus.down (s.message r)) := by
  rw [Consumer.buriedFate]
  split
  · next isDown =>
    intro w x w' sees world
    have told := w.answer_publish_down (sees.down.trans isDown) s.consumer.topic.deadLetters
      (s.message r).key (s.message r).payload
    cases world with
    | answer =>
      rw [told]
      exact ⟨_, .aside (.refl _ w), rfl⟩
  · next isUp =>
    have isUp : s.outset.bus.down = false := by simpa using isUp
    refine keeps_deed (by simp) fun w sees => ?_
    obtain ⟨p, w', told, does⟩ := w.answer_publish_up (sees.down.trans isUp)
      s.consumer.topic.deadLetters (s.message r).key (s.message r).payload
    exact ⟨.ok p, w', told, does, settle_keeps (keeps_count (keeps_count rfl))⟩

theorem outcome_keeps {left number : Nat} {backoff : Span} {φ : Fate}
    (failing : s.Keeps (s.consumer.failed s.signal (s.message r) left number backoff) φ)
    (y : Except HandlerError Unit) :
    s.Keeps (s.consumer.outcome s.signal (s.message r) left number backoff y)
      (s.consumer.outcomeFate (s.message r) φ y) := by
  match y with
  | .ok () => exact accept_keeps
  | .error .cancelled => exact keeps_count rfl
  | .error (.undecodable e) => exact failing
  | .error (.failed e) => exact failing

theorem attempt_keeps (answers : s.consumer.Answers s.signal s.answers) (left number : Nat)
    (backoff : Span) :
    s.Keeps (s.consumer.attempt s.signal (s.message r) left number backoff)
      (s.consumer.recordFate s.answers s.outset.bus.down (s.message r) left number backoff) := by
  induction left generalizing number backoff with
  | zero =>
    rw [Consumer.attempt_eq]
    refine keeps_deed (by simp) fun w _ => ⟨_, _, rfl, .deliver _ _, ?_⟩
    exact keeps_bind (answers _ _) (outcome_keeps deadLetter_keeps _)
  | succ left ih =>
    rw [Consumer.attempt_eq]
    refine keeps_deed (by simp) fun w _ => ⟨_, _, rfl, .deliver _ _, ?_⟩
    refine keeps_bind (answers _ _) (outcome_keeps (keeps_count (keeps_sleep ?_)) _)
    show s.Keeps (s.consumer.resume s.signal (s.message r) left number backoff) _
    rw [Consumer.resume]
    cases s.consumer.nextBackoff backoff with
    | error f => rfl
    | ok longer => exact ih (number + 1) longer

end Records

theorem poll_keeps (answers : s.consumer.Answers s.signal s.answers) :
    s.Keeps (s.consumer.pollPartition s.signal s.partition) s.fate := by
  refine keeps_aside rfl (by simp) fun w x w' sees world => ?_
  obtain rfl : x = .ok s.offset := by
    rw [world.reply (by simp), World.answer, Bus.committed, Bus.known, if_pos sees.inside,
      sees.fresh rfl]
    rfl
  refine keeps_aside rfl (by simp) fun w x w' sees world => ?_
  obtain rfl : x = .ok (s.record?.map s.message) := by
    rw [world.reply (by simp), World.answer, Bus.fetch, Bus.known, if_pos sees.inside, sees.record]
    rfl
  rw [fate]
  cases s.record? with
  | none => rfl
  | some r => exact attempt_keeps answers _ _ _

/-- The deeds of a poll are about the record that is found. -/
theorem own_of_mem {r : Request} (mem : r ∈ s.fate.deeds) : ∃ m : Bus.Message,
    m.topic = s.consumer.topic ∧ m.partition = s.partition ∧ m.offset = s.offset ∧
      s.consumer.Own m r := by
  rw [fate] at mem
  cases found : s.record? with
  | none =>
    rw [found] at mem
    cases mem
  | some r =>
    rw [found] at mem
    exact ⟨s.message r, rfl, rfl, rfl, Consumer.own_of_mem_recordFate mem⟩

theorem unreachable_of_fate {e : Bus.Error} (failed : s.fate.result = .ok (.error e)) :
    e = Bus.unreachable := by
  rw [fate] at failed
  cases found : s.record? with
  | none =>
    rw [found] at failed
    cases failed
  | some r =>
    rw [found] at failed
    exact Consumer.unreachable_of_recordFate failed

theorem fate_sound (mild : s.consumer.config.IsMild) (f : Fault) : s.fate.result ≠ .error f := by
  rw [fate]
  cases s.record? with
  | none => rintro ⟨⟩
  | some r => exact Consumer.recordFate_sound mild f

end Errand
end Shipyard

import Shipyard.Assembly
import Shipyard.Proofs.Delivery.Crew
import Shipyard.Proofs.Delivery.Deeds
import Shipyard.Proofs.Json.Events

/-!
# Builds and shutdowns

One build of a ship, with a shutdown that comes at any time or never, and with others at work that
leave the bus and the measurements alone. The build is announced if it is over before the shutdown
comes and the bus takes the announcement, and its length is measured however it ends.
-/

namespace Shipyard

/-- A signal that is raised at a time of the clock, or never. -/
structure Shutdown where
  signal : Signal
  time : Option Nat

namespace Shutdown

def HasCome (s : Shutdown) (now : Nat) : Prop := ∃ time ∈ s.time, time ≤ now

variable {s : Shutdown} {time now : Nat}

theorem hasCome_iff (mem : time ∈ s.time) : s.HasCome now ↔ time ≤ now := by
  constructor
  · rintro ⟨time', mem', come⟩
    obtain rfl : time = time' := Option.some.inj (mem.symm.trans mem')
    exact come
  · intro come
    exact ⟨time, mem, come⟩

theorem not_hasCome (pending : ∀ time ∈ s.time, now < time) : ¬ s.HasCome now := by
  rintro ⟨time, mem, come⟩
  have := pending time mem
  omega

end Shutdown

/-- Whether a job can go on at a time of the clock. -/
def Job.CanGo {α : Type} (s : Shutdown) (now : Nat) : Job α → Prop
  | .done _ => False
  | .fault _ => False
  | .ask _ _ => True
  | .wait wake signal _ => wake ≤ now ∨ signal = some s.signal ∧ s.HasCome now

namespace World

/-- The signal is raised from the time of the shutdown on, and not before. -/
def IsTimed (s : Shutdown) (w : World) : Prop := s.signal ∈ w.raised ↔ s.HasCome w.clock

theorem isTimed_of_pending {s : Shutdown} {w : World} (down : s.signal ∉ w.raised)
    (pending : ∀ time ∈ s.time, w.clock < time) : w.IsTimed s := by
  constructor
  · intro up
    exact absurd up down
  · intro come
    exact absurd come (Shutdown.not_hasCome pending)

/-- Others do what leaves the bus and the measurements alone. The shutdown comes at its time, and
no time passes while the job can go on. -/
structure Idles {α : Type} (s : Shutdown) (j : Job α) (w v : World) : Prop where
  bus : v.bus = w.bus
  meter : v.meter = w.meter
  timed : v.IsTimed s
  clock : w.clock ≤ v.clock
  prompt : ∀ time, w.clock ≤ time → time < v.clock → ¬ j.CanGo s time

end World

namespace Assembly

/-- A handler at work in a world. -/
abbrev Work : Type := World × Job (Except HandlerError Unit)

/-- Others may do something; then the handler meets with something. -/
inductive Step (s : Shutdown) : Work → Work → Prop
  | intro {w v w' : World} {j j' : Job (Except HandlerError Unit)} {e : Encounter}
      (meanwhile : w.Idles s j v) (world : v.Meets e w') (job : j.Meets e j') :
      Step s (w, j) (w', j')

/-- What a build has to do with in a world. -/
structure Stands (s : Shutdown) (bus : Bus) (meter : Meter) (now : Nat) (w : World) : Prop where
  bus : w.bus = bus
  meter : w.meter = meter
  clock : w.clock = now
  timed : w.IsTimed s

namespace Stands

variable {s : Shutdown} {bus : Bus} {meter : Meter} {now : Nat} {w v : World} {P : Work → Prop}

theorem idles_refl (h : Stands s bus meter now w) (j : Job (Except HandlerError Unit)) :
    w.Idles s j w where
  bus := rfl
  meter := rfl
  timed := h.timed
  clock := le_rfl
  prompt time since till := absurd till (by omega)

/-- A job that asks something is not kept waiting. -/
theorem of_idles (h : Stands s bus meter now w) {r : Request}
    {k : r.Reply → Job (Except HandlerError Unit)} (idles : w.Idles s (.ask r k) v) :
    Stands s bus meter now v where
  bus := idles.bus.trans h.bus
  meter := idles.meter.trans h.meter
  clock := by
    have late : ¬ w.clock < v.clock := fun late => idles.prompt w.clock le_rfl late trivial
    have forward := idles.clock
    have here := h.clock
    omega
  timed := idles.timed

/-! ## Requests of a build -/

theorem ask (h : Stands s bus meter now w) {r : Request}
    {k : r.Reply → Job (Except HandlerError Unit)}
    (next : ∀ v x w', Stands s bus meter now v → v.Meets (.reply r x) w' →
      Inevitable (Step s) P (w', k x)) :
    Inevitable (Step s) P (w, .ask r k) := by
  refine .later ⟨_, .intro (h.idles_refl _) (.answer r) (.reply r k _)⟩ ?_
  rintro _ ⟨meanwhile, world, job⟩
  cases job with
  | reply _ _ x => exact next _ x _ (h.of_idles meanwhile) world

theorem ask_clock (h : Stands s bus meter now w) {k : Nat → Job (Except HandlerError Unit)}
    (next : ∀ v, Stands s bus meter now v → Inevitable (Step s) P (v, k now)) :
    Inevitable (Step s) P (w, .ask .clock k) := by
  apply h.ask
  intro v x w' stands world
  cases world with
  | answer =>
    obtain rfl : v.clock = now := stands.clock
    exact next v stands

theorem ask_mint (h : Stands s bus meter now w) {k : Uuid → Job (Except HandlerError Unit)}
    (next : ∀ v u, Stands s bus meter now v → Inevitable (Step s) P (v, k u)) :
    Inevitable (Step s) P (w, .ask .mint k) := by
  apply h.ask
  intro v u w' stands world
  obtain ⟨bus', meter', clock', timed'⟩ := stands
  cases world with
  | answer => exact next _ _ ⟨bus', meter', clock', timed'⟩
  | mint => exact next _ u ⟨bus', meter', clock', timed'⟩

theorem ask_time (h : Stands s bus meter now w) {span : Span} {succeeded : Bool}
    {k : Unit → Job (Except HandlerError Unit)}
    (next : ∀ v, Stands s bus (meter.time span succeeded) now v →
      Inevitable (Step s) P (v, k ())) :
    Inevitable (Step s) P (w, .ask (.time span succeeded) k) := by
  apply h.ask
  intro v x w' stands world
  obtain ⟨bus', meter', clock', timed'⟩ := stands
  cases world with
  | answer =>
    exact next _ ⟨bus', congrArg (fun m => m.time span succeeded) meter', clock', timed'⟩

theorem ask_publish_down (h : Stands s bus meter now w) (down : bus.down = true) {t : Topic}
    {key : String} {payload : Bytes}
    {k : Except Bus.Error Bus.Position → Job (Except HandlerError Unit)}
    (next : ∀ v, Stands s bus meter now v → Inevitable (Step s) P (v, k (.error Bus.unreachable))) :
    Inevitable (Step s) P (w, .ask (.publish t key payload) k) := by
  apply h.ask
  intro v x w' stands world
  have refused := World.answer_publish_down (stands.bus ▸ down) t key payload
  cases world with
  | answer =>
    rw [refused]
    exact next v stands

theorem ask_publish_up (h : Stands s bus meter now w) (up : bus.down = false) {t : Topic}
    {key : String} {payload : Bytes}
    {k : Except Bus.Error Bus.Position → Job (Except HandlerError Unit)}
    (next : ∀ v p, Stands s
      (bus.append t (Bus.partitionOf key bus.partitions) ⟨key, payload⟩) meter now v →
      Inevitable (Step s) P (v, k (.ok p))) :
    Inevitable (Step s) P (w, .ask (.publish t key payload) k) := by
  apply h.ask
  intro v x w' stands world
  obtain ⟨rfl, meter', clock', timed'⟩ := stands
  cases world with
  | answer =>
    have accepted : v.bus.publish t key payload = .ok (⟨_, _⟩, _) := if_neg (by simp [up])
    simp only [World.answer, World.tried_map, accepted]
    exact next _ _ ⟨rfl, meter', clock', timed'⟩

/-! ## The wait of a build -/

/-- A wait that the shutdown cuts short. -/
theorem wait_raised (h : Stands s bus meter now w) {time wake : Nat} (mem : time ∈ s.time)
    (early : max time now < wake) {k : Wakeup → Job (Except HandlerError Unit)}
    (next : ∀ v, Stands s bus meter (max time now) v → Inevitable (Step s) P (v, k .raised)) :
    Inevitable (Step s) P (w, .wait wake (some s.signal) k) := by
  have here := h.clock
  have come : s.HasCome (max time now) := (Shutdown.hasCome_iff mem).mpr (Nat.le_max_left ..)
  refine .later ?_ ?_
  · -- The clock goes on to the shutdown, and the signal is raised.
    refine ⟨_, .intro (v := { w with
      clock := max time now, raised := s.signal :: w.raised }) ⟨rfl, rfl, ?_, ?_, ?_⟩
      (.raised (List.mem_cons_self ..)) (.woken wake _ k .raised)⟩
    · exact ⟨fun _ => come, fun _ => List.mem_cons_self ..⟩
    · show w.clock ≤ max time now
      omega
    · intro t since till
      change t < max time now at till
      rintro (due | ⟨-, there⟩)
      · omega
      · have := (Shutdown.hasCome_iff mem).mp there
        omega
  · rintro _ ⟨meanwhile, world, job⟩
    rename_i v _ _ _
    obtain ⟨bus', meter', timed', forward, prompt⟩ := meanwhile
    have till : ¬ max time now < v.clock := fun late =>
      prompt (max time now) (by omega) late (.inr ⟨rfl, come⟩)
    cases job with
    | woken =>
      cases world with
      | elapsed due => omega
      | raised up =>
        have since := (Shutdown.hasCome_iff mem).mp (timed'.mp up)
        exact next _ ⟨bus'.trans h.bus, meter'.trans h.meter, by omega, timed'⟩

/-- A wait that is over before the shutdown comes. -/
theorem wait_elapsed (h : Stands s bus meter now w) {wake : Nat} (later : now ≤ wake)
    (pending : ∀ time ∈ s.time, wake < time) {k : Wakeup → Job (Except HandlerError Unit)}
    (next : ∀ v, Stands s bus meter wake v → Inevitable (Step s) P (v, k .elapsed)) :
    Inevitable (Step s) P (w, .wait wake (some s.signal) k) := by
  have here := h.clock
  have waiting {t : Nat} (le : t ≤ wake) : ¬ s.HasCome t :=
    Shutdown.not_hasCome fun time mem => lt_of_le_of_lt le (pending time mem)
  refine .later ?_ ?_
  · refine ⟨_, .intro (v := { w with clock := wake }) ⟨rfl, rfl, ?_, ?_, ?_⟩
      (.elapsed (le_refl wake)) (.woken wake _ k .elapsed)⟩
    · exact World.isTimed_of_pending (fun up => waiting (by omega) (h.timed.mp up)) pending
    · show w.clock ≤ wake
      omega
    · intro t since till
      change t < wake at till
      rintro (due | ⟨-, there⟩)
      · omega
      · exact waiting (by omega) there
  · rintro _ ⟨meanwhile, world, job⟩
    rename_i v _ _ _
    obtain ⟨bus', meter', timed', forward, prompt⟩ := meanwhile
    have till : ¬ wake < v.clock := fun late => prompt wake (by omega) late (.inl le_rfl)
    cases job with
    | woken =>
      cases world with
      | elapsed due =>
        exact next _ ⟨bus'.trans h.bus, meter'.trans h.meter, by omega, timed'⟩
      | raised up => exact absurd (timed'.mp up) (waiting (by omega))

end Stands

/-! ## A build -/

/-- Thirty years of 365 days, in nanoseconds. -/
def thirtyYears : Nat := 30 * 365 * 24 * 60 * 60 * 1000000000

/-- When a build is over that begins now: after so many times the unit, of which there are no more
than 32 bits can count. The product stops at the longest span, and the timer at thirty years. -/
def Config.readyAt (c : Config) (w : World) : Nat :=
  w.clock +
    min (min (c.unit.nanos * min (min c.minUnits c.maxUnits) (2 ^ 32 - 1)) Span.longest) thirtyYears

/-- A build waits for just that. -/
theorem Config.wakeAfter_length (c : Config) (w : World) :
    Job.wakeAfter w.clock c.length = c.readyAt w := by
  have longest : Job.longestWait.nanos = thirtyYears := rfl
  have length : c.length.nanos =
      min (c.unit.nanos * min (min c.minUnits c.maxUnits) (2 ^ 32 - 1)) Span.longest := rfl
  rw [Job.wakeAfter, readyAt, ← length, ← longest, Span.shorter]
  split <;> omega

/-- No build is too long for its seconds to be counted. -/
theorem Config.seconds_lt (c : Config) (w : World) :
    (Span.mk (c.readyAt w - w.clock)).wholeSeconds < 0xffffffffffffffff := by
  have bound : c.readyAt w - w.clock ≤ thirtyYears := by
    rw [readyAt]
    omega
  have years : thirtyYears = 946080000000000000 := rfl
  show (c.readyAt w - w.clock) / 1000000000 < _
  omega

/-- How a record was handled that was handed over in a world: with which result, and what has
become of the world. -/
structure Outcome (c : Config) (s : Shutdown) (m : Bus.Message) (w : World)
    (r : Except HandlerError Unit) (v : World) : Prop where
  ok : r = .ok () ↔ (∃ p, PaymentCompleted.decode m.topic m.payload = .ok p) ∧
    (∀ time ∈ s.time, c.readyAt w ≤ time) ∧ w.bus.down = false
  /-- The one record that is added tells of the build and its whole seconds. -/
  announced : ∀ p, PaymentCompleted.decode m.topic m.payload = .ok p → r = .ok () →
    ∃ payload b, BuildCompleted.decode .assembled payload = .ok b ∧ b.order = p.order ∧
      b.user = p.user ∧ b.seconds = (Span.mk (c.readyAt w - w.clock)).wholeSeconds ∧
      v.bus = w.bus.append .assembled (Bus.partitionOf p.order.text w.bus.partitions)
        ⟨p.order.text, payload⟩
  silent : r ≠ .ok () → v.bus = w.bus
  undecodable : ∀ e, PaymentCompleted.decode m.topic m.payload = .error e →
    r = .error (.undecodable e.message) ∧ v.meter = w.meter
  cancelled : ∀ p time, PaymentCompleted.decode m.topic m.payload = .ok p → time ∈ s.time →
    time < c.readyAt w → r = .error .cancelled ∧
      v.meter = w.meter.time ⟨max time w.clock - w.clock⟩ false
  failed : ∀ p, PaymentCompleted.decode m.topic m.payload = .ok p →
    (∀ time ∈ s.time, c.readyAt w ≤ time) → w.bus.down = true →
    r = .error (.failed Bus.unreachable.message) ∧
      v.meter = w.meter.time ⟨c.readyAt w - w.clock⟩ false
  succeeded : ∀ p, PaymentCompleted.decode m.topic m.payload = .ok p →
    (∀ time ∈ s.time, c.readyAt w ≤ time) → w.bus.down = false →
    v.meter = w.meter.time ⟨c.readyAt w - w.clock⟩ true

variable {c : Config} {s : Shutdown} {m : Bus.Message} {w v : World} {p : PaymentCompleted}

theorem handler_decoded (decoded : PaymentCompleted.decode m.topic m.payload = .ok p) (c : Config)
    (history : List Delivery) (signal : Option Signal) :
    handler c history m signal =
      (assemble c p signal).bind fun r => .done (r.map fun _ => ()) := by
  rw [handler, decoded]

theorem outcome_undecodable {e : Event.Refusal}
    (refused : PaymentCompleted.decode m.topic m.payload = .error e) :
    Outcome c s m w (.error (.undecodable e.message)) w where
  ok := by simp [refused]
  announced p decoded := by cases refused.symm.trans decoded
  silent _ := rfl
  undecodable e' again := by
    cases refused.symm.trans again
    exact ⟨rfl, rfl⟩
  cancelled p time decoded := by cases refused.symm.trans decoded
  failed p decoded := by cases refused.symm.trans decoded
  succeeded p decoded := by cases refused.symm.trans decoded

theorem outcome_cancelled {time : Nat}
    (decoded : PaymentCompleted.decode m.topic m.payload = .ok p) (mem : time ∈ s.time)
    (early : time < c.readyAt w) (bus : v.bus = w.bus)
    (meter : v.meter = w.meter.time ⟨max time w.clock - w.clock⟩ false) :
    Outcome c s m w (.error .cancelled) v where
  ok := by
    constructor
    · intro same
      cases same
    · rintro ⟨-, late, -⟩
      have := late time mem
      omega
  announced _ _ same := by cases same
  silent _ := bus
  undecodable e refused := by cases decoded.symm.trans refused
  cancelled _ time' _ mem' _ := by
    obtain rfl : time = time' := Option.some.inj (mem.symm.trans mem')
    exact ⟨rfl, meter⟩
  failed _ _ late := by
    have := late time mem
    omega
  succeeded _ _ late := by
    have := late time mem
    omega

theorem outcome_failed (decoded : PaymentCompleted.decode m.topic m.payload = .ok p)
    (late : ∀ time ∈ s.time, c.readyAt w ≤ time) (down : w.bus.down = true)
    (bus : v.bus = w.bus)
    (meter : v.meter = w.meter.time ⟨c.readyAt w - w.clock⟩ false) :
    Outcome c s m w (.error (.failed Bus.unreachable.message)) v where
  ok := by simp [down]
  announced _ _ same := by cases same
  silent _ := bus
  undecodable e refused := by cases decoded.symm.trans refused
  cancelled _ time _ mem early := by
    have := late time mem
    omega
  failed _ _ _ _ := ⟨rfl, meter⟩
  succeeded _ _ _ up := by cases down.symm.trans up

theorem outcome_announced (decoded : PaymentCompleted.decode m.topic m.payload = .ok p)
    (late : ∀ time ∈ s.time, c.readyAt w ≤ time) (up : w.bus.down = false) (u : EventId)
    (bus : v.bus = w.bus.append .assembled (Bus.partitionOf p.order.text w.bus.partitions)
      ⟨p.order.text, (Event.build (completion u p ⟨c.readyAt w - w.clock⟩)).encode⟩)
    (meter : v.meter = w.meter.time ⟨c.readyAt w - w.clock⟩ true) :
    Outcome c s m w (.ok ()) v where
  ok := by simp [decoded, up]; exact late
  announced p' again _ := by
    obtain rfl : p = p' := Except.ok.inj (decoded.symm.trans again)
    refine ⟨_, completion u p ⟨c.readyAt w - w.clock⟩, BuildCompleted.decode_encode _, rfl, rfl,
      ?_, bus⟩
    exact Nat.min_eq_left (c.seconds_lt w).le
  silent other := absurd rfl other
  undecodable e refused := by cases decoded.symm.trans refused
  cancelled _ time _ mem early := by
    have := late time mem
    omega
  failed _ _ _ down := by cases down.symm.trans up
  succeeded _ _ _ _ := meter

/-- A build comes to its end and is announced exactly if its payload can be read, no shutdown comes
before it is over, and the bus works; one length is measured unless the payload cannot be read. -/
theorem announced_exactly_on_success (unit : Span) (units : Nat) (history : List Delivery)
    (timed : w.IsTimed s)
    (apart : ∀ time ∈ s.time, max time w.clock ≠ Config.readyAt ⟨unit, units, units⟩ w) :
    Inevitable (Step s)
      (fun x => ∃ r, x.2 = .done r ∧ Outcome ⟨unit, units, units⟩ s m w r x.1)
      (w, handler ⟨unit, units, units⟩ history m (some s.signal)) := by
  cases decoded : PaymentCompleted.decode m.topic m.payload with
  | error e =>
    rw [handler, decoded]
    exact .now ⟨_, rfl, outcome_undecodable decoded⟩
  | ok p =>
    rw [handler_decoded decoded]
    have stands : Stands s w.bus w.meter w.clock w := ⟨rfl, rfl, rfl, timed⟩
    have later : w.clock ≤ Config.readyAt ⟨unit, units, units⟩ w := Nat.le_add_right _ _
    refine stands.ask_clock fun v stands => ?_
    refine stands.ask_clock fun v stands => ?_
    show Inevitable (Step s) _ (v, Job.wait (Job.wakeAfter w.clock (Config.length _)) _ _)
    rw [Config.wakeAfter_length]
    by_cases early : ∃ time ∈ s.time, time < Config.readyAt ⟨unit, units, units⟩ w
    · obtain ⟨time, mem, early⟩ := early
      have before : max time w.clock < Config.readyAt ⟨unit, units, units⟩ w := by
        have := apart time mem
        omega
      refine stands.wait_raised mem before fun v stands => ?_
      refine stands.ask_clock fun v stands => ?_
      refine stands.ask_time fun v stands => ?_
      exact .now ⟨_, rfl, outcome_cancelled decoded mem early stands.bus stands.meter⟩
    · have late : ∀ time ∈ s.time, Config.readyAt ⟨unit, units, units⟩ w ≤ time :=
        fun time mem => not_lt.mp fun before => early ⟨time, mem, before⟩
      have pending : ∀ time ∈ s.time, Config.readyAt ⟨unit, units, units⟩ w < time := by
        intro time mem
        have := apart time mem
        have := late time mem
        omega
      refine stands.wait_elapsed later pending fun v stands => ?_
      refine stands.ask_clock fun v stands => ?_
      refine stands.ask_mint fun v u stands => ?_
      cases down : w.bus.down with
      | true =>
        refine stands.ask_publish_down down fun v stands => ?_
        refine stands.ask_time fun v stands => ?_
        exact .now ⟨_, rfl, outcome_failed decoded late down stands.bus stands.meter⟩
      | false =>
        refine stands.ask_publish_up down fun v _ stands => ?_
        refine stands.ask_time fun v stands => ?_
        exact .now ⟨_, rfl, outcome_announced decoded late down ⟨u⟩ stands.bus stands.meter⟩

/-- A payment that was announced. -/
def onePaid : PaymentCompleted := ⟨⟨⟨1⟩⟩, ⟨⟨2⟩⟩, ⟨"u"⟩, .card, ⟨⟨3⟩⟩⟩

def onePaidMessage : Bus.Message :=
  Bus.delivered .paid 0 0 ⟨onePaid.order.text, (Event.payment onePaid).encode⟩

theorem decode_onePaidMessage :
    PaymentCompleted.decode onePaidMessage.topic onePaidMessage.payload = .ok onePaid :=
  PaymentCompleted.decode_encode onePaid

/-- A build of five seconds with a shutdown after two seconds, and with one after seven. -/
theorem announced_exactly_on_success_five_seconds :
    let w := World.empty 1 true ⟨0, 0, 0⟩
    let soon : Shutdown := ⟨⟨0⟩, some 2000000000⟩
    let late : Shutdown := ⟨⟨0⟩, some 7000000000⟩
    let c : Config := ⟨.ofSeconds 1, 5, 5⟩
    Inevitable (Step soon) (fun x => x.2 = .done (.error .cancelled) ∧ x.1.bus = w.bus ∧
        x.1.meter = w.meter.time ⟨2000000000⟩ false)
      (w, handler c [] onePaidMessage (some ⟨0⟩)) ∧
    Inevitable (Step late) (fun x => x.2 = .done (.ok ()) ∧ x.1.bus.count .assembled = 1 ∧
        x.1.meter = w.meter.time ⟨5000000000⟩ true)
      (w, handler c [] onePaidMessage (some ⟨0⟩)) := by
  intro w soon late c
  have decoded := decode_onePaidMessage
  constructor
  · have timed : w.IsTimed soon := World.isTimed_of_pending (by decide) (by decide)
    have apart : ∀ time ∈ soon.time, max time w.clock ≠ c.readyAt w := by
      rintro time mem
      cases mem
      decide
    refine (announced_exactly_on_success (.ofSeconds 1) 5 [] timed apart).mono ?_
    rintro x ⟨r, done, outcome⟩
    obtain ⟨rfl, meter⟩ := outcome.cancelled onePaid 2000000000 decoded rfl (by decide)
    have waited : max 2000000000 w.clock - w.clock = 2000000000 := by decide
    rw [waited] at meter
    exact ⟨done, outcome.silent (by simp), meter⟩
  · have timed : w.IsTimed late := World.isTimed_of_pending (by decide) (by decide)
    have apart : ∀ time ∈ late.time, max time w.clock ≠ c.readyAt w := by
      rintro time mem
      cases mem
      decide
    have after : ∀ time ∈ late.time, c.readyAt w ≤ time := by
      rintro time mem
      cases mem
      decide
    refine (announced_exactly_on_success (.ofSeconds 1) 5 [] timed apart).mono ?_
    rintro x ⟨r, done, outcome⟩
    obtain rfl := outcome.ok.mpr ⟨⟨onePaid, decoded⟩, after, rfl⟩
    obtain ⟨payload, b, -, -, -, -, bus⟩ := outcome.announced onePaid decoded rfl
    have meter := outcome.succeeded onePaid decoded after rfl
    have waited : Config.readyAt ⟨.ofSeconds 1, 5, 5⟩ w - w.clock = 5000000000 := by decide
    rw [waited] at meter
    refine ⟨done, ?_, meter⟩
    rw [bus]
    rfl

/-- A build that takes forty years is over after thirty, before a shutdown that comes after
thirty-five. -/
theorem built_before_its_time :
    let year := 31536000000000000
    let c : Config := ⟨⟨40 * year⟩, 1, 1⟩
    let x := (World.empty 1 true ⟨0, 0, 0⟩).finish (handler c [] onePaidMessage (some ⟨0⟩))
    let shutdown := 35 * year
    x.1.clock < shutdown ∧ shutdown < c.length.nanos ∧ x.2 = .ok (.ok ()) ∧
      x.1.bus.count .assembled = 1 := by
  simp only [handler_decoded decode_onePaidMessage]
  decide +kernel

end Assembly
end Shipyard

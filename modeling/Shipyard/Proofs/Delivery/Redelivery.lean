import Shipyard.Proofs.Delivery.Attempts

/-!
# Waits before redeliveries

A backoff doubles up to a limit, but the first wait is made before that and is not limited. The
waits of a run of failing deliveries follow one law for any configuration, up to the wait that
cannot be doubled; with a mild configuration there is none.
-/

namespace Shipyard
namespace Consumer

/-- The waits before redeliveries in nanoseconds, the first at 0. -/
def Config.delay (config : Config) : Nat → Nat
  | 0 => config.backoff.nanos
  | k + 1 => min (config.backoff.nanos * 2 ^ (k + 1)) config.maxBackoff.nanos

namespace Config

theorem min_double_delay (config : Config) (k : Nat) :
    min (2 * config.delay k) config.maxBackoff.nanos = config.delay (k + 1) := by
  cases k with
  | zero =>
    show min (2 * config.backoff.nanos) _ = min (config.backoff.nanos * 2 ^ 1) _
    rw [Nat.pow_one, Nat.mul_comm]
  | succ k =>
    show min (2 * min (config.backoff.nanos * 2 ^ (k + 1)) _) _ =
      min (config.backoff.nanos * 2 ^ (k + 1 + 1)) _
    rw [Nat.pow_succ 2 (k + 1), ← Nat.mul_assoc]
    generalize config.backoff.nanos * 2 ^ (k + 1) = x
    omega

theorem IsMild.delay {config : Config} (mild : config.IsMild) (k : Nat) :
    2 * config.delay k ≤ Span.longest := by
  cases k with
  | zero => exact mild.backoff
  | succ k =>
    have most : config.delay (k + 1) ≤ config.maxBackoff.nanos := Nat.min_le_right _ _
    have := mild.maxBackoff
    omega

end Config

theorem nextBackoff_delay (c : Consumer) (k : Nat) :
    c.nextBackoff ⟨c.config.delay k⟩ =
      if 2 * c.config.delay k ≤ Span.longest then .ok ⟨c.config.delay (k + 1)⟩
      else .error .spanProduct := by
  rw [nextBackoff, Span.double]
  split
  · rw [Except.map, shorter_eq, c.config.min_double_delay]
  · rfl

variable {c : Consumer} {signal : Option Signal} {m : Bus.Message} {left number : Nat}
  {backoff : Span} {tr : Trace} {j : Job (Except Bus.Error Bool)}

/-- Deliveries that fail, each with the wait after it: when it began and when it was to end. -/
inductive Failing (c : Consumer) (signal : Option Signal) (m : Bus.Message) :
    Nat → List (Nat × Nat) → Trace → Prop
  | none (number : Nat) : Failing c signal m number [] []
  | again {number now wake : Nat} {waits : List (Nat × Nat)} {x : Reaction} {tr tr' : Trace}
      (delivers : c.Delivers signal m number x tr) (failure : x.isFailure)
      (rest : Failing c signal m (number + 1) waits tr') :
      Failing c signal m number ((now, wake) :: waits)
        (tr ++ .reply (c.counted .retried) () :: .reply .clock now ::
          .woken wake signal .elapsed :: tr')

theorem Failing.nil {waits : List (Nat × Nat)} (h : c.Failing signal m number waits []) :
    waits = [] := by
  generalize none : ([] : Trace) = tr at h
  cases h with
  | none => rfl
  | again => simp at none

/-- A failing delivery leads to what follows failures. -/
theorem Delivers.failed {x : Reaction} (h : c.Delivers signal m number x tr)
    (failure : x.isFailure) : (c.attempt signal m left number backoff).After tr
      (c.failed signal m left number backoff) := by
  rw [attempt_eq]
  cases h with
  | intro history path =>
    cases x with
    | error f => cases failure
    | ok x =>
      have after := path.bind (c.outcome signal m left number backoff)
      rw [Job.lift, Job.bind, outcome_of_failure failure] at after
      exact Job.after_ask_iff.mpr (.inr ⟨history, _, rfl, after⟩)

/-- After a failure that is not the last and a wait, the record is delivered again. -/
theorem Delivers.again {x : Reaction} (h : c.Delivers signal m number x tr) (failure : x.isFailure)
    (now : Nat) {longer : Span} (next : c.nextBackoff backoff = .ok longer) {tr' : Trace}
    (rest : (c.attempt signal m left (number + 1) longer).After tr' j) :
    (c.attempt signal m (left + 1) number backoff).After
      (tr ++ .reply (c.counted .retried) () :: .reply .clock now ::
        .woken (Job.wakeAfter now backoff) signal .elapsed :: tr') j := by
  refine (h.failed failure).append (.there (.reply _ _ _) (.there (.reply _ _ _) ?_))
  refine .there (.woken _ _ _ _) ?_
  simp only [Job.bind, next]
  exact rest

/-- If a failure is counted as a retry, there is another delivery to come, after a wait. -/
theorem retried_of_failed {now wake : Nat}
    (path : (c.failed signal m left number backoff).After
      (.reply (c.counted .retried) () :: .reply .clock now ::
        .woken wake signal .elapsed :: tr) j) :
    ∃ left', left = left' + 1 ∧ wake = Job.wakeAfter now backoff ∧
      (c.resume signal m left' number backoff).After tr j := by
  cases left with
  | zero =>
    rcases Job.after_ask_iff.mp path with ⟨same, -⟩ | ⟨_, _, same, -⟩ <;> cases same
  | succ left =>
    cases path with
    | there step path =>
      cases step
      cases path with
      | there step path =>
        cases step
        cases path with
        | there step path =>
          cases step
          exact ⟨left, rfl, rfl, path⟩

/-- Where a run of failing deliveries leads, from any of them on. -/
theorem Failing.course {waits : List (Nat × Nat)} (h : c.Failing signal m number waits tr) (k : Nat)
    (path : (c.attempt signal m left number ⟨c.config.delay k⟩).After tr j) :
    (∀ i now wake, waits[i]? = some (now, wake) →
      wake = Job.wakeAfter now ⟨c.config.delay (k + i)⟩) ∧
    ((∃ left', left = left' + waits.length ∧
        j = c.attempt signal m left' (number + waits.length) ⟨c.config.delay (k + waits.length)⟩ ∧
        ∀ i, i < waits.length → 2 * c.config.delay (k + i) ≤ Span.longest) ∨
      ∃ i, waits.length = i + 1 ∧ j = .fault .spanProduct ∧
        Span.longest < 2 * c.config.delay (k + i)) := by
  induction h generalizing left k with
  | none number =>
    cases path with
    | here => exact ⟨by simp, .inl ⟨left, rfl, rfl, by simp⟩⟩
  | @again number now wake waits x tr tr' delivers failure rest ih =>
    obtain ⟨left, rfl, rfl, resumed⟩ := retried_of_failed ((delivers.failed failure).rest path)
    have first (later : ∀ i now wake, waits[i]? = some (now, wake) →
        wake = Job.wakeAfter now ⟨c.config.delay (k + 1 + i)⟩) (i now' wake' : Nat)
        (there : ((now, Job.wakeAfter now ⟨c.config.delay k⟩) :: waits)[i]? = some (now', wake')) :
        wake' = Job.wakeAfter now' ⟨c.config.delay (k + i)⟩ := by
      cases i with
      | zero =>
        cases there
        rfl
      | succ i =>
        have law := later i now' wake' there
        rwa [Nat.add_right_comm] at law
    rw [resume, nextBackoff_delay] at resumed
    by_cases short : 2 * c.config.delay k ≤ Span.longest
    · rw [if_pos short] at resumed
      obtain ⟨law, stands⟩ := ih (k + 1) resumed
      refine ⟨first law, ?_⟩
      rcases stands with ⟨left', rfl, same, all⟩ | ⟨i, length, same, long⟩
      · rw [Nat.add_right_comm, Nat.add_right_comm k] at same
        refine .inl ⟨left', rfl, same, fun i before => ?_⟩
        cases i with
        | zero => exact short
        | succ i =>
          have next := all i (Nat.lt_of_succ_lt_succ before)
          rwa [Nat.add_right_comm] at next
      · rw [Nat.add_right_comm] at long
        exact .inr ⟨i + 1, congrArg (· + 1) length, same, long⟩
    · rw [if_neg short] at resumed
      obtain ⟨rfl, rfl⟩ := Job.after_fault_iff.mp resumed
      obtain rfl := rest.nil
      exact ⟨first (by simp), .inr ⟨0, rfl, rfl, Nat.not_le.mp short⟩⟩

/-- The wait before a redelivery is the backoff doubled once for each redelivery before it, but no
longer than the limit; the first wait is the backoff itself. After a wait of which twice the length
is no span of time the poll aborts, and not for any other length; so it never does with a mild
configuration. -/
theorem redelivery_waits {p i : Nat} {waits : List (Nat × Nat)}
    (path : (c.pollPartition signal p).After (.reply (.committed c.group c.topic p) (.ok i) ::
      .reply (.fetch c.topic p i) (.ok (some m)) :: tr) j)
    (failing : c.Failing signal m 1 waits tr) :
    (∀ k now wake, waits[k]? = some (now, wake) →
      wake = Job.wakeAfter now ⟨c.config.delay k⟩) ∧
    ((∃ left, c.config.maxAttempts - 1 = left + waits.length ∧
        j = c.attempt signal m left (waits.length + 1) ⟨c.config.delay waits.length⟩ ∧
        ∀ k, k < waits.length → 2 * c.config.delay k ≤ Span.longest) ∨
      ∃ k, waits.length = k + 1 ∧ j = .fault .spanProduct ∧
        Span.longest < 2 * c.config.delay k) ∧
    (c.config.IsMild → ∀ f, j ≠ .fault f) := by
  have begun : (c.attempt signal m (c.config.maxAttempts - 1) 1 ⟨c.config.delay 0⟩).After tr j := by
    generalize whole : Encounter.reply (.committed c.group c.topic p) (.ok i) ::
      .reply (.fetch c.topic p i) (.ok (some m)) :: tr = tr' at path
    cases poll_course path with
    | fetched i' m' path' =>
      cases whole
      exact path'
    | _ => cases whole
  obtain ⟨law, stands⟩ := failing.course 0 begun
  simp only [Nat.zero_add, Nat.add_comm 1] at law stands
  refine ⟨law, stands, ?_⟩
  rintro mild f rfl
  rcases stands with ⟨left, -, same, -⟩ | ⟨k, -, -, long⟩
  · rw [attempt_eq] at same
    cases same
  · have := mild.delay k
    omega

/-- Refuses every payment, at once. -/
def refusing (config : Config) : Consumer :=
  ⟨"clerks", .paid, fun _ _ _ => .done (.error (.failed "refused")), config⟩

def onePayment : World := ((World.empty 1 true ⟨0, 0, 0⟩).answer (.publish .paid "a" [1])).2

def firstPayment : Bus.Message := Bus.delivered .paid 0 0 ⟨"a", [1]⟩

/-- Two waits, of 100 and of 150 milliseconds. -/
theorem redelivery_waits_twice :
    let c := refusing ⟨3, .ofMillis 100, .ofMillis 150, .ofMillis 50⟩
    let j := c.attempt none firstPayment 0 3 (.ofMillis 150)
    let waits := [(0, Job.wakeAfter 0 (.ofMillis 100)),
      (200000000, Job.wakeAfter 200000000 (.ofMillis 150))]
    ∃ tr, (c.pollPartition none 0).After (.reply (.committed "clerks" .paid 0) (.ok 0) ::
        .reply (.fetch .paid 0 0) (.ok (some firstPayment)) :: tr) j ∧
      c.Failing none firstPayment 1 waits tr ∧ c.config.delay 0 = 100000000 ∧
      c.config.delay 1 = 150000000 ∧ ∀ f, j ≠ .fault f := by
  intro c j waits
  have delivers (number : Nat) : c.Delivers none firstPayment number
      (.ok (.error (.failed "refused")))
      [.reply (.deliver "clerks" { firstPayment with attempt := number }) []] :=
    .intro [] (.here _)
  have longer : c.nextBackoff (.ofMillis 100) = .ok (.ofMillis 150) := by decide +kernel
  have limited : c.nextBackoff (.ofMillis 150) = .ok (.ofMillis 150) := by decide +kernel
  have failing : c.Failing none firstPayment 1 waits _ :=
    .again (delivers 1) rfl (.again (delivers 2) rfl (.none 3))
  have attempts : (c.attempt none firstPayment 2 1 (.ofMillis 100)).After _ j :=
    (delivers 1).again rfl 0 longer ((delivers 2).again rfl 200000000 limited (.here j))
  have path : (c.pollPartition none 0).After (.reply (.committed "clerks" .paid 0) (.ok 0) ::
      .reply (.fetch .paid 0 0) (.ok (some firstPayment)) :: _) j :=
    .there (.reply _ _ _) (.there (.reply _ _ _) attempts)
  obtain ⟨-, -, sound⟩ := redelivery_waits path failing
  exact ⟨_, path, failing, by decide, by decide, sound ⟨by decide, by decide⟩⟩

/-- The first wait is 100 milliseconds although 10 are the limit, and a backoff that cannot be
doubled aborts the poll. -/
theorem first_wait_unlimited :
    let c := refusing ⟨3, .ofMillis 100, .ofMillis 10, .ofMillis 50⟩
    let d := refusing ⟨2, ⟨Span.longest⟩, .ofSeconds 5, .ofMillis 50⟩
    (onePayment.finish (c.pollPartition none 0)).1.journal.map Delivery.time =
        [0, 100000000, 110000000] ∧
      (onePayment.finish (d.pollPartition none 0)).2 = .error .spanProduct := by
  decide +kernel

end Consumer
end Shipyard

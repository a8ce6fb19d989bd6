import Shipyard.Consumer
import Shipyard.Proofs.Trace

/-!
# Single polls

What a poll of one partition may ask by itself, whatever its handler asks, and what lies behind
when it asks to move the offset: the record was accepted by the handler, or it was put on the
dead-letter topic. Nothing is assumed of the handler but that it does not move offsets itself.
-/

namespace Shipyard

/-- Whether a request moves an offset. -/
def Request.isCommit : Request → Bool
  | .commit _ _ _ _ => true
  | _ => false

/-- A job that never moves an offset. -/
abbrev Job.Sober {α : Type} (j : Job α) : Prop := j.Asks fun r => r.isCommit = false

namespace Consumer

variable {c : Consumer} {signal : Option Signal} {p : Nat} {m : Bus.Message}

/-- What a consumer asks about a record besides its handler. -/
inductive Own (c : Consumer) (m : Bus.Message) : Request → Prop
  | clock : Own c m .clock
  | deliver (number : Nat) : Own c m (.deliver c.group { m with attempt := number })
  | commit : Own c m (.commit c.group c.topic m.partition (m.offset + 1))
  | bury : Own c m (.publish c.topic.deadLetters m.key m.payload)
  | counted (outcome : Meter.Outcome) : Own c m (c.counted outcome)
  | buried : Own c m (.count (.deadLettered c.topic c.group) 1)

/-- Whatever the handler asks about any delivery of a record. -/
def Handles (c : Consumer) (signal : Option Signal) (m : Bus.Message) (Q : Request → Prop) : Prop :=
  ∀ history number, (c.handler history { m with attempt := number } signal).Asks Q

/-- From a delivery that failed to the next one. -/
def retry (c : Consumer) (signal : Option Signal) (m : Bus.Message) (left number : Nat)
    (backoff : Span) : Job (Except Bus.Error Bool) :=
  .ask (c.counted .retried) fun _ =>
    (Job.sleep backoff signal).bind fun
      | .raised => .done (.ok false)
      | .elapsed =>
        match c.nextBackoff backoff with
        | .error f => .fault f
        | .ok backoff => c.attempt signal m left (number + 1) backoff

/-- The next delivery of a record, once its backoff is over. -/
def resume (c : Consumer) (signal : Option Signal) (m : Bus.Message) (left number : Nat)
    (backoff : Span) : Job (Except Bus.Error Bool) :=
  match c.nextBackoff backoff with
  | .error f => .fault f
  | .ok longer => c.attempt signal m left (number + 1) longer

/-- What follows a delivery that failed. -/
def failed (c : Consumer) (signal : Option Signal) (m : Bus.Message) (left number : Nat)
    (backoff : Span) : Job (Except Bus.Error Bool) :=
  match left with
  | 0 => c.deadLetter m
  | left + 1 => c.retry signal m left number backoff

/-- What follows a delivery, by its outcome. -/
def outcome (c : Consumer) (signal : Option Signal) (m : Bus.Message) (left number : Nat)
    (backoff : Span) : Except HandlerError Unit → Job (Except Bus.Error Bool)
  | .ok () => c.accept m
  | .error .cancelled => .ask (c.counted .cancelled) fun _ => .done (.ok false)
  | .error _ => c.failed signal m left number backoff

theorem attempt_eq (left number : Nat) (backoff : Span) :
    c.attempt signal m left number backoff =
      .ask (.deliver c.group { m with attempt := number }) fun history =>
        (c.handler history { m with attempt := number } signal).bind
          (c.outcome signal m left number backoff) := by
  unfold attempt
  rfl

/-- A poll reads the offset of its partition and the record there, which it then attends to. -/
inductive Polling (c : Consumer) (signal : Option Signal) (p : Nat) :
    Trace → Job (Except Bus.Error Bool) → Prop
  | begun (k) : Polling c signal p [] (.ask (.committed c.group c.topic p) k)
  | unread (e : Bus.Error) : Polling c signal p [.reply (.committed c.group c.topic p) (.error e)]
      (.done (.error e))
  | read (i : Nat) (k) : Polling c signal p [.reply (.committed c.group c.topic p) (.ok i)]
      (.ask (.fetch c.topic p i) k)
  | unfetched (i : Nat) (e : Bus.Error) : Polling c signal p
      [.reply (.committed c.group c.topic p) (.ok i), .reply (.fetch c.topic p i) (.error e)]
      (.done (.error e))
  | caughtUp (i : Nat) : Polling c signal p
      [.reply (.committed c.group c.topic p) (.ok i), .reply (.fetch c.topic p i) (.ok none)]
      (.done (.ok false))
  | fetched (i : Nat) (m : Bus.Message) {tr j}
      (path : (c.attempt signal m (c.config.maxAttempts - 1) 1 c.config.backoff).After tr j) :
      Polling c signal p (.reply (.committed c.group c.topic p) (.ok i) ::
        .reply (.fetch c.topic p i) (.ok (some m)) :: tr) j

theorem poll_course {tr : Trace} {j : Job (Except Bus.Error Bool)}
    (h : (c.pollPartition signal p).After tr j) : Polling c signal p tr j := by
  rcases Job.after_ask_iff.mp h with ⟨rfl, rfl⟩ | ⟨x, tr, rfl, h₁⟩
  · exact .begun _
  cases x with
  | error e =>
    obtain ⟨rfl, rfl⟩ := Job.after_done_iff.mp h₁
    exact .unread e
  | ok i =>
    rcases Job.after_ask_iff.mp h₁ with ⟨rfl, rfl⟩ | ⟨y, tr, rfl, h₂⟩
    · exact .read i _
    match y with
    | .error e =>
      obtain ⟨rfl, rfl⟩ := Job.after_done_iff.mp h₂
      exact .unfetched i e
    | .ok none =>
      obtain ⟨rfl, rfl⟩ := Job.after_done_iff.mp h₂
      exact .caughtUp i
    | .ok (some m) => exact .fetched i m h₂

section Asked

variable {Q : Request → Prop}

theorem settle_asks (own : ∀ r, c.Own m r → Q r) {after : Job (Except Bus.Error Bool)}
    (rest : after.Asks Q) : (c.settle m after).Asks Q := by
  refine ⟨own _ .commit, fun x => ?_⟩
  cases x with
  | error e => trivial
  | ok => exact rest

theorem deadLetter_asks (own : ∀ r, c.Own m r → Q r) : (c.deadLetter m).Asks Q := by
  refine ⟨own _ .bury, fun x => ?_⟩
  cases x with
  | error e => trivial
  | ok =>
    exact settle_asks own
      ⟨own _ (.counted .deadLettered), fun _ => ⟨own _ .buried, fun _ => trivial⟩⟩

theorem retry_asks (own : ∀ r, c.Own m r → Q r) {left number : Nat} {backoff : Span}
    (next : ∀ s, (c.attempt signal m left (number + 1) s).Asks Q) :
    (c.retry signal m left number backoff).Asks Q := by
  refine ⟨own _ (.counted .retried), fun _ => ⟨own _ .clock, fun _ x => ?_⟩⟩
  cases x with
  | raised => trivial
  | elapsed =>
    show (c.resume signal m left number backoff).Asks Q
    rw [resume]
    cases c.nextBackoff backoff with
    | error f => trivial
    | ok s => exact next s

theorem attempt_asks (own : ∀ r, c.Own m r → Q r) (handler : c.Handles signal m Q)
    (left number : Nat) (backoff : Span) : (c.attempt signal m left number backoff).Asks Q := by
  induction left generalizing number backoff with
  | zero =>
    rw [attempt_eq]
    refine ⟨own _ (.deliver number), fun history => (handler history number).bind fun x => ?_⟩
    match x with
    | .ok () => exact settle_asks own ⟨own _ (.counted .acked), fun _ => trivial⟩
    | .error .cancelled => exact ⟨own _ (.counted .cancelled), fun _ => trivial⟩
    | .error (.undecodable e) => exact deadLetter_asks own
    | .error (.failed e) => exact deadLetter_asks own
  | succ left ih =>
    rw [attempt_eq]
    refine ⟨own _ (.deliver number), fun history => (handler history number).bind fun x => ?_⟩
    match x with
    | .ok () => exact settle_asks own ⟨own _ (.counted .acked), fun _ => trivial⟩
    | .error .cancelled => exact ⟨own _ (.counted .cancelled), fun _ => trivial⟩
    | .error (.undecodable e) => exact retry_asks own (ih (number + 1))
    | .error (.failed e) => exact retry_asks own (ih (number + 1))

end Asked

/-- A request of a poll reads the offset or the record behind it, or it is about the record that was
read. -/
theorem poll_mem {Q : Bus.Message → Request → Prop} (handler : ∀ m, c.Handles signal m (Q m))
    {tr : Trace} {j : Job (Except Bus.Error Bool)} (path : (c.pollPartition signal p).After tr j)
    {r : Request} {x : r.Reply} (mem : .reply r x ∈ tr) :
    r = .committed c.group c.topic p ∨ (∃ i, r = .fetch c.topic p i) ∨
      ∃ i m, .reply (.fetch c.topic p i) (.ok (some m)) ∈ tr ∧ (c.Own m r ∨ Q m r) := by
  cases poll_course path with
  | begun => cases mem
  | fetched i m path' =>
    simp only [List.mem_cons, Encounter.reply.injEq] at mem
    rcases mem with ⟨rfl, -⟩ | ⟨rfl, -⟩ | mem
    · exact .inl rfl
    · exact .inr (.inl ⟨i, rfl⟩)
    · have asks := attempt_asks (Q := fun r => c.Own m r ∨ Q m r) (fun _ => .inl)
        (fun history number => (handler m history number).mono fun _ => .inr)
        (c.config.maxAttempts - 1) 1 c.config.backoff
      exact .inr (.inr ⟨i, m, by simp, asks.of_mem path' mem⟩)
  | _ =>
    simp only [List.mem_cons, Encounter.reply.injEq, List.not_mem_nil, or_false] at mem
    rcases mem with ⟨rfl, -⟩ | ⟨rfl, -⟩ <;> first | exact .inl rfl | exact .inr (.inl ⟨_, rfl⟩)

/-- In a trace: a delivery of the record that the handler accepted. -/
def Accepts (c : Consumer) (signal : Option Signal) (m : Bus.Message) (tr : Trace) : Prop :=
  ∃ before number history mid after,
    tr = before ++
      .reply (.deliver c.group { m with attempt := number }) history :: (mid ++ after) ∧
      (c.handler history { m with attempt := number } signal).After mid (.done (.ok ()))

/-- In a trace of a job: the record was put on the dead-letter topic, by the consumer itself. -/
def Buries (c : Consumer) (j : Job (Except Bus.Error Bool)) (m : Bus.Message) (tr : Trace)
    (position : Bus.Position) : Prop :=
  ∃ before after,
    tr = before ++ .reply (.publish c.topic.deadLetters m.key m.payload) (.ok position) :: after ∧
      j.After before (c.deadLetter m)

theorem Accepts.widen {tr : Trace} (h : c.Accepts signal m tr) (earlier later : Trace) :
    c.Accepts signal m (earlier ++ tr ++ later) := by
  obtain ⟨before, number, history, mid, after, rfl, path⟩ := h
  exact ⟨earlier ++ before, number, history, mid, after ++ later, by simp, path⟩

theorem Buries.widen {j j' : Job (Except Bus.Error Bool)} {tr earlier : Trace}
    {position : Bus.Position} (h : c.Buries j m tr position) (path : j'.After earlier j)
    (later : Trace) : c.Buries j' m (earlier ++ tr ++ later) position := by
  obtain ⟨before, after, rfl, path'⟩ := h
  exact ⟨earlier ++ before, after ++ later, by simp, path.append path'⟩

section Committing

variable {g : String} {t : Topic} {q n : Nat}
  {k : (Request.commit g t q n).Reply → Job (Except Bus.Error Bool)}

/-- What an offset is moved for. -/
def Moves (c : Consumer) (m : Bus.Message) (g : String) (t : Topic) (q n : Nat) : Prop :=
  g = c.group ∧ t = c.topic ∧ q = m.partition ∧ n = m.offset + 1

theorem settle_commit {rest : Job (Except Bus.Error Bool)} (sober : rest.Sober) {tr : Trace}
    (h : (c.settle m rest).After tr (.ask (.commit g t q n) k)) : tr = [] ∧ c.Moves m g t q n := by
  rcases Job.after_ask_iff.mp h with ⟨rfl, same⟩ | ⟨x, tr, rfl, path⟩
  · cases same
    exact ⟨rfl, rfl, rfl, rfl, rfl⟩
  · cases x with
    | error e => cases (Job.after_done_iff.mp path).2
    | ok => cases (sober.after path).1

theorem deadLetter_commit {tr : Trace}
    (h : (c.deadLetter m).After tr (.ask (.commit g t q n) k)) :
    c.Moves m g t q n ∧
      ∃ position, tr = [.reply (.publish c.topic.deadLetters m.key m.payload) (.ok position)] := by
  rcases Job.after_ask_iff.mp h with ⟨-, same⟩ | ⟨x, tr, rfl, path⟩
  · cases same
  · cases x with
    | error e => cases (Job.after_done_iff.mp path).2
    | ok position =>
      have sober : Job.Sober (.ask (c.counted .deadLettered) fun _ =>
          .ask (.count (.deadLettered c.topic c.group) 1) fun _ =>
            .done (.ok true : Except Bus.Error Bool)) :=
        And.intro rfl fun _ => And.intro rfl fun _ => trivial
      obtain ⟨rfl, moves⟩ := settle_commit sober path
      exact ⟨moves, position, rfl⟩

theorem retry_commit {left number : Nat} {backoff : Span} {tr : Trace}
    (h : (c.retry signal m left number backoff).After tr (.ask (.commit g t q n) k)) :
    ∃ earlier later s, tr = earlier ++ later ∧
      (c.retry signal m left number backoff).After earlier
        (c.attempt signal m left (number + 1) s) ∧
      (c.attempt signal m left (number + 1) s).After later (.ask (.commit g t q n) k) := by
  rcases Job.after_ask_iff.mp h with ⟨-, same⟩ | ⟨x, tr, rfl, path₁⟩
  · cases same
  rcases Job.after_ask_iff.mp path₁ with ⟨-, same⟩ | ⟨now, tr, rfl, path₂⟩
  · cases same
  rcases Job.after_wait_iff.mp path₂ with ⟨-, same⟩ | ⟨wakeup, tr, rfl, path₃⟩
  · cases same
  cases wakeup with
  | raised => cases (Job.after_done_iff.mp path₃).2
  | elapsed =>
    cases next : c.nextBackoff backoff with
    | error f =>
      simp only [Job.bind, next] at path₃
      cases (Job.after_fault_iff.mp path₃).2
    | ok s =>
      simp only [Job.bind, next] at path₃
      refine ⟨[.reply (c.counted .retried) x, .reply .clock now,
        .woken (Job.wakeAfter now backoff) signal .elapsed], tr, s, rfl, ?_, path₃⟩
      refine .there (.reply _ _ x) (.there (.reply _ _ now) (.there (.woken _ _ _ .elapsed) ?_))
      simp only [Job.bind, next]
      exact .here _

/-- A delivery after which an offset is moved was accepted, or it failed. -/
theorem outcome_commit {left number : Nat} {backoff : Span} {tr : Trace}
    {x : Except HandlerError Unit}
    (h : (c.outcome signal m left number backoff x).After tr (.ask (.commit g t q n) k)) :
    (x = .ok () ∧ tr = [] ∧ c.Moves m g t q n) ∨
      c.outcome signal m left number backoff x = c.failed signal m left number backoff := by
  match x with
  | .ok () =>
    have sober : Job.Sober
        (.ask (c.counted .acked) fun _ => .done (.ok true : Except Bus.Error Bool)) :=
      And.intro rfl fun _ => trivial
    exact .inl ⟨rfl, settle_commit sober h⟩
  | .error .cancelled =>
    rcases Job.after_ask_iff.mp h with ⟨-, same⟩ | ⟨y, tr, rfl, path⟩
    · cases same
    · cases (Job.after_done_iff.mp path).2
  | .error (.undecodable e) => exact .inr rfl
  | .error (.failed e) => exact .inr rfl

/-- What a failed delivery leads to, given what the next delivery would. -/
theorem failed_commit {left number : Nat} {backoff : Span} {tr : Trace}
    (again : ∀ left', left' < left → ∀ {s : Span} {tr : Trace},
      (c.attempt signal m left' (number + 1) s).After tr (.ask (.commit g t q n) k) →
      c.Moves m g t q n ∧ (c.Accepts signal m tr ∨
        ∃ position, c.Buries (c.attempt signal m left' (number + 1) s) m tr position))
    (h : (c.failed signal m left number backoff).After tr (.ask (.commit g t q n) k)) :
    c.Moves m g t q n ∧ (c.Accepts signal m tr ∨
      ∃ position, c.Buries (c.failed signal m left number backoff) m tr position) := by
  cases left with
  | zero =>
    obtain ⟨moves, position, rfl⟩ := deadLetter_commit h
    exact ⟨moves, .inr ⟨position, [], [], rfl, .here _⟩⟩
  | succ left =>
    obtain ⟨earlier, later, s, rfl, path, path'⟩ := retry_commit h
    obtain ⟨moves, accepted | ⟨position, buried⟩⟩ := again left (Nat.lt_succ_self _) path'
    · exact ⟨moves, .inl (by simpa using accepted.widen earlier [])⟩
    · have buried' := buried.widen path []
      rw [List.append_nil] at buried'
      exact ⟨moves, .inr ⟨position, buried'⟩⟩

theorem attempt_commit (sober : c.Handles signal m fun r => ∀ p n, r ≠ .commit g t p n)
    {left number : Nat} {backoff : Span} {tr : Trace}
    (h : (c.attempt signal m left number backoff).After tr (.ask (.commit g t q n) k)) :
    c.Moves m g t q n ∧ (c.Accepts signal m tr ∨
      ∃ position, c.Buries (c.attempt signal m left number backoff) m tr position) := by
  induction left using Nat.strongRecOn generalizing number backoff tr with
  | ind left ih =>
    rw [attempt_eq] at h ⊢
    rcases Job.after_ask_iff.mp h with ⟨-, same⟩ | ⟨history, tr, rfl, path⟩
    · cases same
    rcases Job.after_bind_ask path with ⟨k', path'⟩ | ⟨x, mid, rest, rfl, handled, path'⟩
    · exact absurd rfl (((sober history number).after path').1 q n)
    rcases outcome_commit path' with ⟨rfl, rfl, moves⟩ | failure
    · exact ⟨moves, .inl ⟨[], number, history, mid, [], by simp, handled⟩⟩
    · rw [failure] at path'
      obtain ⟨moves, accepted | ⟨position, buried⟩⟩ :=
        failed_commit (fun left' fewer => fun path => ih left' fewer path) path'
      · refine ⟨moves, .inl ?_⟩
        simpa using accepted.widen (_ :: mid) []
      · have path'' := handled.bind (c.outcome signal m left number backoff)
        rw [Job.bind, failure] at path''
        refine ⟨moves, .inr ⟨position, ?_⟩⟩
        simpa using buried.widen (.there (.reply _ _ history) path'') []

theorem poll_commit (sober : ∀ m, c.Handles signal m fun r => ∀ p n, r ≠ .commit g t p n)
    {tr : Trace}
    (h : (c.pollPartition signal p).After tr (.ask (.commit g t q n) k)) :
    ∃ i m, .reply (.committed c.group c.topic p) (.ok i) ∈ tr ∧
      .reply (.fetch c.topic p i) (.ok (some m)) ∈ tr ∧ c.Moves m g t q n ∧
      (c.Accepts signal m tr ∨ ∃ position, c.Buries (c.pollPartition signal p) m tr position) := by
  generalize stop : Job.ask (.commit g t q n) k = j at h
  cases poll_course h with
  | fetched i m path =>
    subst stop
    have begun : (c.pollPartition signal p).After
        [.reply (.committed c.group c.topic p) (.ok i),
          .reply (.fetch c.topic p i) (.ok (some m))]
        (c.attempt signal m (c.config.maxAttempts - 1) 1 c.config.backoff) :=
      .there (.reply _ _ _) (.there (.reply _ _ _) (.here _))
    obtain ⟨moves, accepted | ⟨position, buried⟩⟩ := attempt_commit (sober m) path
    · have accepted' := accepted.widen [.reply (.committed c.group c.topic p) (.ok i),
        .reply (.fetch c.topic p i) (.ok (some m))] []
      exact ⟨i, m, by simp, by simp, moves, .inl (by simpa using accepted')⟩
    · have buried' := buried.widen begun []
      exact ⟨i, m, by simp, by simp, moves, .inr ⟨position, by simpa using buried'⟩⟩
  | _ => cases stop

end Committing

end Consumer
end Shipyard

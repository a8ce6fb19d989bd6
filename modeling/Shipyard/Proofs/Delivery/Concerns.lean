import Shipyard.Proofs.Delivery.Poll

/-!
# What concerns a group

The requests by which a consumer hands records to its group and moves the offsets of the group. If
the handler makes none of them, a poll makes them about the one record that it has found, and none
at all once it has moved the offset.
-/

namespace Shipyard

namespace Consumer

variable {c : Consumer} {signal : Option Signal} {p : Nat} {m : Bus.Message}

/-- To move an offset of the group in the topic, or to hand over a record of the topic to it. -/
inductive Concerns (c : Consumer) : Request → Prop
  | commit (p n : Nat) : Concerns c (.commit c.group c.topic p n)
  | deliver (m : Bus.Message) (about : m.topic = c.topic) : Concerns c (.deliver c.group m)

/-- The handler leaves it to the consumer to hand over records and to move offsets. -/
def IsDiscreet (c : Consumer) : Prop :=
  ∀ history m signal, (c.handler history m signal).Asks fun r => ¬ c.Concerns r

/-- To move an offset of the group in the topic. -/
def Commits (c : Consumer) (r : Request) : Prop := ∃ p n, r = .commit c.group c.topic p n

theorem Commits.concerns {r : Request} (h : c.Commits r) : c.Concerns r := by
  obtain ⟨p, n, rfl⟩ := h
  exact .commit p n

theorem not_concerns_counted (outcome : Meter.Outcome) : ¬ c.Concerns (c.counted outcome) := by
  rintro ⟨⟩

theorem settle_closes {after : Job (Except Bus.Error Bool)}
    (rest : after.Asks fun r => ¬ c.Concerns r) :
    (c.settle m after).Closes c.Commits c.Concerns := by
  constructor
  · intro _ x
    cases x with
    | error e => trivial
    | ok => exact rest
  · intro x
    cases x with
    | error e => trivial
    | ok => exact rest.closes

theorem accept_closes : (c.accept m).Closes c.Commits c.Concerns :=
  settle_closes ⟨not_concerns_counted _, fun _ => trivial⟩

theorem deadLetter_closes : (c.deadLetter m).Closes c.Commits c.Concerns := by
  constructor
  · rintro ⟨p, n, same⟩
    cases same
  · intro x
    cases x with
    | error e => trivial
    | ok position =>
      exact settle_closes ⟨not_concerns_counted _, fun _ => ⟨(by rintro ⟨⟩), fun _ => trivial⟩⟩

theorem retry_closes {left number : Nat} {backoff : Span}
    (next : ∀ s, (c.attempt signal m left (number + 1) s).Closes c.Commits c.Concerns) :
    (c.retry signal m left number backoff).Closes c.Commits c.Concerns := by
  refine ⟨fun commits => absurd commits.concerns (not_concerns_counted _), fun _ => ?_⟩
  refine ⟨fun commits => ?_, fun _ x => ?_⟩
  · obtain ⟨p, n, same⟩ := commits
    cases same
  · cases x with
    | raised => trivial
    | elapsed =>
      show (c.resume signal m left number backoff).Closes c.Commits c.Concerns
      rw [resume]
      cases c.nextBackoff backoff with
      | error f => trivial
      | ok s => exact next s

theorem outcome_closes {left number : Nat} {backoff : Span}
    (failing : (c.failed signal m left number backoff).Closes c.Commits c.Concerns)
    (x : Except HandlerError Unit) :
    (c.outcome signal m left number backoff x).Closes c.Commits c.Concerns := by
  match x with
  | .ok () => exact accept_closes
  | .error .cancelled =>
    exact ⟨fun commits => absurd commits.concerns (not_concerns_counted _), fun _ => trivial⟩
  | .error (.undecodable e) => exact failing
  | .error (.failed e) => exact failing

theorem attempt_closes (discreet : c.IsDiscreet) (left number : Nat) (backoff : Span) :
    (c.attempt signal m left number backoff).Closes c.Commits c.Concerns := by
  have handling (number : Nat) (history : List Delivery) :
      (c.handler history { m with attempt := number } signal).Asks fun r => ¬ c.Commits r :=
    (discreet history _ signal).mono fun r other commits => other commits.concerns
  have delivering (number : Nat) : ¬ c.Commits (.deliver c.group { m with attempt := number }) := by
    rintro ⟨p, n, same⟩
    cases same
  induction left generalizing number backoff with
  | zero =>
    rw [attempt_eq]
    refine ⟨fun commits => absurd commits (delivering number), fun history => ?_⟩
    exact (Job.Closes.bind (handling number history) (outcome_closes deadLetter_closes))
  | succ left ih =>
    rw [attempt_eq]
    refine ⟨fun commits => absurd commits (delivering number), fun history => ?_⟩
    exact Job.Closes.bind (handling number history)
      (outcome_closes (retry_closes fun s => ih (number + 1) s))

/-- Once a poll has moved the offset, it hands over nothing and moves no offset any more. -/
theorem poll_closes (discreet : c.IsDiscreet) :
    (c.pollPartition signal p).Closes c.Commits c.Concerns := by
  refine ⟨?_, fun x => ?_⟩
  · rintro ⟨q, n, same⟩
    cases same
  cases x with
  | error e => trivial
  | ok i =>
    refine ⟨?_, fun y => ?_⟩
    · rintro ⟨q, n, same⟩
      cases same
    match y with
    | .error e => trivial
    | .ok none => trivial
    | .ok (some m) => exact attempt_closes discreet _ _ _

/-- A poll that has read an offset and found a record there. -/
def Attends (c : Consumer) (p i : Nat) (m : Bus.Message) (tr : Trace) : Prop :=
  ∃ rest, tr = .reply (.committed c.group c.topic p) (.ok i) ::
    .reply (.fetch c.topic p i) (.ok (some m)) :: rest

namespace Attends

variable {i : Nat} {tr : Trace}

theorem read (h : c.Attends p i m tr) : .reply (.committed c.group c.topic p) (.ok i) ∈ tr := by
  obtain ⟨rest, rfl⟩ := h
  simp

theorem fetched (h : c.Attends p i m tr) : .reply (.fetch c.topic p i) (.ok (some m)) ∈ tr := by
  obtain ⟨rest, rfl⟩ := h
  simp

theorem unique (h : c.Attends p i m tr) {i' : Nat} {m' : Bus.Message}
    (h' : c.Attends p i' m' tr) : i = i' ∧ m = m' := by
  obtain ⟨rest, rfl⟩ := h
  obtain ⟨rest', same⟩ := h'
  simp only [List.cons.injEq, Encounter.reply.injEq, true_and] at same
  obtain ⟨read, fetched, -⟩ := same
  have offset : i = i' := by simpa using read
  subst offset
  simpa using fetched

end Attends

section Polls

variable {tr : Trace} {r : Request}

theorem attempt_owns (discreet : c.IsDiscreet) (left number : Nat) (backoff : Span) :
    (c.attempt signal m left number backoff).Asks fun r => c.Concerns r → c.Own m r :=
  attempt_asks (Q := fun r => c.Concerns r → c.Own m r) (fun _ own _ => own)
    (fun history _ => (discreet history _ signal).mono fun _ other concerns =>
      absurd concerns other) left number backoff

/-- Whatever concerns its group, a poll asks about the record that it has found. -/
theorem poll_asks_own (discreet : c.IsDiscreet) {k : r.Reply → Job (Except Bus.Error Bool)}
    (path : (c.pollPartition signal p).After tr (.ask r k)) (concerns : c.Concerns r) :
    ∃ i m, c.Attends p i m tr ∧ c.Own m r := by
  generalize stop : Job.ask r k = j at path
  cases poll_course path with
  | fetched i m path' =>
    subst stop
    have own := ((attempt_owns discreet _ _ _).after path').1 concerns
    exact ⟨i, m, ⟨_, rfl⟩, own⟩
  | begun =>
    cases stop
    cases concerns
  | read =>
    cases stop
    cases concerns
  | _ => cases stop

theorem poll_asked_own (discreet : c.IsDiscreet) {j : Job (Except Bus.Error Bool)}
    (path : (c.pollPartition signal p).After tr j) {x : r.Reply} (mem : .reply r x ∈ tr)
    (concerns : c.Concerns r) : ∃ i m, c.Attends p i m tr ∧ c.Own m r := by
  cases poll_course path with
  | fetched i m path' =>
    rcases List.mem_cons.mp mem with same | mem
    · cases same
      cases concerns
    rcases List.mem_cons.mp mem with same | mem
    · cases same
      cases concerns
    have own := (attempt_owns discreet _ _ _).of_mem path' mem concerns
    exact ⟨i, m, ⟨_, rfl⟩, own⟩
  | begun => cases mem
  | unread e =>
    cases List.mem_singleton.mp mem
    cases concerns
  | read i k =>
    cases List.mem_singleton.mp mem
    cases concerns
  | unfetched i e =>
    rcases List.mem_cons.mp mem with same | mem
    · cases same
      cases concerns
    · cases List.mem_singleton.mp mem
      cases concerns
  | caughtUp i =>
    rcases List.mem_cons.mp mem with same | mem
    · cases same
      cases concerns
    · cases List.mem_singleton.mp mem
      cases concerns

/-- Before a poll moves an offset, it hands over the record. -/
theorem poll_commit_late {q n : Nat} {k}
    (path : (c.pollPartition signal p).After tr (.ask (.commit c.group c.topic q n) k)) :
    ∃ i m number history, c.Attends p i m tr ∧
      .reply (.deliver c.group { m with attempt := number }) history ∈ tr := by
  generalize stop : Job.ask (.commit c.group c.topic q n) k = j at path
  cases poll_course path with
  | fetched i m path' =>
    subst stop
    rw [attempt_eq] at path'
    rcases Job.after_ask_iff.mp path' with ⟨-, same⟩ | ⟨history, rest, rfl, -⟩
    · cases same
    · exact ⟨i, m, 1, history, ⟨_, rfl⟩, by simp⟩
  | _ => cases stop

end Polls

end Consumer

end Shipyard

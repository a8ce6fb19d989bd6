import Shipyard.Proofs.Delivery.Fates

/-!
# Attempts at one record

What a poll meets with once it has found a record: deliveries that fail, each with the wait after
it, and one that is the last. `attempt_over` says that there is nothing else, and `Attempts.ends`
how the last delivery and the number of attempts decide how a poll ends. What has been done by
then is told by the number of deliveries and the ending alone (`Attempts.view`).
-/

namespace Shipyard

namespace Job

variable {α : Type}

/-- Encounters lead to one job at most. -/
theorem Meets.unique {j k k' : Job α} {e : Encounter} (h : j.Meets e k) (h' : j.Meets e k') :
    k = k' := by
  cases h with
  | reply r f x => cases h'; rfl
  | woken wake signal f x => cases h'; rfl

theorem After.rest {j k l : Job α} {tr tr' : Trace} (h : j.After tr k)
    (h' : j.After (tr ++ tr') l) : k.After tr' l := by
  induction h with
  | here => exact h'
  | there step _ ih =>
    cases h' with
    | there step' rest =>
      obtain rfl := step.unique step'
      exact ih rest

/-- A trace takes a job to one place only. -/
theorem After.unique {j k l : Job α} {tr : Trace} (h : j.After tr k) (h' : j.After tr l) :
    k = l := by
  have rest : k.After [] l := h.rest (by rwa [List.append_nil])
  cases rest with
  | here => rfl

/-- A job that has nothing left to do. -/
def IsOver : Job α → Prop
  | done _ => True
  | fault _ => True
  | ask _ _ => False
  | wait _ _ _ => False

/-- A sequence of jobs that is over has been through its first part, and through the second unless
the first faulted. -/
theorem after_bind_over {β : Type} {j : Job α} {f : α → Job β} {tr : Trace} {l : Job β}
    (h : (j.bind f).After tr l) (finished : l.IsOver) :
    (∃ e, j.After tr (fault e) ∧ l = fault e) ∨
      ∃ x tr₁ tr₂, tr = tr₁ ++ tr₂ ∧ j.After tr₁ (done x) ∧ (f x).After tr₂ l := by
  rcases after_bind h with ⟨k, path, rfl⟩ | later
  · cases k with
    | done x => exact .inr ⟨x, tr, [], by simp, path, .here _⟩
    | fault e => exact .inl ⟨e, path, rfl⟩
    | ask => exact finished.elim
    | wait => exact finished.elim
  · exact .inr later

end Job

namespace Encounter

/-- The request that was met, unless it was refused. -/
def done? : Encounter → Option Request
  | .reply (.publish t key payload) (.ok _) => some (.publish t key payload)
  | .reply (.commit g t p n) (.ok _) => some (.commit g t p n)
  | .reply (.deliver g m) _ => some (.deliver g m)
  | .reply (.count c n) _ => some (.count c n)
  | _ => none

end Encounter

/-- What has been done on the bus, in the journal and in the meter, in the order of time. -/
def Trace.done (tr : Trace) : List Request := tr.filterMap Encounter.done?

theorem Trace.done_append (tr tr' : Trace) : Trace.done (tr ++ tr') = tr.done ++ tr'.done :=
  List.filterMap_append

theorem Trace.done_singleton (e : Encounter) : Trace.done [e] = e.done?.toList := by
  cases done : e.done? <;> simp [Trace.done, done]

namespace Consumer

/-- What comes of a delivery: an answer of the handler, or a fault. -/
abbrev Reaction : Type := Except Fault (Except HandlerError Unit)

/-- Whether the record is to be delivered again. -/
def Reaction.isFailure : Reaction → Bool
  | .ok (.ok ()) => false
  | .ok (.error .cancelled) => false
  | .ok (.error _) => true
  | .error _ => false

inductive Ending
  | accepted
  /-- Accepted, but the offset could not be moved. -/
  | refused (e : Bus.Error)
  | cancelled
  /-- Put on the dead-letter topic, and done with. -/
  | buried (position : Bus.Position)
  /-- Not put on the dead-letter topic. -/
  | unburied (e : Bus.Error)
  /-- Put on the dead-letter topic, but the offset could not be moved. -/
  | unmoved (position : Bus.Position) (e : Bus.Error)
  /-- The signal was raised during a wait. -/
  | stopped
  /-- A wait could not be doubled. -/
  | overflowed (f : Fault)
  /-- The handler faulted. -/
  | broken (f : Fault)

namespace Ending

/-- How the poll ends. -/
def result : Ending → Except Fault (Except Bus.Error Bool)
  | accepted => .ok (.ok true)
  | refused e => .ok (.error e)
  | cancelled => .ok (.ok false)
  | buried _ => .ok (.ok true)
  | unburied e => .ok (.error e)
  | unmoved _ e => .ok (.error e)
  | stopped => .ok (.ok false)
  | overflowed f => .error f
  | broken f => .error f

/-- What is counted about the record at the end. -/
def outcomes : Ending → List Meter.Outcome
  | accepted => [.acked]
  | cancelled => [.cancelled]
  | buried _ => [.deadLettered]
  | stopped => [.retried]
  | overflowed _ => [.retried]
  | _ => []

/-- Whether the offset was moved past the record. -/
def isSettled : Ending → Bool
  | accepted => true
  | buried _ => true
  | _ => false

/-- Whether a dead letter was put on its topic. -/
def isBuried : Ending → Bool
  | buried _ => true
  | unmoved _ _ => true
  | _ => false

end Ending

variable {c : Consumer} {signal : Option Signal} {m : Bus.Message}

/-- A delivery and what the handler does until its reaction. -/
inductive Delivers (c : Consumer) (signal : Option Signal) (m : Bus.Message) (number : Nat)
    (x : Reaction) : Trace → Prop
  | intro (history : List Delivery) {tr : Trace}
      (path : (c.handler history { m with attempt := number } signal).After tr (.lift x)) :
      Delivers c signal m number x
        (.reply (.deliver c.group { m with attempt := number }) history :: tr)

/-- What follows the last delivery, by the reaction to it; `left` more attempts might have come. -/
inductive Closes (c : Consumer) (signal : Option Signal) (m : Bus.Message) (backoff : Span) :
    Nat → Reaction → Ending → Trace → Prop
  | accepted (left : Nat) : Closes c signal m backoff left (.ok (.ok ())) .accepted
      [.reply (.commit c.group c.topic m.partition (m.offset + 1)) (.ok ()),
        .reply (c.counted .acked) ()]
  | refused (left : Nat) (e : Bus.Error) :
    Closes c signal m backoff left (.ok (.ok ())) (.refused e)
      [.reply (.commit c.group c.topic m.partition (m.offset + 1)) (.error e)]
  | cancelled (left : Nat) : Closes c signal m backoff left (.ok (.error .cancelled)) .cancelled
      [.reply (c.counted .cancelled) ()]
  | buried {x : Reaction} (failure : x.isFailure) (position : Bus.Position) :
      Closes c signal m backoff 0 x (.buried position)
        [.reply (.publish c.topic.deadLetters m.key m.payload) (.ok position),
          .reply (.commit c.group c.topic m.partition (m.offset + 1)) (.ok ()),
          .reply (c.counted .deadLettered) (),
          .reply (.count (.deadLettered c.topic c.group) 1) ()]
  | unburied {x : Reaction} (failure : x.isFailure) (e : Bus.Error) :
      Closes c signal m backoff 0 x (.unburied e)
        [.reply (.publish c.topic.deadLetters m.key m.payload) (.error e)]
  | unmoved {x : Reaction} (failure : x.isFailure) (position : Bus.Position) (e : Bus.Error) :
      Closes c signal m backoff 0 x (.unmoved position e)
        [.reply (.publish c.topic.deadLetters m.key m.payload) (.ok position),
          .reply (.commit c.group c.topic m.partition (m.offset + 1)) (.error e)]
  | stopped {x : Reaction} (failure : x.isFailure) (left now : Nat) :
      Closes c signal m backoff (left + 1) x .stopped
        [.reply (c.counted .retried) (), .reply .clock now,
          .woken (Job.wakeAfter now backoff) signal .raised]
  | overflowed {x : Reaction} (failure : x.isFailure) (left now : Nat) {f : Fault}
      (overflow : c.nextBackoff backoff = .error f) :
      Closes c signal m backoff (left + 1) x (.overflowed f)
        [.reply (c.counted .retried) (), .reply .clock now,
          .woken (Job.wakeAfter now backoff) signal .elapsed]
  | broken (left : Nat) (f : Fault) : Closes c signal m backoff left (.error f) (.broken f) []

/-- Deliveries that fail, each with the wait after it, and the last one with what follows it. -/
inductive Attempts (c : Consumer) (signal : Option Signal) (m : Bus.Message) :
    Nat → Nat → Span → List Reaction → Ending → Trace → Prop
  | last {left number : Nat} {backoff : Span} {x : Reaction} {ending : Ending} {tr tr' : Trace}
      (delivers : c.Delivers signal m number x tr)
      (closes : c.Closes signal m backoff left x ending tr') :
      Attempts c signal m left number backoff [x] ending (tr ++ tr')
  | again {left number now : Nat} {backoff longer : Span} {x : Reaction} {xs : List Reaction}
      {ending : Ending} {tr tr' : Trace} (delivers : c.Delivers signal m number x tr)
      (failure : x.isFailure) (next : c.nextBackoff backoff = .ok longer)
      (rest : Attempts c signal m left (number + 1) longer xs ending tr') :
      Attempts c signal m (left + 1) number backoff (x :: xs) ending
        (tr ++ (.reply (c.counted .retried) () :: .reply .clock now ::
          .woken (Job.wakeAfter now backoff) signal .elapsed :: tr'))

section Over

variable {left number : Nat} {backoff : Span} {tr : Trace} {j : Job (Except Bus.Error Bool)}

theorem settle_over {after : Job (Except Bus.Error Bool)} (path : (c.settle m after).After tr j)
    (finished : j.IsOver) :
    (∃ e, tr = [.reply (.commit c.group c.topic m.partition (m.offset + 1)) (.error e)] ∧
      j = .done (.error e)) ∨
    ∃ rest, tr = .reply (.commit c.group c.topic m.partition (m.offset + 1)) (.ok ()) :: rest ∧
      after.After rest j := by
  rcases Job.after_ask_iff.mp path with ⟨-, rfl⟩ | ⟨x, rest, rfl, path'⟩
  · exact finished.elim
  cases x with
  | error e =>
    obtain ⟨rfl, rfl⟩ := Job.after_done_iff.mp path'
    exact .inl ⟨e, rfl, rfl⟩
  | ok => exact .inr ⟨rest, rfl, path'⟩

theorem count_over {k : Meter.Counter} {n : Nat} {after : Job (Except Bus.Error Bool)}
    (path : (Job.ask (.count k n) fun _ => after).After tr j) (finished : j.IsOver) :
    ∃ rest, tr = .reply (.count k n) () :: rest ∧ after.After rest j := by
  rcases Job.after_ask_iff.mp path with ⟨-, rfl⟩ | ⟨x, rest, rfl, path'⟩
  · exact finished.elim
  · exact ⟨rest, rfl, path'⟩

theorem accept_over (path : (c.accept m).After tr j) (finished : j.IsOver) :
    ∃ ending, c.Closes signal m backoff left (.ok (.ok ())) ending tr ∧
      j = .lift ending.result := by
  rcases settle_over path finished with ⟨e, rfl, rfl⟩ | ⟨tr₁, rfl, path₁⟩
  · exact ⟨.refused e, .refused left e, rfl⟩
  · obtain ⟨tr₂, rfl, path₂⟩ := count_over path₁ finished
    obtain ⟨rfl, rfl⟩ := Job.after_done_iff.mp path₂
    exact ⟨.accepted, .accepted left, rfl⟩

theorem deadLetter_over {x : Reaction} (failure : x.isFailure) (path : (c.deadLetter m).After tr j)
    (finished : j.IsOver) :
    ∃ ending, c.Closes signal m backoff 0 x ending tr ∧ j = .lift ending.result := by
  rcases Job.after_ask_iff.mp path with ⟨-, rfl⟩ | ⟨y, tr₁, rfl, path₁⟩
  · exact finished.elim
  cases y with
  | error e =>
    obtain ⟨rfl, rfl⟩ := Job.after_done_iff.mp path₁
    exact ⟨.unburied e, .unburied failure e, rfl⟩
  | ok position =>
    rcases settle_over path₁ finished with ⟨e, rfl, rfl⟩ | ⟨tr₂, rfl, path₂⟩
    · exact ⟨.unmoved position e, .unmoved failure position e, rfl⟩
    · obtain ⟨tr₃, rfl, path₃⟩ := count_over path₂ finished
      obtain ⟨tr₄, rfl, path₄⟩ := count_over path₃ finished
      obtain ⟨rfl, rfl⟩ := Job.after_done_iff.mp path₄
      exact ⟨.buried position, .buried failure position, rfl⟩

/-- After a failure that was not the last, the poll ends with the wait, or it goes on with another
delivery. -/
theorem retry_over {x : Reaction} (failure : x.isFailure)
    (path : (c.retry signal m left number backoff).After tr j) (finished : j.IsOver) :
    (∃ ending, c.Closes signal m backoff (left + 1) x ending tr ∧ j = .lift ending.result) ∨
    ∃ now longer rest, tr = .reply (c.counted .retried) () :: .reply .clock now ::
        .woken (Job.wakeAfter now backoff) signal .elapsed :: rest ∧
      c.nextBackoff backoff = .ok longer ∧
      (c.attempt signal m left (number + 1) longer).After rest j := by
  obtain ⟨tr₁, rfl, path₁⟩ := count_over path finished
  rcases Job.after_ask_iff.mp path₁ with ⟨-, rfl⟩ | ⟨now, tr₂, rfl, path₂⟩
  · exact finished.elim
  rcases Job.after_wait_iff.mp path₂ with ⟨-, rfl⟩ | ⟨wakeup, tr₃, rfl, path₃⟩
  · exact finished.elim
  cases wakeup with
  | raised =>
    obtain ⟨rfl, rfl⟩ := Job.after_done_iff.mp path₃
    exact .inl ⟨.stopped, .stopped failure left now, rfl⟩
  | elapsed =>
    cases next : c.nextBackoff backoff with
    | error f =>
      simp only [Job.bind, next] at path₃
      obtain ⟨rfl, rfl⟩ := Job.after_fault_iff.mp path₃
      exact .inl ⟨.overflowed f, .overflowed failure left now next, rfl⟩
    | ok longer =>
      simp only [Job.bind, next] at path₃
      exact .inr ⟨now, longer, tr₃, rfl, rfl, path₃⟩

theorem outcome_of_failure {x : Except HandlerError Unit} (failure : Reaction.isFailure (.ok x)) :
    c.outcome signal m left number backoff x = c.failed signal m left number backoff := by
  match x with
  | .ok () => cases failure
  | .error .cancelled => cases failure
  | .error (.undecodable e) => rfl
  | .error (.failed e) => rfl

/-- All that can come of a record. -/
theorem attempt_over (path : (c.attempt signal m left number backoff).After tr j)
    (finished : j.IsOver) :
    ∃ xs ending, c.Attempts signal m left number backoff xs ending tr ∧
      j = .lift ending.result := by
  induction left using Nat.strongRecOn generalizing number backoff tr with
  | ind left ih =>
    rw [attempt_eq] at path
    rcases Job.after_ask_iff.mp path with ⟨-, rfl⟩ | ⟨history, tr, rfl, path₁⟩
    · exact finished.elim
    rcases Job.after_bind_over path₁ finished with ⟨f, broken, rfl⟩ |
      ⟨x, mid, tr, rfl, handled, path₂⟩
    · have closes : c.Closes signal m backoff left (.error f) (.broken f) [] := .broken left f
      have attempts := Attempts.last (.intro history broken) closes
      rw [List.append_nil] at attempts
      exact ⟨_, _, attempts, rfl⟩
    have delivers : c.Delivers signal m number (.ok x)
        (.reply (.deliver c.group { m with attempt := number }) history :: mid) :=
      .intro history handled
    have closing (closes : ∃ ending, c.Closes signal m backoff left (.ok x) ending tr ∧
        j = .lift ending.result) : ∃ xs ending, c.Attempts signal m left number backoff xs ending
          (.reply (.deliver c.group { m with attempt := number }) history :: mid ++ tr) ∧
        j = .lift ending.result := by
      obtain ⟨ending, closes, same⟩ := closes
      exact ⟨_, ending, .last delivers closes, same⟩
    by_cases failure : Reaction.isFailure (.ok x)
    · rw [outcome_of_failure failure] at path₂
      cases left with
      | zero => exact closing (deadLetter_over failure path₂ finished)
      | succ left =>
        rcases retry_over failure path₂ finished with closes | ⟨now, longer, tr, rfl, next, path₃⟩
        · exact closing closes
        · obtain ⟨xs, ending, attempts, same⟩ := ih left (Nat.lt_succ_self _) path₃
          exact ⟨_, ending, .again delivers failure next attempts, same⟩
    · match x with
      | .ok () => exact closing (accept_over path₂ finished)
      | .error .cancelled =>
        obtain ⟨tr, rfl, path₃⟩ := count_over path₂ finished
        obtain ⟨rfl, rfl⟩ := Job.after_done_iff.mp path₃
        exact closing ⟨.cancelled, .cancelled left, rfl⟩
      | .error (.undecodable e) => exact absurd rfl failure
      | .error (.failed e) => exact absurd rfl failure

end Over

/-- How the reactions and their greatest number decide an ending. -/
inductive Ends (n : Nat) : List Reaction → Ending → Prop
  | accepted {xs : List Reaction} (failures : ∀ x ∈ xs, x.isFailure) (room : xs.length < n) :
      Ends n (xs ++ [.ok (.ok ())]) .accepted
  | refused {xs : List Reaction} (failures : ∀ x ∈ xs, x.isFailure) (room : xs.length < n)
      (e : Bus.Error) : Ends n (xs ++ [.ok (.ok ())]) (.refused e)
  | cancelled {xs : List Reaction} (failures : ∀ x ∈ xs, x.isFailure) (room : xs.length < n) :
      Ends n (xs ++ [.ok (.error .cancelled)]) .cancelled
  | broken {xs : List Reaction} (failures : ∀ x ∈ xs, x.isFailure) (room : xs.length < n)
      (f : Fault) : Ends n (xs ++ [.error f]) (.broken f)
  | buried {xs : List Reaction} (failures : ∀ x ∈ xs, x.isFailure) (all : xs.length = n)
      (position : Bus.Position) : Ends n xs (.buried position)
  | unburied {xs : List Reaction} (failures : ∀ x ∈ xs, x.isFailure) (all : xs.length = n)
      (e : Bus.Error) : Ends n xs (.unburied e)
  | unmoved {xs : List Reaction} (failures : ∀ x ∈ xs, x.isFailure) (all : xs.length = n)
      (position : Bus.Position) (e : Bus.Error) : Ends n xs (.unmoved position e)
  | stopped {xs : List Reaction} (failures : ∀ x ∈ xs, x.isFailure) (some : xs ≠ [])
      (room : xs.length < n) : Ends n xs .stopped
  | overflowed {xs : List Reaction} (failures : ∀ x ∈ xs, x.isFailure) (some : xs ≠ [])
      (room : xs.length < n) (f : Fault) : Ends n xs (.overflowed f)

namespace Ends

variable {n : Nat} {x : Reaction} {xs : List Reaction} {ending : Ending}

/-- One more failure before, and one more delivery that may be made. -/
theorem cons (failure : x.isFailure) (h : Ends n xs ending) : Ends (n + 1) (x :: xs) ending := by
  have both {ys : List Reaction} (failures : ∀ y ∈ ys, y.isFailure) :
      ∀ y ∈ x :: ys, y.isFailure := List.forall_mem_cons.mpr ⟨failure, failures⟩
  cases h with
  | accepted failures room => exact .accepted (both failures) (Nat.succ_lt_succ room)
  | refused failures room e => exact .refused (both failures) (Nat.succ_lt_succ room) e
  | cancelled failures room => exact .cancelled (both failures) (Nat.succ_lt_succ room)
  | broken failures room f => exact .broken (both failures) (Nat.succ_lt_succ room) f
  | buried failures all position => exact .buried (both failures) (congrArg (· + 1) all) position
  | unburied failures all e => exact .unburied (both failures) (congrArg (· + 1) all) e
  | unmoved failures all position e =>
    exact .unmoved (both failures) (congrArg (· + 1) all) position e
  | stopped failures _ room =>
    exact .stopped (both failures) (List.cons_ne_nil _ _) (Nat.succ_lt_succ room)
  | overflowed failures _ room f =>
    exact .overflowed (both failures) (List.cons_ne_nil _ _) (Nat.succ_lt_succ room) f

end Ends

section Attempted

variable {left number : Nat} {backoff : Span} {x : Reaction} {xs : List Reaction} {ending : Ending}
  {tr : Trace}

theorem Closes.ends (h : c.Closes signal m backoff left x ending tr) :
    Ends (left + 1) [x] ending := by
  have one {x : Reaction} (failure : x.isFailure) : ∀ y ∈ [x], y.isFailure :=
    List.forall_mem_singleton.mpr failure
  have none : ∀ y ∈ ([] : List Reaction), y.isFailure := by simp
  cases h with
  | accepted => exact .accepted none (Nat.succ_pos _)
  | refused _ e => exact .refused none (Nat.succ_pos _) e
  | cancelled => exact .cancelled none (Nat.succ_pos _)
  | buried failure position => exact .buried (one failure) rfl position
  | unburied failure e => exact .unburied (one failure) rfl e
  | unmoved failure position e => exact .unmoved (one failure) rfl position e
  | stopped failure => exact .stopped (one failure) (List.cons_ne_nil _ _) (by simp)
  | overflowed failure _ _ overflow =>
    exact .overflowed (one failure) (List.cons_ne_nil _ _) (by simp) _
  | broken _ f => exact .broken none (Nat.succ_pos _) f

theorem Attempts.ends (h : c.Attempts signal m left number backoff xs ending tr) :
    Ends (left + 1) xs ending := by
  induction h with
  | last _ closes => exact closes.ends
  | again _ failure _ _ ih => exact ih.cons failure

end Attempted

/-- Why a poll may fault: a backoff that cannot be doubled, or the handler. -/
def MayFault (c : Consumer) (signal : Option Signal) (f : Fault) : Prop :=
  (f = .spanProduct ∧ ¬ c.config.IsMild) ∨
    ∃ history m tr, (c.handler history m signal).After tr (.fault f)

theorem shorter_eq (n : Nat) (s : Span) : Span.shorter ⟨n⟩ s = ⟨min n s.nanos⟩ := by
  obtain ⟨m⟩ := s
  rw [Span.shorter]
  split
  · next less =>
    have less : m < n := less
    rw [Nat.min_eq_right (Nat.le_of_lt less)]
  · next more =>
    have more : n ≤ m := Nat.not_lt.mp more
    rw [Nat.min_eq_left more]

theorem nextBackoff_le {s longer : Span} (next : c.nextBackoff s = .ok longer) :
    longer.nanos ≤ c.config.maxBackoff.nanos := by
  rw [nextBackoff, Span.double] at next
  split at next
  · cases next
    show (Span.shorter _ _).nanos ≤ _
    rw [shorter_eq]
    exact Nat.min_le_right _ _
  · cases next

theorem Attempts.mayFault {left number : Nat} {backoff : Span} {xs : List Reaction}
    {ending : Ending} {tr : Trace} (h : c.Attempts signal m left number backoff xs ending tr)
    (short : c.config.IsMild → 2 * backoff.nanos ≤ Span.longest) {f : Fault}
    (fault : ending.result = .error f) : c.MayFault signal f := by
  induction h with
  | @last _ _ backoff _ _ _ _ delivers closes =>
    cases closes with
    | overflowed failure left now overflow =>
      cases fault
      rw [nextBackoff, Span.double] at overflow
      by_cases small : 2 * backoff.nanos ≤ Span.longest
      · rw [if_pos small] at overflow
        cases overflow
      · rw [if_neg small] at overflow
        cases overflow
        exact .inl ⟨rfl, fun mild => small (short mild)⟩
    | broken =>
      cases fault
      cases delivers with
      | intro history path => exact .inr ⟨history, _, _, path⟩
    | _ => cases fault
  | again _ _ next _ ih =>
    refine ih (fun mild => ?_) fault
    have most := nextBackoff_le next
    have := mild.maxBackoff
    omega

/-- A poll faults for no other reasons. -/
theorem poll_mayFault {p : Nat} {tr : Trace} {f : Fault}
    (path : (c.pollPartition signal p).After tr (.fault f)) : c.MayFault signal f := by
  generalize last : Job.fault f = j at path
  cases poll_course path with
  | fetched i m path' =>
    subst last
    obtain ⟨xs, ending, attempts, same⟩ := attempt_over path' trivial
    refine attempts.mayFault (fun mild => mild.backoff) ?_
    cases result : ending.result with
    | ok y =>
      rw [result] at same
      cases same
    | error f' =>
      rw [result] at same
      cases same
      rfl
  | _ => cases last

/-! ## What has been done -/

/-- What is done after the last delivery. -/
def Ending.deeds (c : Consumer) (m : Bus.Message) : Ending → List Request
  | .accepted =>
    [.commit c.group c.topic m.partition (m.offset + 1), c.counted .acked]
  | .cancelled => [c.counted .cancelled]
  | .buried _ =>
    [.publish c.topic.deadLetters m.key m.payload,
      .commit c.group c.topic m.partition (m.offset + 1), c.counted .deadLettered,
      .count (.deadLettered c.topic c.group) 1]
  | .unmoved _ _ => [.publish c.topic.deadLetters m.key m.payload]
  | .stopped => [c.counted .retried]
  | .overflowed _ => [c.counted .retried]
  | .refused _ => []
  | .unburied _ => []
  | .broken _ => []

/-- What is done from a delivery on, when so many more follow it. -/
def deeds (c : Consumer) (m : Bus.Message) (ending : Ending) : Nat → Nat → List Request
  | number, 0 => .deliver c.group { m with attempt := number } :: ending.deeds c m
  | number, n + 1 =>
    .deliver c.group { m with attempt := number } :: c.counted .retried ::
      c.deeds m ending (number + 1) n

end Consumer

/-- What happened to records of a topic in a group, as it is counted. -/
def Request.outcomes (t : Topic) (g : String) : Request → List Meter.Outcome
  | .count (.consumed t' g' o) 1 => if t' = t ∧ g' = g then [o] else []
  | _ => []

theorem Encounter.done?_reply {e : Encounter} {r : Request} (done : e.done? = some r) :
    ∃ x, e = .reply r x := by
  unfold done? at done
  split at done
  case h_5 => cases done
  all_goals
    cases done
    exact ⟨_, rfl⟩

/-- What a job never asks is never done by it. -/
theorem Job.Asks.done {α β : Type} {j k : Job α} {F : Request → List β} {tr : Trace}
    (silent : j.Asks fun r => F r = []) (path : j.After tr k) : tr.done.flatMap F = [] := by
  rw [List.flatMap_eq_nil_iff]
  intro r mem
  obtain ⟨e, met, done⟩ := List.mem_filterMap.mp mem
  obtain ⟨x, rfl⟩ := Encounter.done?_reply done
  exact silent.of_mem path met

namespace Consumer

section Views

variable {c : Consumer} {signal : Option Signal} {m : Bus.Message} {β : Type}
  {F : Request → List β} {left number : Nat} {backoff : Span} {x : Reaction} {xs : List Reaction}
  {ending : Ending} {tr : Trace}

theorem Delivers.view (silent : c.Handles signal m fun r => F r = [])
    (h : c.Delivers signal m number x tr) :
    tr.done.flatMap F = F (.deliver c.group { m with attempt := number }) := by
  cases h with
  | intro history path =>
    have handled := (silent history number).done path
    show F _ ++ (Trace.done _).flatMap F = _
    rw [handled, List.append_nil]

theorem Closes.done (h : c.Closes signal m backoff left x ending tr) :
    tr.done = ending.deeds c m := by
  cases h <;> rfl

/-- An offset that could not be moved. -/
theorem Closes.mem_of_stuck (h : c.Closes signal m backoff left x ending tr) {e : Bus.Error}
    (stuck : ending = .refused e ∨ ∃ position, ending = .unmoved position e) :
    .reply (.commit c.group c.topic m.partition (m.offset + 1)) (.error e) ∈ tr := by
  rcases stuck with rfl | ⟨position, rfl⟩
  · cases h
    exact List.mem_singleton_self _
  · cases h
    exact List.mem_cons_of_mem _ (List.mem_singleton_self _)

theorem Closes.last_of_unburied {e : Bus.Error}
    (h : c.Closes signal m backoff left x (.unburied e) tr) :
    tr.getLast? = some (.reply (.publish c.topic.deadLetters m.key m.payload) (.error e)) := by
  cases h
  rfl

theorem Closes.last_of_stopped (h : c.Closes signal m backoff left x .stopped tr) :
    ∃ wake, tr.getLast? = some (.woken wake signal .raised) := by
  cases h
  exact ⟨_, rfl⟩

theorem Attempts.closing (h : c.Attempts signal m left number backoff xs ending tr) :
    ∃ left' backoff' x tr₁ tr₂, tr = tr₁ ++ tr₂ ∧
      c.Closes signal m backoff' left' x ending tr₂ := by
  induction h with
  | last _ closes => exact ⟨_, _, _, _, _, rfl, closes⟩
  | again _ _ _ _ ih =>
    obtain ⟨left', backoff', x, tr₁, tr₂, rfl, closes⟩ := ih
    exact ⟨left', backoff', x, _, tr₂, (List.append_assoc _ (_ :: _ :: _ :: tr₁) tr₂).symm, closes⟩

theorem Attempts.length_pos (h : c.Attempts signal m left number backoff xs ending tr) :
    0 < xs.length := by
  cases h <;> simp

/-- In a view that shows nothing of the handler, what has been done is told by the number of
deliveries and by the ending. -/
theorem Attempts.view (silent : c.Handles signal m fun r => F r = [])
    (h : c.Attempts signal m left number backoff xs ending tr) :
    tr.done.flatMap F = (c.deeds m ending number (xs.length - 1)).flatMap F := by
  induction h with
  | last delivers closes =>
    rw [Trace.done_append, List.flatMap_append, delivers.view silent, closes.done]
    rfl
  | @again left number now backoff longer x xs ending tr tr' delivers failure next rest ih =>
    obtain ⟨n, length⟩ := Nat.exists_eq_succ_of_ne_zero rest.length_pos.ne'
    rw [Trace.done_append, List.flatMap_append, delivers.view silent, List.length_cons,
      Nat.add_sub_cancel, length, deeds, List.flatMap_cons, List.flatMap_cons]
    rw [length, Nat.succ_sub_one] at ih
    rw [← ih]
    rfl

end Views

section Deeds

variable {c : Consumer} {m : Bus.Message} {ending : Ending}

/-- The record is handed over with consecutive numbers. -/
theorem deeds_hands (about : m.topic = c.topic) (ending : Ending) (number n : Nat) :
    (c.deeds m ending number n).flatMap (Request.hands c.group c.topic m.partition) =
      (List.range (n + 1)).map fun k => { m with attempt := number + k } := by
  have closing : (ending.deeds c m).flatMap (Request.hands c.group c.topic m.partition) = [] := by
    cases ending <;> rfl
  induction n generalizing number with
  | zero => simp [deeds, closing, Request.hands, about]
  | succ n ih =>
    rw [deeds, List.flatMap_cons, List.flatMap_cons, ih, List.range_succ_eq_map (n := n + 1)]
    simp [Request.hands, about, counted, Nat.add_comm, Nat.add_left_comm]

theorem deeds_marks (number n : Nat) :
    (c.deeds m ending number n).flatMap (Request.marks c.group c.topic m.partition) =
      if ending.isSettled then [m.offset + 1] else [] := by
  induction n generalizing number with
  | zero => cases ending <;> simp [deeds, Ending.deeds, Ending.isSettled, Request.marks, counted]
  | succ n ih => exact ih (number + 1)

/-- A dead letter has the key and the payload of the record. -/
theorem Ending.deeds_adds (ending : Ending) (partitions : Nat) (t : Topic) (q : Nat) :
    (ending.deeds c m).flatMap (Request.adds partitions t q) =
      if ending.isBuried ∧ c.topic.deadLetters = t ∧ Bus.partitionOf m.key partitions = q then
        [⟨m.key, m.payload⟩]
      else [] := by
  cases ending <;> simp [Ending.deeds, Ending.isBuried, Request.adds, counted]

theorem deeds_adds (number n partitions : Nat) (t : Topic) (q : Nat) :
    (c.deeds m ending number n).flatMap (Request.adds partitions t q) =
      if ending.isBuried ∧ c.topic.deadLetters = t ∧ Bus.partitionOf m.key partitions = q then
        [⟨m.key, m.payload⟩]
      else [] := by
  induction n generalizing number with
  | zero => exact ending.deeds_adds partitions t q
  | succ n ih => exact ih (number + 1)

/-- Every failure but the last counts as one retry. -/
theorem deeds_outcomes (number n : Nat) :
    (c.deeds m ending number n).flatMap (Request.outcomes c.topic c.group) =
      List.replicate n .retried ++ ending.outcomes := by
  induction n generalizing number with
  | zero =>
    cases ending <;> simp [deeds, Ending.deeds, Ending.outcomes, Request.outcomes, counted]
  | succ n ih =>
    rw [deeds, List.flatMap_cons, List.flatMap_cons, ih, List.replicate_succ]
    simp [Request.outcomes, counted]

end Deeds

end Consumer
end Shipyard

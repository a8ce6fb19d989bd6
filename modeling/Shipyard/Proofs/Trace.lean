import Shipyard.World

/-!
# Traces of jobs

What a job may meet with at each of its cuts, and where a sequence of such encounters takes it.
No world is assumed here: a statement about every trace of a job holds whatever answers the job
gets, and whatever other jobs do between its requests.
-/

namespace Shipyard

/-- A reply to a request, or the end of a wait. -/
inductive Encounter
  | reply (r : Request) (x : r.Reply)
  | woken (wake : Nat) (signal : Option Signal) (x : Wakeup)

abbrev Trace : Type := List Encounter

namespace Job

variable {α β : Type}

inductive Meets : Job α → Encounter → Job α → Prop
  | reply (r : Request) (k : r.Reply → Job α) (x : r.Reply) : Meets (.ask r k) (.reply r x) (k x)
  | woken (wake : Nat) (signal : Option Signal) (k : Wakeup → Job α) (x : Wakeup) :
      Meets (.wait wake signal k) (.woken wake signal x) (k x)

/-- `j.After tr k`: the encounters of `tr` take `j` to `k`. -/
inductive After : Job α → Trace → Job α → Prop
  | here (j : Job α) : After j [] j
  | there {j k l : Job α} {e : Encounter} {tr : Trace} :
      Meets j e k → After k tr l → After j (e :: tr) l

theorem After.append {j k l : Job α} {tr tr' : Trace} (h : j.After tr k) (h' : k.After tr' l) :
    j.After (tr ++ tr') l := by
  induction h with
  | here => exact h'
  | there step _ ih => exact .there step (ih h')

theorem After.snoc {j k l : Job α} {tr : Trace} {e : Encounter} (h : j.After tr k)
    (step : Meets k e l) : j.After (tr ++ [e]) l :=
  h.append (.there step (.here l))

theorem after_done_iff {x : α} {tr : Trace} {l : Job α} :
    (done x).After tr l ↔ tr = [] ∧ l = done x := by
  constructor
  · rintro ⟨⟩
    · exact ⟨rfl, rfl⟩
    · next step _ => cases step
  · rintro ⟨rfl, rfl⟩
    exact .here _

theorem after_fault_iff {f : Fault} {tr : Trace} {l : Job α} :
    (fault f : Job α).After tr l ↔ tr = [] ∧ l = fault f := by
  constructor
  · rintro ⟨⟩
    · exact ⟨rfl, rfl⟩
    · next step _ => cases step
  · rintro ⟨rfl, rfl⟩
    exact .here _

theorem after_ask_iff {r : Request} {k : r.Reply → Job α} {tr : Trace} {l : Job α} :
    (ask r k).After tr l ↔
      (tr = [] ∧ l = ask r k) ∨ ∃ x tr', tr = .reply r x :: tr' ∧ (k x).After tr' l := by
  constructor
  · rintro ⟨⟩
    · exact .inl ⟨rfl, rfl⟩
    · next step rest =>
      cases step
      exact .inr ⟨_, _, rfl, rest⟩
  · rintro (⟨rfl, rfl⟩ | ⟨x, tr', rfl, rest⟩)
    · exact .here _
    · exact .there (.reply r k x) rest

theorem after_wait_iff {wake : Nat} {s : Option Signal} {k : Wakeup → Job α} {tr : Trace}
    {l : Job α} :
    (wait wake s k).After tr l ↔
      (tr = [] ∧ l = wait wake s k) ∨
        ∃ x tr', tr = .woken wake s x :: tr' ∧ (k x).After tr' l := by
  constructor
  · rintro ⟨⟩
    · exact .inl ⟨rfl, rfl⟩
    · next step rest =>
      cases step
      exact .inr ⟨_, _, rfl, rest⟩
  · rintro (⟨rfl, rfl⟩ | ⟨x, tr', rfl, rest⟩)
    · exact .here _
    · exact .there (.woken wake s k x) rest

theorem bind_done (j : Job α) : j.bind .done = j := by
  induction j with
  | done x => rfl
  | fault f => rfl
  | ask r k ih => exact congrArg (ask r) (funext ih)
  | wait wake signal k ih => exact congrArg (wait wake signal) (funext ih)

theorem After.bind {j k : Job α} {tr : Trace} (h : j.After tr k) (f : α → Job β) :
    (j.bind f).After tr (k.bind f) := by
  induction h with
  | here => exact .here _
  | there step _ ih =>
    cases step with
    | reply r k x => exact .there (.reply r (fun x => (k x).bind f) x) ih
    | woken wake s k x => exact .there (.woken wake s (fun x => (k x).bind f) x) ih

/-- A sequence of jobs is in its first part, or has been through it. -/
theorem after_bind {j : Job α} {f : α → Job β} {tr : Trace} {l : Job β}
    (h : (j.bind f).After tr l) :
    (∃ k, j.After tr k ∧ l = k.bind f) ∨
      ∃ x tr₁ tr₂, tr = tr₁ ++ tr₂ ∧ j.After tr₁ (done x) ∧ (f x).After tr₂ l := by
  induction j generalizing tr with
  | done x => exact .inr ⟨x, [], tr, rfl, .here _, h⟩
  | fault e =>
    obtain ⟨rfl, rfl⟩ := after_fault_iff.mp h
    exact .inl ⟨.fault e, .here _, rfl⟩
  | ask r k ih =>
    obtain ⟨rfl, rfl⟩ | ⟨x, tr', rfl, rest⟩ := after_ask_iff.mp h
    · exact .inl ⟨.ask r k, .here _, rfl⟩
    · rcases ih x rest with ⟨j', first, rfl⟩ | ⟨y, tr₁, tr₂, rfl, first, last⟩
      · exact .inl ⟨j', .there (.reply r k x) first, rfl⟩
      · exact .inr ⟨y, _ :: tr₁, tr₂, rfl, .there (.reply r k x) first, last⟩
  | wait wake s k ih =>
    obtain ⟨rfl, rfl⟩ | ⟨x, tr', rfl, rest⟩ := after_wait_iff.mp h
    · exact .inl ⟨.wait wake s k, .here _, rfl⟩
    · rcases ih x rest with ⟨j', first, rfl⟩ | ⟨y, tr₁, tr₂, rfl, first, last⟩
      · exact .inl ⟨j', .there (.woken wake s k x) first, rfl⟩
      · exact .inr ⟨y, _ :: tr₁, tr₂, rfl, .there (.woken wake s k x) first, last⟩

/-- A sequence of jobs that is about to ask something asks it in its first part, or after it. -/
theorem after_bind_ask {j : Job α} {f : α → Job β} {tr : Trace} {r : Request}
    {k : r.Reply → Job β} (h : (j.bind f).After tr (.ask r k)) :
    (∃ k', j.After tr (.ask r k')) ∨
      ∃ x tr₁ tr₂, tr = tr₁ ++ tr₂ ∧ j.After tr₁ (done x) ∧ (f x).After tr₂ (.ask r k) := by
  rcases after_bind h with ⟨j', path, same⟩ | later
  · cases j' with
    | done x => exact .inr ⟨x, tr, [], by simp, path, same ▸ .here _⟩
    | fault e => cases same
    | ask r' k' =>
      cases same
      exact .inl ⟨k', path⟩
    | wait => cases same
  · exact .inr later

/-- A sequence of jobs that has ended has been through both. -/
theorem after_bind_done {j : Job α} {f : α → Job β} {tr : Trace} {y : β}
    (h : (j.bind f).After tr (done y)) :
    ∃ x tr₁ tr₂, tr = tr₁ ++ tr₂ ∧ j.After tr₁ (done x) ∧ (f x).After tr₂ (done y) := by
  rcases after_bind h with ⟨j', path, same⟩ | later
  · cases j' with
    | done x => exact ⟨x, tr, [], by simp, path, same ▸ .here _⟩
    | fault e => cases same
    | ask r k => cases same
    | wait wake s k => cases same
  · exact later

/-- Every request that a job may ever ask satisfies `Q`. -/
def Asks (Q : Request → Prop) : Job α → Prop
  | done _ => True
  | fault _ => True
  | ask r k => Q r ∧ ∀ x, (k x).Asks Q
  | wait _ _ k => ∀ x, (k x).Asks Q

theorem Asks.mono {Q R : Request → Prop} {j : Job α} (h : j.Asks Q) (imp : ∀ r, Q r → R r) :
    j.Asks R := by
  induction j with
  | done => trivial
  | fault => trivial
  | ask r k ih => exact ⟨imp r h.1, fun x => ih x (h.2 x)⟩
  | wait wake s k ih => exact fun x => ih x (h x)

theorem Asks.bind {Q : Request → Prop} {j : Job α} {f : α → Job β} (h : j.Asks Q)
    (next : ∀ x, (f x).Asks Q) : (j.bind f).Asks Q := by
  induction j with
  | done x => exact next x
  | fault => trivial
  | ask r k ih => exact ⟨h.1, fun x => ih x (h.2 x)⟩
  | wait wake s k ih => exact fun x => ih x (h x)

theorem Asks.upTo {Q : Request → Prop} {j : Job α} {limit : Nat} {late : α} (h : j.Asks Q) :
    (j.upTo limit late).Asks Q := by
  induction j with
  | done => trivial
  | fault => trivial
  | ask r k ih => exact ⟨h.1, fun x => ih x (h.2 x)⟩
  | wait wake s k ih =>
    simp only [Job.upTo]
    split
    · exact fun x => ih x (h x)
    · intro x
      cases x with
      | elapsed => trivial
      | raised => exact ih _ (h _)

theorem Asks.after {Q : Request → Prop} {j k : Job α} {tr : Trace} (h : j.Asks Q)
    (path : j.After tr k) : k.Asks Q := by
  induction path with
  | here => exact h
  | there step _ ih =>
    cases step with
    | reply r k x => exact ih (h.2 x)
    | woken wake s k x => exact ih (h x)

theorem Asks.of_mem {Q : Request → Prop} {j k : Job α} {tr : Trace} (h : j.Asks Q)
    (path : j.After tr k) {r : Request} {x : r.Reply} (mem : .reply r x ∈ tr) : Q r := by
  induction path with
  | here => cases mem
  | there step _ ih =>
    cases step with
    | reply r' k x' =>
      rcases List.mem_cons.mp mem with same | mem
      · cases same
        exact h.1
      · exact ih (h.2 x') mem
    | woken wake s k x' =>
      rcases List.mem_cons.mp mem with same | mem
      · cases same
      · exact ih (h x') mem

/-- Once it has asked anything of `A`, a job asks nothing of `B` any more. -/
def Closes (A B : Request → Prop) : Job α → Prop
  | done _ => True
  | fault _ => True
  | ask r k => (A r → ∀ x, (k x).Asks fun r => ¬ B r) ∧ ∀ x, (k x).Closes A B
  | wait _ _ k => ∀ x, (k x).Closes A B

theorem Asks.closes {A B : Request → Prop} {j : Job α} (h : j.Asks fun r => ¬ B r) :
    j.Closes A B := by
  induction j with
  | done => trivial
  | fault => trivial
  | ask r k ih => exact ⟨fun _ => h.2, fun x => ih x (h.2 x)⟩
  | wait wake s k ih => exact fun x => ih x (h x)

theorem Closes.bind {A B : Request → Prop} {j : Job α} {f : α → Job β}
    (first : j.Asks fun r => ¬ A r) (next : ∀ x, (f x).Closes A B) : (j.bind f).Closes A B := by
  induction j with
  | done x => exact next x
  | fault => trivial
  | ask r k ih => exact ⟨fun a => absurd a first.1, fun x => ih x (first.2 x)⟩
  | wait wake s k ih => exact fun x => ih x (first x)

theorem Closes.open_of_asks {A B : Request → Prop} {j : Job α} {tr : Trace} {r : Request}
    {k : r.Reply → Job α} (h : j.Closes A B) (path : j.After tr (ask r k)) (b : B r)
    {r' : Request} {x : r'.Reply} (mem : .reply r' x ∈ tr) : ¬ A r' := by
  generalize stop : ask r k = l at path
  induction path with
  | here => cases mem
  | there step rest ih =>
    cases step with
    | reply r₀ k₀ x₀ =>
      rcases List.mem_cons.mp mem with same | mem
      · cases same
        intro a
        subst stop
        exact ((h.1 a x).after rest).1 b
      · exact ih (h.2 x₀) mem stop
    | woken wake s k₀ x₀ =>
      rcases List.mem_cons.mp mem with same | mem
      · cases same
      · exact ih (h x₀) mem stop

end Job
end Shipyard

import Shipyard.Proofs.Delivery.Crew
import Shipyard.Proofs.Schedule

/-!
# Running the workers

When the workers are run, a pool lets them and the shutdown have the floor in turns, and a round
lets its jobs go on one after another. Whatever a worker does in one move is a number of its steps
(`move_steps`). So a poll of all partitions that is run is one of `Polls` (`Polls.of_run`), a drain
that is run ends as `Drained` says (`Drained.run`), and a run of the workers is a shift if all of
them come to their ends (`run_shift`).
-/

namespace Shipyard

namespace Bundle

variable {α : Type} {b : Bundle α} {rs : List α}

theorem allDone_eq_some_iff {js : List (Job α)} : allDone js = some rs ↔ js = rs.map .done := by
  induction js generalizing rs with
  | nil => cases rs <;> simp [allDone]
  | cons j js ih =>
    cases j with
    | done x =>
      rw [allDone, Option.map_eq_some_iff]
      cases rs with
      | nil => simp
      | cons r rs =>
        simp only [ih, List.map_cons, List.cons.injEq, Job.done.injEq]
        constructor
        · rintro ⟨rs', rfl, rfl, rfl⟩
          exact ⟨rfl, rfl⟩
        · rintro ⟨rfl, rfl⟩
          exact ⟨rs, rfl, rfl, rfl⟩
    | fault => cases rs <;> simp [allDone]
    | ask => cases rs <;> simp [allDone]
    | wait => cases rs <;> simp [allDone]

theorem jobs_snoc (b : Bundle α) (js : List (Nat × Job α)) :
    jobs { b with queue := b.queue ++ js } = b.jobs ++ js :=
  (List.append_assoc ..).symm

theorem byNumber_perm (b : Bundle α) : b.byNumber.Perm b.jobs :=
  List.mergeSort_perm _ _

/-- The results of a bundle are those of its jobs. -/
theorem results_perm (past : b.results? = some rs) :
    (b.jobs.map Prod.snd).Perm (rs.map .done) := by
  rw [results?, allDone_eq_some_iff] at past
  rw [← past]
  exact (b.byNumber_perm.map Prod.snd).symm

theorem mem_jobs_of_fault {f : Fault} (fault : b.fault? = some f) :
    ∃ i, (i, .fault f) ∈ b.jobs := by
  obtain ⟨⟨i, j⟩, mem, found⟩ := List.exists_of_findSome?_eq_some fault
  split at found
  · next faulty =>
    cases found
    obtain rfl : j = .fault f := faulty
    exact ⟨i, List.mem_append_right _ mem⟩
  · cases found

theorem upcoming_perm (b : Bundle α) : b.upcoming.Perm b.jobs := by
  rw [upcoming]
  split
  · exact b.byNumber_perm
  · refine .trans ?_ b.byNumber_perm
    rw [List.rotateLeft]
    split
    · exact .refl _
    · exact List.perm_append_comm.trans (.of_eq (List.take_append_drop _ _))
  · exact .refl _

/-- Letting the first job go on that came up, in case it did not fault. -/
theorem runAll_cons {t t' : Turn} {b : Bundle α} {i : Nat} {j j' : Job α}
    {ready : List (Nat × Job α)} (ran : t.run j = (t', j')) (sound : ∀ f, j' ≠ .fault f) :
    runAll t b ((i, j) :: ready) =
      if j'.isReady t'.world then runAll t' { b with held := (i, j') :: b.held } ready
      else runAll t' { b with queue := b.queue ++ [(i, j')] } ready := by
  cases j' with
  | fault f => exact absurd rfl (sound f)
  | done x => rw [runAll, ran]
  | ask r k => rw [runAll, ran]
  | wait wake signal k => rw [runAll, ran]

end Bundle

namespace Consumer

/-- Two stages that differ in the order of the jobs of a round at most. -/
inductive Stage.Like : Stage → Stage → Prop
  | polling {b b' : Bundle (Except Bus.Error Bool)} (same : b.jobs.Perm b'.jobs) :
      Like (.polling b) (.polling b')
  | refl (s : Stage) : Like s s

def Stage.isEnded : Stage → Bool
  | .ended _ => true
  | _ => false

theorem Stage.isEnded_iff {s : Stage} : s.isEnded = true ↔ ∃ r, s = .ended r := by
  cases s <;> simp [isEnded]

def Stage.result? : Stage → Option (Except Bus.Error Nat)
  | .ended r => some r
  | _ => none

theorem Stage.result?_eq_some_iff {s : Stage} {r : Except Bus.Error Nat} :
    s.result? = some r ↔ s = .ended r := by
  cases s <;> simp [result?]

def Stage.fault? : Stage → Option Fault
  | .crashed f => some f
  | _ => none

namespace Worker

variable {k : Worker} {t : Turn}

/-- Two workers that differ in the order of the jobs of a round at most. -/
def Like (k k' : Worker) : Prop := ∃ s, k = { k' with stage := s } ∧ s.Like k'.stage

/-- A number of steps of a worker. -/
abbrev Steps : World × Worker → World × Worker → Prop :=
  Relation.ReflTransGen fun x y => x.2.Step x.1 y.1 y.2

theorem job_steps {round : Bundle (Except Bus.Error Bool)} {i : Nat}
    {rest : List (Nat × Job (Except Bus.Error Bool))} {x y : World × Job (Except Bus.Error Bool)}
    (jobs : round.jobs.Perm ((i, x.2) :: rest)) (moves : Relation.ReflTransGen Job.Moves x y) :
    ∃ round', round'.jobs.Perm ((i, y.2) :: rest) ∧
      Steps (x.1, { k with stage := .polling round })
        (y.1, { k with stage := .polling round' }) := by
  induction moves with
  | refl => exact ⟨round, jobs, .refl⟩
  | @tail y z _ step ih =>
    obtain ⟨e, world, job⟩ := step
    obtain ⟨round', jobs', steps⟩ := ih
    let round'' : Bundle (Except Bus.Error Bool) := ⟨.queued, 0, (i, z.2) :: rest, []⟩
    have replaces : round'.Replaces i y.2 z.2 round'' := ⟨rest, jobs', .refl _⟩
    exact ⟨round'', .refl _, steps.tail (.go rfl replaces world job)⟩

theorem runAll_steps {ready : List (Nat × Job (Except Bus.Error Bool))}
    {b round : Bundle (Except Bus.Error Bool)} (jobs : round.jobs.Perm (b.jobs ++ ready)) :
    ∃ round', round'.jobs.Perm (b.runAll t ready).2.jobs ∧
      Steps (t.world, { k with stage := .polling round })
        ((b.runAll t ready).1.world, { k with stage := .polling round' }) := by
  induction ready generalizing t b round with
  | nil =>
    rw [List.append_nil] at jobs
    exact ⟨round, jobs, .refl⟩
  | cons x ready ih =>
    obtain ⟨i, j⟩ := x
    obtain ⟨round₁, jobs₁, steps⟩ :=
      job_steps (k := k) (jobs.trans List.perm_middle) (t.run_moves j)
    generalize ran : t.run j = moved at jobs₁ steps
    obtain ⟨t', j'⟩ := moved
    by_cases faulty : ∃ f, j' = .fault f
    · obtain ⟨f, rfl⟩ := faulty
      rw [Bundle.runAll, ran]
      refine ⟨round₁, jobs₁.trans ?_, steps⟩
      rw [Bundle.jobs_snoc]
      exact List.perm_middle.symm
    · push Not at faulty
      rw [Bundle.runAll_cons ran faulty]
      split
      · have jobs₂ : round₁.jobs.Perm
            (Bundle.jobs { b with held := (i, j') :: b.held } ++ ready) := jobs₁
        obtain ⟨round₂, jobs₃, steps'⟩ := ih jobs₂
        exact ⟨round₂, jobs₃, steps.trans steps'⟩
      · have jobs₂ : round₁.jobs.Perm
            (Bundle.jobs { b with queue := b.queue ++ [(i, j')] } ++ ready) := by
          rw [Bundle.jobs_snoc, List.append_assoc]
          exact jobs₁.trans List.perm_middle.symm
        obtain ⟨round₂, jobs₃, steps'⟩ := ih jobs₂
        exact ⟨round₂, jobs₃, steps.trans steps'⟩

theorem run_steps {b round : Bundle (Except Bus.Error Bool)} (jobs : round.jobs.Perm b.jobs) :
    ∃ round', round'.jobs.Perm (b.run t).2.jobs ∧
      Steps (t.world, { k with stage := .polling round })
        ((b.run t).1.world, { k with stage := .polling round' }) := by
  rw [Bundle.run, List.partition_eq_filter_filter]
  refine runAll_steps (jobs.trans (b.upcoming_perm.symm.trans ?_))
  have parts := List.filter_append_perm (fun j => j.2.isReady t.world) b.upcoming
  exact parts.symm.trans List.perm_append_comm

theorem rest_steps {x y : World × Job Wakeup} (moves : Relation.ReflTransGen Job.Moves x y) :
    Steps (x.1, { k with stage := .resting x.2 }) (y.1, { k with stage := .resting y.2 }) := by
  induction moves with
  | refl => exact .refl
  | tail _ step ih =>
    obtain ⟨e, world, job⟩ := step
    exact ih.tail (.stir rfl world job)

theorem conclude_stage (k : Worker) (s : Stage) (w : World) (r : Except Bus.Error Nat) :
    { k with stage := s }.conclude w r = k.conclude w r := by
  obtain ⟨c, mode, signal, total, stage⟩ := k
  cases mode with
  | once => rfl
  | drain =>
    cases r with
    | error e => rfl
    | ok n => cases n <;> rfl
  | forever =>
    cases r with
    | error e => rfl
    | ok n => cases n <;> rfl

theorem Like.refl (k : Worker) : k.Like k := ⟨k.stage, rfl, .refl _⟩

/-- What a worker does while it has the floor. -/
theorem move_steps {k k' : Worker} (like : k.Like k') :
    ∃ k₁, Steps (t.world, k) ((move t k').1.world, k₁) ∧ k₁.Like (move t k').2 := by
  obtain ⟨s, rfl, like⟩ := like
  unfold move
  cases stage : k'.stage with
  | polling b =>
    rw [stage] at like
    obtain ⟨round, rfl, jobs⟩ : ∃ round, s = .polling round ∧ round.jobs.Perm b.jobs := by
      cases like with
      | polling same => exact ⟨_, rfl, same⟩
      | refl => exact ⟨b, rfl, .refl _⟩
    obtain ⟨round', jobs', steps⟩ := run_steps (k := k') (t := t) jobs
    dsimp only
    generalize b.run t = ran at jobs' steps
    obtain ⟨t', b'⟩ := ran
    dsimp only at jobs' steps ⊢
    split
    · next f _ fault =>
      obtain ⟨i, mem⟩ := Bundle.mem_jobs_of_fault fault
      exact ⟨_, steps.tail (.crash rfl (jobs'.mem_iff.mpr mem)), .refl _⟩
    · next rs _ results =>
      have past := (jobs'.map Prod.snd).trans (Bundle.results_perm results)
      have last : Steps (t.world, { k' with stage := .polling round })
          (t'.world, { k' with stage := .polling round' }.conclude t'.world (settled rs)) :=
        steps.tail (.conclude rfl past)
      rw [conclude_stage] at last
      exact ⟨_, last, .refl _⟩
    · exact ⟨_, steps, _, rfl, .polling jobs'⟩
  | resting j =>
    rw [stage] at like
    cases like
    have steps := rest_steps (k := k') (t.run_moves j)
    dsimp only
    generalize t.run j = ran at steps
    split
    · next t' => exact ⟨k'.begin t'.world, steps.tail (.rested rfl), .refl _⟩
    · exact ⟨_, steps.tail (.stopped rfl), .refl _⟩
    · exact ⟨_, steps, .refl _⟩
  | ended r =>
    rw [stage] at like
    cases like
    refine ⟨_, .refl, _, rfl, ?_⟩
    rw [stage]
    exact .refl _
  | crashed f =>
    rw [stage] at like
    cases like
    refine ⟨_, .refl, _, rfl, ?_⟩
    rw [stage]
    exact .refl _

end Worker
end Consumer

namespace Pool

variable {τ : Type}

def threads (p : Pool τ) : List (Nat × τ) := p.held ++ p.queue

theorem pick_some {isReady : τ → Bool} {ts rest : List (Nat × τ)} {x : Nat × τ}
    (picked : pick isReady ts = some (x, rest)) :
    isReady x.2 = true ∧ ts.Perm (x :: rest) := by
  induction ts generalizing rest with
  | nil => cases picked
  | cons t ts ih =>
    rw [pick] at picked
    split at picked
    · next ready =>
      cases picked
      exact ⟨ready, .refl _⟩
    · obtain ⟨⟨y, rest'⟩, later, same⟩ := Option.map_eq_some_iff.mp picked
      cases same
      obtain ⟨ready, perm⟩ := ih later
      exact ⟨ready, (perm.cons t).trans (.swap ..)⟩

/-- A thread that has moved is put back, and nothing else happens. -/
theorem place_perm (m : Machine τ) (turn : Turn) (x : Nat × τ) (p : Pool τ) :
    (place m turn x p).1.world = turn.world ∧
      (place m turn x p).2.threads.Perm (x :: p.threads) := by
  rw [place]
  split
  · exact ⟨rfl, .refl _⟩
  · split
    · exact ⟨rfl, List.perm_middle⟩
    · constructor
      · split <;> rfl
      · rw [threads, ← List.append_assoc]
        exact List.perm_append_comm

end Pool

namespace Consumer
namespace Worker

variable {w w' v : World} {k k' : Worker} {turn turn' : Turn} {x y : World × Worker}
  {p p' : Pool Worker}

theorem Like.isEnded (like : k.Like k') : k.stage.isEnded = k'.stage.isEnded := by
  obtain ⟨s, rfl, like⟩ := like
  generalize k'.stage = s' at like
  cases like with
  | polling => rfl
  | refl => rfl

theorem wake_of_isEnded (ended : k.stage.isEnded = true) : wake w k = none := by
  obtain ⟨r, ended⟩ := Stage.isEnded_iff.mp ended
  rw [wake, ended]

/-- Time may have passed before the first of the steps. -/
theorem Steps.proceeds (steps : Steps x y) (passes : v.Passes x.1) :
    ∃ v', Relation.ReflTransGen Proceeds (v, x.2) (v', y.2) ∧ v'.Passes y.1 ∧
      (v' = y.1 ∨ y = x) := by
  induction steps with
  | refl => exact ⟨v, .refl, passes, .inr rfl⟩
  | @tail y z _ step ih =>
    obtain ⟨v', run, passes', -⟩ := ih
    exact ⟨z.1, run.tail ⟨y.1, passes', step⟩, .refl z.1, .inl rfl⟩

/-- A worker alone in a pool. The clock moves ahead of it only while it waits. -/
structure Alone (x : World × Worker) (turn : Turn) (p : Pool Worker) : Prop where
  passes : x.1.Passes turn.world
  worker : ∃ i k, p.threads = [(i, k)] ∧ x.2.Like k ∧ (k.stage.isEnded = true → x.1 = turn.world)

theorem alone_start (k : Worker) (turn : Turn) : Alone (turn.world, k) turn (.ofList [k]) :=
  ⟨.refl _, 0, k, rfl, .refl k, fun _ => rfl⟩

/-- One move of the pool. -/
theorem Alone.step (h : Alone x turn p) (step : Pool.step? machine turn p = some (turn', p')) :
    ∃ x', Relation.ReflTransGen Proceeds x x' ∧ Alone x' turn' p' := by
  obtain ⟨passes, i, k, threads, like, still⟩ := h
  unfold Pool.step? at step
  split at step
  · next i' k' rest picked =>
    obtain ⟨ready, perm⟩ := Pool.pick_some picked
    have single : p.threads.Perm ((i', k') :: (p.held ++ rest)) :=
      (perm.append_left _).trans List.perm_middle
    rw [threads] at single
    have same := List.perm_singleton.mp single.symm
    rw [List.cons.injEq, Prod.mk.injEq] at same
    obtain ⟨⟨rfl, rfl⟩, others⟩ := same
    have placed := Pool.place_perm machine (machine.move turn k').1
      (i', (machine.move turn k').2) { p with queue := rest }
    have none : Pool.threads { p with queue := rest } = [] := others
    rw [Option.some.inj step, none] at placed
    obtain ⟨world, threads'⟩ := placed
    obtain ⟨k₁, steps, like'⟩ := move_steps (t := turn) like
    obtain ⟨v, run, passes', moved⟩ := steps.proceeds passes
    refine ⟨(v, k₁), run, world ▸ passes', i', (machine.move turn k').2,
      List.perm_singleton.mp threads', like', fun ended => ?_⟩
    rcases moved with now | stayed
    · exact now.trans world.symm
    · obtain ⟨-, rfl⟩ := Prod.mk.inj stayed
      have ended : k'.stage.isEnded = true :=
        like.isEnded.symm.trans (like'.isEnded.trans ended)
      simp [Machine.isReady, machine, wake_of_isEnded ended] at ready
  · next held =>
    obtain ⟨time, earliest, same⟩ := Option.map_eq_some_iff.mp step
    cases same
    refine ⟨x, .refl, passes.tick time, i, k, threads, like, fun ended => ?_⟩
    rw [Pool.threads, held, List.nil_append] at threads
    simp [Pool.earliest, threads, machine, wake_of_isEnded ended] at earliest
  · cases step
    exact ⟨x, .refl, passes, i, k, threads, like, still⟩

/-- A worker that has ended has done so in the world that there is. -/
theorem Alone.ended (h : Alone x turn p) (past : ∀ y ∈ p.threads, y.2.stage.isEnded = true) :
    ∃ r, x.2.stage = .ended r ∧ (∀ y ∈ p.threads, y.2.stage = .ended r) ∧ x.1 = turn.world := by
  obtain ⟨-, i, k, threads, like, still⟩ := h
  have isEnded : k.stage.isEnded = true := past (i, k) (by simp [threads])
  obtain ⟨r, stage⟩ := Stage.isEnded_iff.mp isEnded
  refine ⟨r, ?_, ?_, still isEnded⟩
  · obtain ⟨s, same, alike⟩ := like
    rw [stage] at alike
    cases alike
    rw [same]
  · rw [threads]
    intro y mem
    rw [List.mem_singleton.mp mem]
    exact stage

theorem Alone.run (h : Alone x turn p) (n : Nat) :
    ∃ x', Relation.ReflTransGen Proceeds x x' ∧
      Alone x' (Pool.run machine n turn p).1 (Pool.run machine n turn p).2 := by
  induction n generalizing x turn p with
  | zero => exact ⟨x, .refl, h⟩
  | succ n ih =>
    rw [Pool.run]
    split
    · next turn' p' step =>
      obtain ⟨x₁, run, alone⟩ := h.step step
      obtain ⟨x₂, run', alone'⟩ := ih alone
      exact ⟨x₂, run.trans run', alone'⟩
    · exact ⟨x, .refl, h⟩

end Worker

/-- A poll of all partitions that is run and comes to its end. -/
theorem Polls.of_run {c : Consumer} {t : Turn} {signal : Option Signal} {n : Nat} {turn : Turn}
    {p : Pool Worker} {r : Except Bus.Error Nat}
    (ran : Pool.run Worker.machine n t (.ofList [c.start .once signal t.world]) = (turn, p))
    (past : ∀ x ∈ p.threads, x.2.stage.result? = some r) : c.Polls signal t.world r turn.world := by
  obtain ⟨⟨w, k⟩, run, alone⟩ := (Worker.alone_start (c.start .once signal t.world) t).run n
  rw [ran] at alone
  have ended : ∀ x ∈ p.threads, x.2.stage = .ended r :=
    fun x mem => Stage.result?_eq_some_iff.mp (past x mem)
  have isEnded : ∀ x ∈ p.threads, x.2.stage.isEnded = true :=
    fun x mem => Stage.isEnded_iff.mpr ⟨r, ended x mem⟩
  obtain ⟨r', stage, threads, rfl⟩ := alone.ended isEnded
  obtain ⟨-, i, k', single, -⟩ := alone
  have mem : (i, k') ∈ p.threads := by simp [single]
  cases (threads _ mem).symm.trans (ended _ mem)
  exact ⟨k, run, stage⟩

/-- A drain that is run and comes to its end has made its statement about the world true. -/
theorem Drained.run {c : Consumer} {t : Turn} {Q : World → Prop} (drained : c.Drained t.world Q)
    {signal : Option Signal} (fresh : ∀ s, signal = some s → s ∉ t.world.raised) {n : Nat}
    {turn : Turn} {p : Pool Worker}
    (ran : Pool.run Worker.machine n t (.ofList [c.start .drain signal t.world]) = (turn, p))
    (past : ∀ x ∈ p.threads, x.2.stage.isEnded = true) : Q turn.world := by
  obtain ⟨x, run, alone⟩ := (Worker.alone_start (c.start .drain signal t.world) t).run n
  rw [ran] at alone
  obtain ⟨r, stage, -, same⟩ := alone.ended past
  have final (x : World × Worker) (r : Except Bus.Error Nat) (stage : x.2.stage = .ended r)
      (y : World × Worker) : ¬ Proceeds x y := by
    rintro ⟨v, -, step⟩
    exact step.unfinished.1 r stage
  have inevitable := (drained signal fresh).of_run
    (fun x ⟨⟨total, stage⟩, _⟩ => final x (.ok total) stage) run
  obtain ⟨-, here⟩ := inevitable.here_of_stuck (final x r stage)
  rw [same] at here
  exact here

end Consumer

theorem Crew.run_of_steps {x y : World × Consumer.Worker} (steps : Consumer.Worker.Steps x y)
    (before after : List Consumer.Worker) :
    Run ⟨x.1, before ++ x.2 :: after⟩ ⟨y.1, before ++ y.2 :: after⟩ := by
  induction steps with
  | refl => exact .refl
  | tail _ step ih => exact ih.tail (.work before after step)

namespace Workers

/-- What the shutdown does beside the workers. -/
abbrev Raises (j : Job Unit) : Prop := j.Asks fun r => r = .clock ∨ ∃ s, r = .raise s

theorem raises_run {x y : World × Job Unit} (moves : Relation.ReflTransGen Job.Moves x y)
    (raises : Raises x.2) (ks : List Consumer.Worker) :
    Crew.Run ⟨x.1, ks⟩ ⟨y.1, ks⟩ ∧ Raises y.2 := by
  induction moves with
  | refl => exact ⟨.refl, raises⟩
  | @tail y z _ step ih =>
    obtain ⟨run, raises⟩ := ih
    obtain ⟨w, j⟩ := y
    obtain ⟨w', j'⟩ := z
    obtain ⟨e, world, job⟩ := step
    dsimp only at run raises world job ⊢
    cases job with
    | woken wake signal k x =>
      obtain rfl := world.woken_eq
      exact ⟨run, raises x⟩
    | reply r k x =>
      obtain ⟨asked, rest⟩ := raises
      refine ⟨?_, rest x⟩
      rcases asked with rfl | ⟨s, rfl⟩
      · cases world with
        | answer => exact run
      · cases world with
        | answer => exact run.tail (.flip ⟨w, ks⟩ (.raise s) rfl)

/-- Workers stand for the threads of a pool: they are the same, in whatever order, and whoever else
is in the pool does nothing but raise signals. -/
structure Mirrors (ks : List Consumer.Worker) (ts : List (Nat × Thread)) : Prop where
  workers : ∃ ks', ((ts.map Prod.snd).filterMap Sum.getLeft?).Perm ks' ∧
    List.Forall₂ Consumer.Worker.Like ks ks'
  others : ∀ i j, (i, .inr j) ∈ ts → Raises j

variable {ks : List Consumer.Worker} {w : World} {turn turn' : Turn} {ts ts' : List (Nat × Thread)}
  {p p' : Pool Thread}

theorem Mirrors.perm (h : Mirrors ks ts) (same : ts.Perm ts') : Mirrors ks ts' := by
  obtain ⟨ks', perm, like⟩ := h.workers
  exact ⟨⟨ks', ((same.map _).filterMap _).symm.trans perm, like⟩,
    fun i j mem => h.others i j (same.mem_iff.mpr mem)⟩

/-- One move of a thread is a run of the crew. -/
theorem Mirrors.move {i : Nat} {t : Thread} (h : Mirrors ks ((i, t) :: ts)) (turn : Turn) :
    ∃ ks', Crew.Run ⟨turn.world, ks⟩ ⟨(machine.move turn t).1.world, ks'⟩ ∧
      Mirrors ks' ((i, (machine.move turn t).2) :: ts) := by
  obtain ⟨⟨pool, perm, like⟩, others⟩ := h
  have rest : ∀ i j, (i, .inr j) ∈ ts → Raises j :=
    fun i j mem => others i j (List.mem_cons_of_mem _ mem)
  cases t with
  | inl k =>
    have perm : (k :: (ts.map Prod.snd).filterMap Sum.getLeft?).Perm pool := perm
    obtain ⟨pre, post, rfl⟩ := List.append_of_mem (perm.mem_iff.mp (List.mem_cons_self ..))
    obtain ⟨before, k₀, after, rfl, first, alike, last⟩ := forall₂_split like
    obtain ⟨k₁, steps, alike'⟩ := Consumer.Worker.move_steps (t := turn) alike
    refine ⟨before ++ k₁ :: after, Crew.run_of_steps steps before after,
      ⟨pre ++ (Consumer.Worker.move turn k).2 :: post, ?_, ?_⟩, ?_⟩
    · have same := (perm.trans List.perm_middle).cons_inv
      exact (same.cons _).trans List.perm_middle.symm
    · exact List.rel_append first (.cons alike' last)
    · intro i j mem
      rcases List.mem_cons.mp mem with same | mem
      · cases same
      · exact rest i j mem
  | inr j =>
    have raises := others i j (List.mem_cons_self ..)
    obtain ⟨run, raises'⟩ := raises_run (turn.run_moves j) raises ks
    refine ⟨ks, run, ⟨pool, perm, like⟩, fun i j mem => ?_⟩
    rcases List.mem_cons.mp mem with same | mem
    · cases same
      exact raises'
    · exact rest i j mem

/-- One move of the pool. -/
theorem Mirrors.step (h : Mirrors ks p.threads)
    (step : Pool.step? machine turn p = some (turn', p')) :
    ∃ ks', Crew.Run ⟨turn.world, ks⟩ ⟨turn'.world, ks'⟩ ∧ Mirrors ks' p'.threads := by
  unfold Pool.step? at step
  split at step
  · next i t rest picked =>
    have picked : p.threads.Perm ((i, t) :: (p.held ++ rest)) :=
      ((Pool.pick_some picked).2.append_left _).trans List.perm_middle
    obtain ⟨ks', run, mirrors⟩ := (h.perm picked).move turn
    have placed := Pool.place_perm machine (machine.move turn t).1
      (i, (machine.move turn t).2) { p with queue := rest }
    rw [Option.some.inj step] at placed
    obtain ⟨world, perm⟩ := placed
    rw [← world] at run
    exact ⟨ks', run, mirrors.perm perm.symm⟩
  · obtain ⟨time, -, same⟩ := Option.map_eq_some_iff.mp step
    cases same
    exact ⟨ks, .single (.flip ⟨turn.world, ks⟩ (.tick time) rfl), h⟩
  · cases step
    exact ⟨ks, .refl, h⟩

theorem Mirrors.run (h : Mirrors ks p.threads) (turn : Turn) (n : Nat) :
    ∃ ks', Crew.Run ⟨turn.world, ks⟩ ⟨(Pool.run machine n turn p).1.world, ks'⟩ ∧
      Mirrors ks' (Pool.run machine n turn p).2.threads := by
  induction n generalizing turn p ks with
  | zero => exact ⟨ks, .refl, h⟩
  | succ n ih =>
    rw [Pool.run]
    split
    · next turn' p' step =>
      obtain ⟨ks₁, run, mirrors⟩ := h.step step
      obtain ⟨ks₂, run', mirrors'⟩ := ih mirrors turn'
      exact ⟨ks₂, run.trans run', mirrors'⟩
    · exact ⟨ks, .refl, h⟩

/-- The threads of a run. -/
def lineup (consumers : List Consumer) (length : Span) (w : World) : List Thread :=
  .inr (stopper (freshSignal w) length) ::
    consumers.map fun c => .inl (c.start .forever (some (freshSignal w)) w)

/-- The threads as a run leaves them. -/
def aftermath (consumers : List Consumer) (length : Span) (t : Turn) : List Thread :=
  (Pool.run machine Pool.patience t
    (.ofList (lineup consumers length t.world))).2.threads.map Prod.snd

theorem le_foldl_max (ns : List Nat) (m : Nat) :
    m ≤ ns.foldl max m ∧ ∀ n ∈ ns, n ≤ ns.foldl max m := by
  induction ns generalizing m with
  | nil => simp
  | cons n ns ih =>
    obtain ⟨start, rest⟩ := ih (max m n)
    rw [List.foldl_cons]
    refine ⟨by omega, fun k mem => ?_⟩
    rcases List.mem_cons.mp mem with rfl | mem
    · omega
    · exact rest k mem

theorem freshSignal_not_mem (w : World) : freshSignal w ∉ w.raised := by
  intro mem
  have bound := (le_foldl_max (w.raised.map Signal.number) 0).2 _ (List.mem_map_of_mem mem)
  simp only [freshSignal] at bound
  omega

theorem stopper_raises (signal : Signal) (length : Span) : Raises (stopper signal length) :=
  ⟨.inl rfl, fun _ _ => ⟨.inr ⟨signal, rfl⟩, fun _ => trivial⟩⟩

theorem mirrors_lineup (consumers : List Consumer) (length : Span) (w : World) :
    Mirrors (consumers.map fun c => c.start .forever (some (freshSignal w)) w)
      (Pool.ofList (lineup consumers length w)).threads := by
  have threads (ts : List Thread) : (Pool.ofList ts).threads.map Prod.snd = ts :=
    List.ext_getElem? fun i => by simp [Pool.threads, Pool.ofList, Function.comp_def]
  refine ⟨⟨_, .refl _, ?_⟩, fun i j mem => ?_⟩
  · rw [threads, lineup, List.filterMap_cons_none rfl, List.filterMap_map]
    have workers := congrFun (List.filterMap_eq_map (f := fun c : Consumer =>
      c.start .forever (some (freshSignal w)) w)) consumers
    refine workers ▸ List.forall₂_same.mpr fun k _ => ?_
    exact .refl k
  · have mem := List.mem_map_of_mem (f := Prod.snd) mem
    rw [threads] at mem
    rcases List.mem_cons.mp mem with same | mem
    · cases same
      exact stopper_raises _ _
    · obtain ⟨c, -, same⟩ := List.mem_map.mp mem
      cases same

/-- Whether a thread is no worker that is still at work. -/
def hasEnded : Thread → Bool
  | .inl k => k.stage.isEnded
  | .inr _ => true

/-- A run of the workers in which all of them came to their ends is a shift. -/
theorem run_shift {build : Assembly.Config} {config : Consumer.Config} {length : Span} {t : Turn}
    (past : ∀ x ∈ aftermath (all .direct build .outbox config) length t, hasEnded x = true) :
    Shift t.world (run (all .direct build .outbox config) length t).world := by
  obtain ⟨ks, run, ⟨pool, perm, like⟩, -⟩ :=
    (mirrors_lineup (all .direct build .outbox config) length t.world).run t Pool.patience
  refine .intro build config (freshSignal t.world) (freshSignal_not_mem _) ks run fun k mem => ?_
  obtain ⟨k', mem', s, rfl, alike⟩ := forall₂_exists like mem
  obtain ⟨thread, there, left⟩ := List.mem_filterMap.mp (perm.mem_iff.mpr mem')
  obtain rfl : thread = .inl k' := Sum.getLeft?_eq_some_iff.mp left
  obtain ⟨r, ended⟩ := Consumer.Stage.isEnded_iff.mp (past _ there)
  rw [ended] at alike
  cases alike
  exact ⟨r, rfl⟩

end Workers
end Shipyard

import Shipyard.Proofs.Fulfilment.Interference

/-!
# Rounds keep the books

A worker is where its places say if the jobs of its round follow their places and know what these
know. Every step of a worker keeps the books right and leads to new places (`step_atWork`): a job
makes a move, or a round or a rest is over and nothing is left half done.
-/

namespace Shipyard

namespace Consumer

theorem settled_ok {rs : List (Except Bus.Error Bool)} (ok : ∀ r ∈ rs, ∃ b, r = .ok b) :
    ∃ n, settled rs = .ok n ∧ (n = 0 ↔ .ok true ∉ rs) := by
  induction rs with
  | nil => exact ⟨0, rfl, by simp⟩
  | cons r rs ih =>
    obtain ⟨n, sum, none⟩ := ih fun r mem => ok r (List.mem_cons_of_mem _ mem)
    obtain ⟨b, rfl⟩ := ok r (List.mem_cons_self ..)
    cases b with
    | true => exact ⟨n + 1, by simp [settled, sum, Except.map], by simp⟩
    | false => exact ⟨n, by simp [settled, sum, Except.map], by simp [none]⟩

theorem resting_alike {w w' : World} {j j' : Job Wakeup} {e : Encounter}
    (asks : j.Asks (· = .clock)) (world : w.Meets e w') (job : j.Meets e j') : w.Alike w' := by
  cases job with
  | reply r k x =>
    obtain ⟨rfl, -⟩ := asks
    exact world.alike rfl
  | woken wake signal k x =>
    rw [world.woken_eq]
    exact .refl w

section Stages

variable {d : Duty} {signal : Option Signal} {calm : Prop} {w w' : World} {σ : Nat → Place}

/-- A stage of a worker is as its places say. -/
def Stage.IsAt (d : Duty) (signal : Option Signal) (calm : Prop) (w : World) (σ : Nat → Place) :
    Stage → Prop
  | .polling round => (round.jobs.map Prod.fst).Perm (List.range w.bus.partitions) ∧
      ∀ x ∈ round.jobs, Site.Follows ⟨d, x.1, signal, calm⟩ Polled x.2 (σ x.1) ∧
        Site.Knows ⟨d, x.1, signal, calm⟩ w (σ x.1)
  | .resting j => j.Asks (· = .clock) ∧ ∀ p, p < w.bus.partitions → (σ p).credit = 0
  | .ended result => (∃ n, result = .ok n) ∧ ∀ p, p < w.bus.partitions → (σ p).credit = 0
  | .crashed _ => False

theorem Stage.IsAt.stable {stage : Stage} (h : stage.IsAt d signal calm w σ)
    (partitions : w'.bus.partitions = w.bus.partitions)
    (same : ∀ p, Site.Untouched ⟨d, p, signal, calm⟩ w w') : stage.IsAt d signal calm w' σ := by
  cases stage with
  | polling round =>
    obtain ⟨numbers, jobs⟩ := h
    refine ⟨by rw [partitions]; exact numbers, fun x mem => ?_⟩
    obtain ⟨follows, knows⟩ := jobs x mem
    exact ⟨follows, knows.stable (same x.1)⟩
  | resting j =>
    refine ⟨h.1, ?_⟩
    rw [partitions]
    exact h.2
  | ended result =>
    refine ⟨h.1, ?_⟩
    rw [partitions]
    exact h.2
  | crashed f => exact h

theorem Stage.IsAt.no_fault {round : Bundle (Except Bus.Error Bool)}
    (h : (Stage.polling round).IsAt d signal calm w σ) (i : Nat) (f : Fault) :
    (i, .fault f) ∉ round.jobs :=
  fun mem => (h.2 _ mem).1

end Stages

namespace Worker

variable {d : Duty} {calm : Prop} {w w' : World} {σ : Nat → Place} {k k' : Worker}

/-- A worker that is where its places say. -/
structure AtWork (k : Worker) (d : Duty) (calm : Prop) (w : World) (σ : Nat → Place) : Prop where
  consumer : ∃ build config, k.consumer = d.consumer build config
  stage : k.stage.IsAt d k.signal calm w σ

/-- Before the first step of a round. -/
def outset : Nat → Place := fun _ => .reading

theorem round_isAt {build : Assembly.Config} {config : Consumer.Config}
    (consumer : k.consumer = d.consumer build config) (w : World) :
    (k.round w).IsAt d k.signal calm w outset := by
  refine ⟨.of_eq (by simp [Bundle.numbers_ofList]), fun x mem => ?_⟩
  · obtain ⟨i, inside, rfl⟩ := List.mem_mapIdx.mp mem
    rw [List.getElem_map, List.getElem_range, consumer]
    exact ⟨Site.worker_follows ⟨d, i, k.signal, calm⟩ build config, trivial⟩

theorem begin_atWork (consumer : ∃ build config, k.consumer = d.consumer build config) :
    (k.begin w).AtWork d calm w outset := by
  obtain ⟨build, config, same⟩ := consumer
  rw [begin]
  split
  · exact ⟨⟨build, config, same⟩, ⟨k.total, rfl⟩, fun _ _ => rfl⟩
  · exact ⟨⟨build, config, same⟩, round_isAt same w⟩

theorem conclude_atWork (consumer : ∃ build config, k.consumer = d.consumer build config)
    (n : Nat) : (k.conclude w (.ok n)).AtWork d calm w outset := by
  obtain ⟨c, mode, signal, total, stage⟩ := k
  cases mode with
  | once => exact ⟨consumer, ⟨n, rfl⟩, fun _ _ => rfl⟩
  | drain =>
    cases n with
    | zero => exact ⟨consumer, ⟨total, rfl⟩, fun _ _ => rfl⟩
    | succ n => exact begin_atWork consumer
  | forever =>
    cases n with
    | zero => exact ⟨consumer, ⟨rfl, fun _ _ => trivial⟩, fun _ _ => rfl⟩
    | succ n => exact begin_atWork consumer

section Rounds

variable {round : Bundle (Except Bus.Error Bool)} {places : Places} {pages : Pages}

/-- The jobs of a round that is over have ended at places where a poll may end. -/
theorem results_isAt (stage : (Stage.polling round).IsAt d k.signal calm w σ)
    {rs : List (Except Bus.Error Bool)} (past : (round.jobs.map Prod.snd).Perm (rs.map .done)) :
    (∀ p, p < w.bus.partitions → ∃ b, (σ p).result? = some b ∧ .ok b ∈ rs) ∧
      ∀ r ∈ rs, ∃ p b, p < w.bus.partitions ∧ (σ p).result? = some b ∧ r = .ok b := by
  obtain ⟨numbers, jobs⟩ := stage
  have ended : ∀ x ∈ round.jobs, ∃ b, (σ x.1).result? = some b ∧ x.2 = .done (.ok b) := by
    intro x mem
    obtain ⟨r, -, done⟩ := List.mem_map.mp (past.mem_iff.mp (List.mem_map_of_mem mem))
    obtain ⟨follows, -⟩ := jobs x mem
    rw [← done] at follows
    obtain ⟨b, place, rfl⟩ := follows
    exact ⟨b, place, done.symm⟩
  have among {j : Job (Except Bus.Error Bool)} {r : Except Bus.Error Bool} (same : j = .done r)
      (mem : j ∈ round.jobs.map Prod.snd) : r ∈ rs := by
    obtain ⟨r', there, done⟩ := List.mem_map.mp (past.mem_iff.mp mem)
    rw [same] at done
    cases done
    exact there
  constructor
  · intro p inside
    have number : p ∈ round.jobs.map Prod.fst := numbers.mem_iff.mpr (List.mem_range.mpr inside)
    obtain ⟨x, mem, rfl⟩ := List.mem_map.mp number
    obtain ⟨b, place, done⟩ := ended x mem
    exact ⟨b, place, among done (List.mem_map_of_mem mem)⟩
  · intro r mem
    have job : .done r ∈ round.jobs.map Prod.snd :=
      past.mem_iff.mpr (List.mem_map_of_mem mem)
    obtain ⟨x, there, done⟩ := List.mem_map.mp job
    obtain ⟨b, place, done'⟩ := ended x there
    have number : x.1 ∈ List.range w.bus.partitions :=
      numbers.mem_iff.mp (List.mem_map_of_mem there)
    rw [done] at done'
    exact ⟨x.1, b, List.mem_range.mp number, place, Job.done.inj done'⟩

/-- A step of one poll. -/
theorem go_atWork {round' : Bundle (Except Bus.Error Bool)} {i : Nat}
    {j j' : Job (Except Bus.Error Bool)} {e : Encounter} (stage : k.stage = .polling round)
    (replaces : round.Replaces i j j' round') (world : w.Meets e w') (job : j.Meets e j')
    (atWork : k.AtWork d calm w (places d)) (books : Books pages w (w.handled places)) :
    ∃ pages' π, Site.Move ⟨d, i, k.signal, calm⟩ (places d i) w π w' ∧
      Books pages' w' (w'.handled (places.move d i π)) ∧
      AtWork { k with stage := .polling round' } d calm w' (places.move d i π d) ∧
      i < w.bus.partitions := by
  obtain ⟨consumer, isAt⟩ := atWork
  rw [stage] at isAt
  obtain ⟨numbers, jobs⟩ := isAt
  obtain ⟨inside, mem, numbers', others⟩ := replaces.parts numbers
  obtain ⟨follows, knows⟩ := jobs (i, j) mem
  have sees : Site.Sees ⟨d, i, k.signal, calm⟩ w (places d i) := ⟨books.fit, inside, knows⟩
  obtain ⟨π, move, follows'⟩ := follows.meets sees world job
  obtain ⟨pages', books'⟩ := move.books sees rfl books
  refine ⟨pages', π, move, books', ⟨consumer, ?_, fun x mem => ?_⟩, inside⟩
  · have partitions : w'.bus.partitions = w.bus.partitions := move.confined.1.partitions
    rw [partitions]
    exact numbers'
  · rcases others x mem with rfl | ⟨mem, different⟩
    · rw [places.move_self]
      exact ⟨follows', move.knows knows⟩
    · obtain ⟨follows, knows⟩ := jobs x mem
      rw [places.move_other π (.inr different)]
      exact ⟨follows, knows.stable
        (Site.untouched_of_own move.confined.1 (move.confined.2 x.1 different))⟩

end Rounds

/-- One step of a worker keeps the books right, and it is where its new places say. -/
theorem step_atWork {places : Places} {pages : Pages} (step : k.Step w w' k')
    (atWork : k.AtWork d calm w (places d)) (books : Books pages w (w.handled places)) :
    ∃ pages' σ, Books pages' w' (w'.handled (Function.update places d σ)) ∧
      k'.AtWork d calm w' σ ∧ d.Confined w w' := by
  have still : d.Confined w w := d.confined_of_alike (.refl w)
  -- What has been dealt with is what the offsets say, so a worker may start anew.
  have anew (credits : ∀ p, p < w.bus.partitions → (places d p).credit = 0) :
      Books pages w (w.handled (Function.update places d outset)) := by
    refine books.of_credits fun d' p inside => ?_
    by_cases same : d' = d
    · subst same
      rw [Function.update_self, credits p inside]
      rfl
    · rw [Function.update_of_ne same]
  obtain ⟨consumer, isAt⟩ := atWork
  cases step with
  | go stage replaces world job =>
    obtain ⟨pages', π, move, books', atWork', -⟩ :=
      go_atWork stage replaces world job ⟨consumer, isAt⟩ books
    refine ⟨pages', places.move d _ π d, ?_, atWork', move.confined.1⟩
    rw [places.update_move]
    exact books'
  | @conclude _ round rs stage past =>
    rw [stage] at isAt
    obtain ⟨ends, oks⟩ := results_isAt isAt past
    have all : ∀ r ∈ rs, ∃ b, r = .ok b := by
      intro r mem
      obtain ⟨p, b, -, -, ok⟩ := oks r mem
      exact ⟨b, ok⟩
    obtain ⟨n, sum, -⟩ := settled_ok all
    rw [sum]
    refine ⟨pages, outset, anew fun p inside => ?_, conclude_atWork consumer n, still⟩
    obtain ⟨b, place, -⟩ := ends p inside
    exact Place.credit_of_result place
  | crash stage fault =>
    rw [stage] at isAt
    exact absurd fault (isAt.no_fault _ _)
  | stir stage world job =>
    rw [stage] at isAt
    obtain ⟨asks, credits⟩ := isAt
    have same : w.Alike w' := resting_alike asks world job
    refine ⟨pages, places d, ?_, ⟨consumer, ?_, ?_⟩, d.confined_of_alike same⟩
    · rw [Function.update_eq_self, World.handled_of_bus same.bus]
      exact books.of_alike same
    · exact asks.after (.there job (.here _))
    · rw [same.bus]
      exact credits
  | rested stage =>
    rw [stage] at isAt
    exact ⟨pages, outset, anew isAt.2, begin_atWork consumer, still⟩
  | stopped stage =>
    rw [stage] at isAt
    exact ⟨pages, outset, anew isAt.2, ⟨consumer, ⟨k.total, rfl⟩, fun _ _ => rfl⟩, still⟩

end Worker
end Consumer
end Shipyard

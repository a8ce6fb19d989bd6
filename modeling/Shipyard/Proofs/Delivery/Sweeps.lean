import Shipyard.Proofs.Delivery.Fates

/-!
# Polls of all partitions

The polls of the partitions go on side by side, in any order, and time passes between their steps.
Each of them keeps to its fate all the same: what it has done and what is left for it to do are
together what was told. So a poll of all partitions comes to its end, and the history of its deeds
and its result are known up to the order in which the partitions had their turns.
-/

namespace Shipyard

namespace Consumer

theorem settled_cons (b : Bool) (rs : List (Except Bus.Error Bool)) :
    settled (.ok b :: rs) = (settled rs).map fun n => if b then n + 1 else n := rfl

/-- If errors do not differ, the result does not depend on the order of the partitions. -/
theorem settled_perm {rs rs' : List (Except Bus.Error Bool)} (h : rs.Perm rs') {e : Bus.Error}
    (same : ∀ e', .error e' ∈ rs → e' = e) : settled rs = settled rs' := by
  induction h with
  | nil => rfl
  | cons r _ ih =>
    cases r with
    | error => rfl
    | ok b => rw [settled_cons, settled_cons, ih fun e' mem => same e' (List.mem_cons_of_mem _ mem)]
  | swap r r' rs =>
    cases r with
    | error e₁ =>
      obtain rfl := same e₁ (by simp)
      cases r' with
      | error e₂ =>
        obtain rfl := same e₂ (by simp)
        rfl
      | ok => rfl
    | ok b =>
      cases r' with
      | error => rfl
      | ok b' =>
        simp only [settled_cons]
        cases settled rs with
        | error => rfl
        | ok n => cases b <;> cases b' <;> rfl
  | trans first _ ih ih' =>
    rw [ih same]
    exact ih' fun e' mem => same e' (first.mem_iff.mpr mem)

end Consumer

namespace Sweep

/-- The poll of one partition. -/
def errand (o : Sweep) (p : Nat) : Errand := ⟨o, p⟩

def fate (o : Sweep) (p : Nat) : Fate := (o.errand p).fate

def partitions (o : Sweep) : Nat := o.outset.bus.partitions

structure IsFair (o : Sweep) : Prop where
  answers : o.consumer.Answers o.signal o.answers
  primary : o.consumer.topic.isDeadLetters = false
  quiet : o.outset.IsQuiet o.signal

/-- A history of deeds, each with its partition, that has led to a world. -/
structure Recorded (o : Sweep) (h : List (Nat × Request)) (w : World) : Prop where
  did : o.outset.Did o.signal (h.map Prod.snd) w
  fated : ∀ x ∈ h, x.2 ∈ (o.fate x.1).deeds

variable {o : Sweep} {h : List (Nat × Request)} {w w' : World}

theorem not_deadLetters (o : Sweep) {t : Topic} (primary : t.isDeadLetters = false) :
    t ≠ o.consumer.topic.deadLetters := by
  rintro rfl
  revert primary
  cases o.consumer.topic <;> decide

namespace Recorded

variable {β : Type} {F : Request → List β} {p : Nat}

theorem own (recorded : o.Recorded h w) {x : Nat × Request} (mem : x ∈ h) :
    ∃ m : Bus.Message, m.partition = x.1 ∧ m.offset = (o.errand x.1).offset ∧
      o.consumer.Own m x.2 := by
  obtain ⟨m, -, partition, offset, own⟩ := Errand.own_of_mem (recorded.fated x mem)
  exact ⟨m, partition, offset, own⟩

/-- Nothing is seen of deeds in a view that shows none of the consumer's. -/
theorem view_nil (recorded : o.Recorded h w) (none : ∀ m r x, o.consumer.Own m r → x ∉ F r) :
    (h.map Prod.snd).flatMap F = [] := by
  rw [List.flatMap_eq_nil_iff]
  intro r mem
  obtain ⟨x, there, rfl⟩ := List.mem_map.mp mem
  obtain ⟨m, -, -, own⟩ := recorded.own there
  exact List.eq_nil_iff_forall_not_mem.mpr fun y => none m x.2 y own

/-- A view of one partition shows the share of that partition. -/
theorem view_share (recorded : o.Recorded h w)
    (here : ∀ m r x, o.consumer.Own m r → x ∈ F r → p = m.partition) :
    (h.map Prod.snd).flatMap F = (share p h).flatMap F := by
  refine flatMap_share fun x mem other => ?_
  obtain ⟨m, partition, -, own⟩ := recorded.own mem
  refine List.eq_nil_iff_forall_not_mem.mpr fun y seen => other ?_
  rw [← partition, here m x.2 y own seen]

/-- The offsets of other groups stay. -/
theorem offset_other (recorded : o.Recorded h w) {g : String} (other : g ≠ o.consumer.group)
    (t : Topic) (p : Nat) : w.bus.offset g t p = o.outset.bus.offset g t p := by
  have none : (h.map Prod.snd).flatMap (Request.marks g t p) = [] :=
    recorded.view_nil fun m r n own mark => other (own.marks mark).1.1
  rw [recorded.did.offset, none, List.getLastD_nil]

/-- So do the logs of all topics but one for dead letters. -/
theorem log_primary (recorded : o.Recorded h w) {t : Topic} (primary : t.isDeadLetters = false)
    (p : Nat) : w.bus.log t p = o.outset.bus.log t p := by
  have none : (h.map Prod.snd).flatMap (Request.adds o.outset.bus.partitions t p) = [] :=
    recorded.view_nil fun m r x own added => o.not_deadLetters primary (own.adds added)
  rw [recorded.did.log, none, List.append_nil]

/-- The offset of a partition is told by its share. -/
theorem offset_own (recorded : o.Recorded h w) (p : Nat) :
    w.bus.offset o.consumer.group o.consumer.topic p =
      ((share p h).flatMap (Request.marks o.consumer.group o.consumer.topic p)).getLastD
        (o.errand p).offset := by
  rw [recorded.did.offset, recorded.view_share fun m r n own mark => (own.marks mark).1.2]
  rfl

/-- An offset is moved past the record that was found, if at all. -/
theorem offset_near (recorded : o.Recorded h w) (p : Nat) :
    w.bus.offset o.consumer.group o.consumer.topic p ≤ (o.errand p).offset + 1 := by
  rw [recorded.offset_own]
  generalize moved : (share p h).flatMap (Request.marks o.consumer.group o.consumer.topic p) = ns
  rcases List.eq_nil_or_concat ns with rfl | ⟨ns, n, rfl⟩
  · rw [List.getLastD_nil]
    exact Nat.le_succ _
  · have mem : n ∈ (share p h).flatMap (Request.marks o.consumer.group o.consumer.topic p) := by
      simp [moved]
    obtain ⟨r, shared, mark⟩ := List.mem_flatMap.mp mem
    obtain ⟨x, there, rfl⟩ := List.mem_map.mp shared
    obtain ⟨there, here⟩ := List.mem_filter.mp there
    obtain ⟨m, -, offset, own⟩ := recorded.own there
    obtain rfl : x.1 = p := by simpa using here
    rw [List.concat_eq_append, List.getLastD_concat, (own.marks mark).2, offset]

end Recorded

/-- A sweep at work: every job keeps to what is left of its fate. -/
structure Midway (o : Sweep) (w : World) (round : Bundle (Except Bus.Error Bool))
    (h : List (Nat × Request)) (rest : Nat → Fate) : Prop where
  numbers : (round.jobs.map Prod.fst).Perm (List.range o.partitions)
  keeps : ∀ x ∈ round.jobs, (o.errand x.1).Keeps x.2 (rest x.1)
  did : o.outset.Did o.signal (h.map Prod.snd) w
  split : ∀ p, share p h ++ (rest p).deeds = (o.fate p).deeds
  result : ∀ p, (rest p).result = (o.fate p).result
  inside : ∀ x ∈ h, x.1 < o.partitions

namespace Midway

variable {round round' : Bundle (Except Bus.Error Bool)} {rest : Nat → Fate} {p : Nat}

theorem recorded (midway : o.Midway w round h rest) : o.Recorded h w where
  did := midway.did
  fated x mem := by
    rw [← midway.split x.1]
    exact List.mem_append_left _ (mem_share mem)

theorem sees (midway : o.Midway w round h rest) (fair : o.IsFair) (inside : p < o.partitions) :
    (o.errand p).Sees w (rest p) := by
  obtain ⟨partitions, down, -, quiet⟩ := midway.did.fixed
  have offset := midway.recorded.offset_own p
  constructor
  case quiet => exact quiet fair.quiet
  case down => exact down
  case inside =>
    rw [partitions]
    exact inside
  case record =>
    have log := midway.recorded.log_primary fair.primary p
    exact congrArg (·[(o.errand p).offset]?) log
  case fresh =>
    intro whole
    have none : share p h = [] := by
      have split := midway.split p
      rw [whole] at split
      simpa [fate] using split
    rw [none] at offset
    exact offset
  case near => exact midway.recorded.offset_near p

/-- Time may pass at any moment. -/
theorem passes (midway : o.Midway w round h rest) (passes : w.Passes w') :
    o.Midway w' round h rest :=
  { midway with did := midway.did.aside passes.aside }

/-- A step of one of the polls. -/
theorem go (midway : o.Midway w round h rest) (fair : o.IsFair) {i : Nat}
    {j j' : Job (Except Bus.Error Bool)} {e : Encounter} (replaces : round.Replaces i j j' round')
    (world : w.Meets e w') (job : j.Meets e j') :
    ∃ h' rest', o.Midway w' round' h' rest' := by
  obtain ⟨inside, mem, numbers, others⟩ := replaces.parts midway.numbers
  obtain ⟨φ, move, keeps⟩ := (midway.keeps (i, j) mem).meets (midway.sees fair inside) world job
  have keeps (rest' : Nat → Fate) (here : rest' i = φ) (there : ∀ p, p ≠ i → rest' p = rest p) :
      ∀ x ∈ round'.jobs, (o.errand x.1).Keeps x.2 (rest' x.1) := by
    intro x mem'
    rcases others x mem' with rfl | ⟨stayed, different⟩
    · rw [here]
      exact keeps
    · rw [there _ different]
      exact midway.keeps x stayed
  generalize left : rest i = φ₀ at move
  cases move with
  | aside same =>
    exact ⟨h, rest, numbers, keeps rest left fun _ _ => rfl, midway.did.aside same, midway.split,
      midway.result, midway.inside⟩
  | @deed _ r _ does =>
    have told (p : Nat) : share p (h ++ [(i, r)]) ++ (Function.update rest i φ p).deeds =
        (o.fate p).deeds ∧ (Function.update rest i φ p).result = (o.fate p).result := by
      rw [← midway.split p, ← midway.result p]
      by_cases here : p = i
      · subst here
        rw [Function.update_self, share_concat_self, List.append_assoc, left]
        exact ⟨rfl, rfl⟩
      · rw [Function.update_of_ne here, share_concat_other (Ne.symm here)]
        exact ⟨rfl, rfl⟩
    refine ⟨h ++ [(i, r)], Function.update rest i φ, numbers, ?_, ?_, fun p => (told p).1,
      fun p => (told p).2, ?_⟩
    · exact keeps _ (Function.update_self ..) fun p other => Function.update_of_ne other _ _
    · rw [List.map_append]
      exact midway.did.deed does
    · intro x mem
      rcases List.mem_append.mp mem with mem | mem
      · exact midway.inside x mem
      · obtain rfl := List.mem_singleton.mp mem
        exact inside

/-- No fault comes about that was not told. -/
theorem fault (midway : o.Midway w round h rest) {i : Nat} {f : Fault}
    (mem : (i, .fault f) ∈ round.jobs) : i < o.partitions ∧ (o.fate i).result = .error f := by
  have keeps : rest i = ⟨[], .error f⟩ := midway.keeps _ mem
  refine ⟨List.mem_range.mp (midway.numbers.mem_iff.mp (List.mem_map_of_mem mem)), ?_⟩
  rw [← midway.result, keeps]

end Midway

/-- The result that was told, unless a fault was. -/
def outcome (o : Sweep) (p : Nat) : Except Bus.Error Bool :=
  (o.fate p).result.toOption.getD (.ok false)

/-- The history and the results of a sweep in which all polls have come to their ends. -/
structure Completed (o : Sweep) (h : List (Nat × Request)) (rs : List (Except Bus.Error Bool)) :
    Prop where
  shares : ∀ p, share p h = if p < o.partitions then (o.fate p).deeds else []
  sound : ∀ p, p < o.partitions → ∀ f, (o.fate p).result ≠ .error f
  results : rs.Perm ((List.range o.partitions).map o.outcome)

namespace Midway

variable {round : Bundle (Except Bus.Error Bool)} {rest : Nat → Fate}
  {rs : List (Except Bus.Error Bool)}

section Past

variable (midway : o.Midway w round h rest) (past : (round.jobs.map Prod.snd).Perm (rs.map .done))

include midway past

/-- A job that is over has left nothing of its fate but the result. -/
theorem done : ∀ x ∈ round.jobs, ∃ r, x.2 = .done r ∧ rest x.1 = .ended r := by
  intro x mem
  obtain ⟨r, -, same⟩ := List.mem_map.mp (past.mem_iff.mp (List.mem_map_of_mem mem))
  have keeps := midway.keeps x mem
  rw [← same] at keeps
  exact ⟨r, same.symm, keeps⟩

theorem ended {p : Nat} (inside : p < o.partitions) : ∃ r, rest p = .ended r := by
  have number : p ∈ round.jobs.map Prod.fst :=
    midway.numbers.mem_iff.mpr (List.mem_range.mpr inside)
  obtain ⟨x, mem, rfl⟩ := List.mem_map.mp number
  obtain ⟨r, -, left⟩ := midway.done past x mem
  exact ⟨r, left⟩

/-- The results are those that were told, in the order of the jobs. -/
theorem results : rs.Perm ((List.range o.partitions).map o.outcome) := by
  have jobs : round.jobs.map Prod.snd =
      (round.jobs.map Prod.fst).map fun p => Job.done (o.outcome p) := by
    rw [List.map_map]
    refine List.map_congr_left fun x mem => ?_
    obtain ⟨r, same, left⟩ := midway.done past x mem
    have told : o.outcome x.1 = r := by
      rw [outcome, ← midway.result, left]
      rfl
    rw [Function.comp_apply, told, same]
  have numbered := midway.numbers.map fun p => Job.done (o.outcome p)
  rw [← jobs] at numbered
  have injective : Function.Injective (Job.done : Except Bus.Error Bool → Job _) :=
    fun x y same => Job.done.inj same
  refine (List.map_perm_map_iff injective).mp ?_
  rw [List.map_map]
  exact past.symm.trans numbered

theorem completed : o.Completed h rs where
  shares p := by
    split
    · next inside =>
      obtain ⟨r, left⟩ := midway.ended past inside
      have split := midway.split p
      rw [left] at split
      simpa [Fate.ended] using split
    · next outside =>
      rw [share, List.map_eq_nil_iff, List.filter_eq_nil_iff]
      intro x mem here
      obtain rfl : x.1 = p := by simpa using here
      exact outside (midway.inside x mem)
  sound p inside f fault := by
    obtain ⟨r, left⟩ := midway.ended past inside
    rw [← midway.result, left] at fault
    cases fault
  results := midway.results past

end Past
end Midway

/-- A sweep that is over: it has ended as was told, or with a fault that was told. -/
def IsOver (o : Sweep) (x : World × Consumer.Worker) : Prop :=
  ∃ h, o.Recorded h x.1 ∧
    ((∃ rs, x.2.stage = .ended (Consumer.settled rs) ∧ o.Completed h rs) ∨
      ∃ f p, x.2.stage = .crashed f ∧ p < o.partitions ∧ (o.fate p).result = .error f)

theorem Midway.inevitable (fair : o.IsFair) {k : Consumer.Worker}
    {round : Bundle (Except Bus.Error Bool)} {rest : Nat → Fate}
    (midway : o.Midway w round h rest) (stage : k.stage = .polling round) (mode : k.mode = .once) :
    Inevitable Consumer.Proceeds o.IsOver (w, k) := by
  induction jobs : (round.jobs.map Prod.snd : Multiset (Job (Except Bus.Error Bool))) using
    (Job.wellFounded_meets _).cutExpand.induction generalizing w k round h rest with
  | _ js ih =>
    refine .later (Consumer.Worker.exists_step stage) ?_
    rintro ⟨w', k'⟩ ⟨v, passes, (step : k.Step v w' k')⟩
    have midway := midway.passes passes
    cases step with
    | @go _ _ _ round' i j j' e stage₁ replaces world job =>
      obtain rfl := Consumer.Stage.polling.inj (stage.symm.trans stage₁)
      obtain ⟨h', rest', midway'⟩ := midway.go fair replaces world job
      refine ih _ ?_ midway' rfl mode rfl
      rw [← jobs]
      exact replaces.cutExpand job
    | @conclude _ _ rs stage₁ past =>
      obtain rfl := Consumer.Stage.polling.inj (stage.symm.trans stage₁)
      refine .now ⟨h, midway.recorded, .inl ⟨rs, ?_, midway.completed past⟩⟩
      simp only [Consumer.Worker.conclude, mode]
    | @crash _ _ i f stage₁ fault =>
      obtain rfl := Consumer.Stage.polling.inj (stage.symm.trans stage₁)
      exact .now ⟨h, midway.recorded, .inr ⟨f, i, rfl, midway.fault fault⟩⟩
    | stir stage₁ => rw [stage] at stage₁; cases stage₁
    | rested stage₁ => rw [stage] at stage₁; cases stage₁
    | stopped stage₁ => rw [stage] at stage₁; cases stage₁

theorem midway_start (fair : o.IsFair) (order : Bundle.Order) :
    o.Midway o.outset (.ofList order
      ((List.range o.partitions).map (o.consumer.pollPartition o.signal))) [] o.fate where
  numbers := .of_eq (by simp [Bundle.numbers_ofList])
  keeps x mem := by
    obtain ⟨i, inside, rfl⟩ := List.mem_mapIdx.mp mem
    rw [List.getElem_map, List.getElem_range]
    exact (o.errand i).poll_keeps fair.answers
  did := .nothing
  split _ := rfl
  result _ := rfl
  inside x mem := by cases mem

/-- Every poll of all partitions is over sooner or later. -/
theorem inevitable (fair : o.IsFair) :
    Inevitable Consumer.Proceeds o.IsOver
      (o.outset, o.consumer.start .once o.signal o.outset) :=
  (midway_start fair _).inevitable fair rfl rfl

theorem IsOver.final {x : World × Consumer.Worker} (past : o.IsOver x)
    (y : World × Consumer.Worker) : ¬ Consumer.Proceeds x y := by
  rintro ⟨v, -, step⟩
  obtain ⟨-, -, ⟨rs, stage, -⟩ | ⟨f, -, stage, -⟩⟩ := past
  · exact step.unfinished.1 _ stage
  · exact step.unfinished.2 _ stage

/-- Whatever a poll of all partitions results in was told. -/
theorem completed_of_polls (fair : o.IsFair) {r : Except Bus.Error Nat}
    (polls : o.consumer.Polls o.signal o.outset r w) :
    ∃ h rs, r = Consumer.settled rs ∧ o.Recorded h w ∧ o.Completed h rs := by
  obtain ⟨k, run, stage⟩ := polls
  have inevitable := (inevitable fair).of_run (fun x past => past.final) run
  have stuck : ∀ y, ¬ Consumer.Proceeds (w, k) y := by
    rintro y ⟨v, -, step⟩
    exact step.unfinished.1 r stage
  obtain ⟨h, recorded, ⟨rs, stage', completed⟩ | ⟨f, -, stage', -⟩⟩ :=
    inevitable.here_of_stuck stuck
  · cases stage.symm.trans stage'
    exact ⟨h, rs, rfl, recorded, completed⟩
  · cases stage.symm.trans stage'

/-- If no fault was told, a poll of all partitions ends with a result. -/
theorem pollEnds (fair : o.IsFair)
    (sound : ∀ p, p < o.partitions → ∀ f, (o.fate p).result ≠ .error f) :
    o.consumer.PollEnds o.signal o.outset fun r w =>
      ∃ h rs, r = Consumer.settled rs ∧ o.Recorded h w ∧ o.Completed h rs := by
  refine (inevitable fair).mono ?_
  rintro x ⟨h, recorded, ⟨rs, stage, completed⟩ | ⟨f, p, -, inside, fault⟩⟩
  · exact ⟨_, stage, h, rs, rfl, recorded, completed⟩
  · exact absurd fault (sound p inside f)

end Sweep
end Shipyard

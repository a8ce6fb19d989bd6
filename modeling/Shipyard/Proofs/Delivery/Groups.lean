import Shipyard.Proofs.Delivery.Running
import Shipyard.Proofs.Delivery.Sweeps

/-!
# Consumer groups do not interfere

Two consumers of different groups may poll in either order. What one of them does to the bus, it
does to the offsets of its own group and to dead-letter topics, and nothing of that is told in the
fates of the other. So either order comes to the same results, deliveries, offsets and counts, and
dead-letter topics differ in the order of their records only (`Consumer.groups_independent`).
-/

namespace Shipyard

namespace World

/-- Nobody but a group has moved offsets, and to topics that are not for dead letters nothing was
added. -/
structure Spared (group : String) (w w' : World) : Prop where
  offsets : ∀ g t p, g ≠ group → w'.bus.offset g t p = w.bus.offset g t p
  logs : ∀ t p, t.isDeadLetters = false → w'.bus.log t p = w.bus.log t p

/-- What consumers have done is the same in both worlds, up to the order of dead letters. -/
structure Agrees (w w' : World) : Prop where
  handed : ∀ g t p, w'.handedFrom g t p = w.handedFrom g t p
  counts : ∀ c, c.isConsumption = true → w'.meter.count c = w.meter.count c
  offsets : ∀ g t p, w'.bus.offset g t p = w.bus.offset g t p
  logs : ∀ t p, t.isDeadLetters = false → w'.bus.log t p = w.bus.log t p
  deadLetters : ∀ t p, t.isDeadLetters = true → (w'.bus.log t p).Perm (w.bus.log t p)

end World

namespace Sweep

variable {o o' : Sweep} {h h' : List (Nat × Request)} {u w : World}

theorem Recorded.spared (recorded : o.Recorded h w) :
    o.outset.Spared o.consumer.group w :=
  ⟨fun _ t p other => recorded.offset_other other t p,
    fun _ p primary => recorded.log_primary primary p⟩

/-- Two sweeps that were told the same differ in the order of their deeds only. -/
theorem Completed.same {rs rs' : List (Except Bus.Error Bool)} (completed : o.Completed h rs)
    (completed' : o'.Completed h' rs') (partitions : o'.partitions = o.partitions)
    (fates : ∀ p, o'.fate p = o.fate p) :
    (∀ p, share p h' = share p h) ∧ Consumer.settled rs' = Consumer.settled rs := by
  have outcomes : (List.range o'.partitions).map o'.outcome =
      (List.range o.partitions).map o.outcome := by
    rw [partitions]
    exact List.map_congr_left fun p _ => by rw [outcome, fates, outcome]
  have errors : ∀ e, .error e ∈ rs' → e = Bus.unreachable := by
    intro e mem
    obtain ⟨p, inside, told⟩ := List.mem_map.mp (completed'.results.mem_iff.mp mem)
    have inside := List.mem_range.mp inside
    rw [outcome] at told
    cases result : (o'.fate p).result with
    | error f => exact absurd result (completed'.sound p inside f)
    | ok r =>
      rw [result] at told
      obtain rfl : r = .error e := told
      exact Errand.unreachable_of_fate result
  constructor
  · intro p
    rw [completed.shares, completed'.shares, partitions, fates]
  · refine Consumer.settled_perm ?_ errors
    exact completed'.results.trans (outcomes ▸ completed.results.symm)

/-- A sweep that is told what a completed one was told comes to its end with the same results and
the same shares. -/
theorem Completed.pollEnds {rs : List (Except Bus.Error Bool)} (completed : o.Completed h rs)
    (fair : o'.IsFair) (partitions : o'.partitions = o.partitions)
    (fates : ∀ p, o'.fate p = o.fate p) :
    o'.consumer.PollEnds o'.signal o'.outset fun r v =>
      r = Consumer.settled rs ∧ ∃ h', o'.Recorded h' v ∧ ∀ p, share p h' = share p h := by
  have sound : ∀ p, p < o'.partitions → ∀ e, (o'.fate p).result ≠ .error e := by
    intro p inside e
    rw [fates]
    exact completed.sound p (partitions ▸ inside) e
  refine (Sweep.pollEnds fair sound).mono ?_
  rintro x ⟨r, ended, h', rs', rfl, recorded, completed'⟩
  obtain ⟨shares, results⟩ := completed.same completed' partitions fates
  exact ⟨_, ended, results, h', recorded, shares⟩

/-- What a view of one partition shows does not depend on the order of the partitions. -/
theorem Recorded.view_eq {β : Type} {F : Request → List β} {p : Nat} (recorded : o.Recorded h w)
    (recorded' : o'.Recorded h' u) (consumer : o'.consumer = o.consumer)
    (shares : ∀ p, share p h' = share p h)
    (here : ∀ m r x, o.consumer.Own m r → x ∈ F r → p = m.partition) :
    (h'.map Prod.snd).flatMap F = (h.map Prod.snd).flatMap F := by
  rw [recorded.view_share here, recorded'.view_share (consumer ▸ here), shares]

section Two

variable {c d : Consumer} {f f' : Bus.Message → Except HandlerError Unit} {signal : Option Signal}

/-- What is told of a sweep is the same after a sweep of another group. -/
theorem Recorded.undisturbed (recorded : Recorded ⟨d, f', signal, w⟩ h u)
    (groups : c.group ≠ d.group) (fair : IsFair ⟨c, f, signal, w⟩) :
    IsFair ⟨c, f, signal, u⟩ ∧ partitions ⟨c, f, signal, u⟩ = partitions ⟨c, f, signal, w⟩ ∧
      ∀ p, fate ⟨c, f, signal, u⟩ p = fate ⟨c, f, signal, w⟩ p := by
  obtain ⟨partitions, down, -, quiet⟩ := recorded.did.fixed
  refine ⟨⟨fair.answers, fair.primary, quiet fair.quiet⟩, partitions, fun p => ?_⟩
  have offset : u.bus.offset c.group c.topic p = w.bus.offset c.group c.topic p :=
    recorded.offset_other groups c.topic p
  have log : u.bus.log c.topic p = w.bus.log c.topic p := recorded.log_primary fair.primary p
  have down : u.bus.down = w.bus.down := down
  simp only [fate, errand, Errand.fate, Errand.record?, Errand.offset, Errand.message, offset, log,
    down]

variable {v u' v' : World} {h₁ h₂ h₁' h₂' : List (Nat × Request)}

/-- Two sweeps of different groups in both orders; either of them does the same in both. -/
structure Exchanged (c d : Consumer) (f f' : Bus.Message → Except HandlerError Unit)
    (signal : Option Signal) (w u v u' v' : World) (h₁ h₂ h₁' h₂' : List (Nat × Request)) :
    Prop where
  groups : c.group ≠ d.group
  first : Recorded ⟨c, f, signal, w⟩ h₁ u
  second : Recorded ⟨d, f', signal, u⟩ h₂ v
  second' : Recorded ⟨d, f', signal, w⟩ h₂' u'
  first' : Recorded ⟨c, f, signal, u'⟩ h₁' v'
  shares₁ : ∀ p, share p h₁' = share p h₁
  shares₂ : ∀ p, share p h₂' = share p h₂

namespace Exchanged

/-- A view of one partition and one group shows the same in both orders, and shows nothing of one of
the sweeps. -/
theorem views (h : Exchanged c d f f' signal w u v u' v' h₁ h₂ h₁' h₂') {β : Type}
    {F : Request → List β} {g : String} {p : Nat}
    (own : ∀ (k : Consumer) m r x, k.Own m r → x ∈ F r → g = k.group ∧ p = m.partition) :
    (h₁'.map Prod.snd).flatMap F = (h₁.map Prod.snd).flatMap F ∧
      (h₂'.map Prod.snd).flatMap F = (h₂.map Prod.snd).flatMap F ∧
      ((h₁.map Prod.snd).flatMap F = [] ∨ (h₂.map Prod.snd).flatMap F = []) := by
  refine ⟨?_, ?_, ?_⟩
  · exact h.first.view_eq h.first' rfl h.shares₁ fun m r x mine mem => (own c m r x mine mem).2
  · exact h.second.view_eq h.second' rfl h.shares₂ fun m r x mine mem => (own d m r x mine mem).2
  · by_cases here : g = c.group
    · refine .inr (h.second.view_nil fun m r x mine mem => h.groups ?_)
      rw [← here, (own d m r x mine mem).1]
    · exact .inl (h.first.view_nil fun m r x mine mem => here (own c m r x mine mem).1)

theorem agrees (h : Exchanged c d f f' signal w u v u' v' h₁ h₂ h₁' h₂') : v.Agrees v' := by
  have perm₁ := (perm_of_shares h.shares₁).map Prod.snd
  have perm₂ := (perm_of_shares h.shares₂).map Prod.snd
  constructor
  case handed =>
    intro g t p
    obtain ⟨same₁, same₂, apart⟩ := h.views (F := Request.hands g t p) (g := g) (p := p)
      fun k m r x own mem => own.hands mem
    rw [h.first'.did.handedFrom, h.second'.did.handedFrom, h.second.did.handedFrom,
      h.first.did.handedFrom, same₁, same₂]
    rcases apart with none | none
    · rw [none, List.append_nil, List.append_nil]
    · rw [none, List.append_nil, List.append_nil]
  case offsets =>
    intro g t p
    obtain ⟨same₁, same₂, apart⟩ := h.views (F := Request.marks g t p) (g := g) (p := p)
      fun k m r x own mem => (own.marks mem).1
    rw [h.first'.did.offset, h.second'.did.offset, h.second.did.offset, h.first.did.offset,
      same₁, same₂]
    rcases apart with none | none
    · rw [none, List.getLastD_nil, List.getLastD_nil]
    · rw [none, List.getLastD_nil, List.getLastD_nil]
  case counts =>
    intro k about
    have enabled : u.meter.enabled = w.meter.enabled := h.first.did.fixed.2.2.1
    have enabled' : u'.meter.enabled = w.meter.enabled := h.second'.did.fixed.2.2.1
    rw [h.first'.did.count about, h.second'.did.count about, h.second.did.count about,
      h.first.did.count about, perm₁.countP_eq, perm₂.countP_eq]
    dsimp only
    rw [enabled, enabled', ← Function.iterate_add_apply, ← Function.iterate_add_apply,
      Nat.add_comm]
  case logs =>
    intro t p primary
    calc v'.bus.log t p = u'.bus.log t p := h.first'.log_primary primary p
      _ = w.bus.log t p := h.second'.log_primary primary p
      _ = u.bus.log t p := (h.first.log_primary primary p).symm
      _ = v.bus.log t p := (h.second.log_primary primary p).symm
  case deadLetters =>
    intro t p _
    have partitions : u.bus.partitions = w.bus.partitions := h.first.did.fixed.1
    have partitions' : u'.bus.partitions = w.bus.partitions := h.second'.did.fixed.1
    rw [h.first'.did.log, h.second'.did.log, h.second.did.log, h.first.did.log]
    dsimp only
    rw [partitions, partitions', List.append_assoc, List.append_assoc]
    refine .append_left _ (List.perm_append_comm.trans (.append ?_ ?_))
    · exact perm₁.flatMap_right _
    · exact perm₂.flatMap_right _

end Exchanged

end Two
end Sweep

namespace Consumer

variable {c d : Consumer} {signal : Option Signal} {w : World}
  {f f' : Bus.Message → Except HandlerError Unit}

/-- A poll of one group spares all other groups and all records, and comes to its end; it does so
with a result if no backoff can become too long. If two consumers of different groups have polled
one after the other, the other order comes to its end, too, with the same results and with worlds
that agree. Handlers may do what they like, but their answers depend on the message alone, and they
leave it to the consumers to publish records and to keep account of them. -/
theorem groups_independent (groups : c.group ≠ d.group) (primary : c.topic.isDeadLetters = false)
    (primary' : d.topic.isDeadLetters = false) (quiet : w.IsQuiet signal)
    (answers : c.Answers signal f) (answers' : d.Answers signal f') :
    Inevitable Proceeds (fun x => ((∃ r, x.2.stage = .ended r) ∨ ∃ e, x.2.stage = .crashed e) ∧
      w.Spared c.group x.1) (w, c.start .once signal w) ∧
    (c.config.IsMild → c.PollEnds signal w fun _ u => w.Spared c.group u) ∧
    ∀ r u s v, c.Polls signal w r u → d.Polls signal u s v →
      d.PollEnds signal w fun s' u' => s' = s ∧
        c.PollEnds signal u' fun r' v' => r' = r ∧ v.Agrees v' := by
  have fair : Sweep.IsFair ⟨c, f, signal, w⟩ := ⟨answers, primary, quiet⟩
  have fair' : Sweep.IsFair ⟨d, f', signal, w⟩ := ⟨answers', primary', quiet⟩
  refine ⟨?_, fun mild => ?_, fun r u s v polls polls' => ?_⟩
  · refine (Sweep.inevitable fair).mono ?_
    rintro x ⟨h, recorded, ⟨rs, ended, -⟩ | ⟨e, -, crashed, -⟩⟩
    · exact ⟨.inl ⟨_, ended⟩, recorded.spared⟩
    · exact ⟨.inr ⟨e, crashed⟩, recorded.spared⟩
  · refine (Sweep.pollEnds fair fun p _ e => ?_).mono ?_
    · exact Errand.fate_sound (s := Sweep.errand ⟨c, f, signal, w⟩ p) mild e
    · rintro x ⟨r, ended, h, rs, -, recorded, -⟩
      exact ⟨r, ended, recorded.spared⟩
  · obtain ⟨h₁, rs₁, rfl, first, completed₁⟩ := Sweep.completed_of_polls fair polls
    obtain ⟨fair₂, partitions₂, fates₂⟩ := first.undisturbed groups.symm fair'
    obtain ⟨h₂, rs₂, rfl, second, completed₂⟩ := Sweep.completed_of_polls fair₂ polls'
    refine (completed₂.pollEnds fair' partitions₂.symm fun p => (fates₂ p).symm).mono ?_
    rintro ⟨u', k⟩ ⟨s', ended, results₂, h₂', second', shares₂⟩
    refine ⟨s', ended, results₂, ?_⟩
    obtain ⟨fair₁, partitions₁, fates₁⟩ := second'.undisturbed groups fair
    refine (completed₁.pollEnds fair₁ partitions₁ fates₁).mono ?_
    rintro ⟨v', k'⟩ ⟨r', ended', results₁, h₁', first', shares₁⟩
    have exchanged : Sweep.Exchanged c d f f' signal w u v u' v' h₁ h₂ h₁' h₂' :=
      ⟨groups, first, second, second', first', shares₁, shares₂⟩
    exact ⟨r', ended', results₁, exchanged.agrees⟩

/-- Refuses every record of payments, twice. -/
def refuser (group : String) : Consumer :=
  ⟨group, .paid, fun _ _ _ => .done (.error (.failed "refused")),
    ⟨2, .ofMillis 100, .ofSeconds 5, .ofMillis 50⟩⟩

/-- Two payments in one partition; the auditors are done with the first of them. -/
def twoPayments : World :=
  let w := ((World.empty 1 true ⟨0, 0, 0⟩).answer (.publish .paid "a" [1])).2
  ((w.answer (.publish .paid "a" [2])).2.answer (.commit "auditors" .paid 0 1)).2

/-- A poll of all partitions that is run. -/
def polled (c : Consumer) (w : World) : Turn × Pool Worker :=
  Pool.run Worker.machine 40 (.start w) (.ofList [c.start .once none w])

/-- Clerks and auditors refuse one record each. The dead letters are in the order of the polls. -/
theorem groups_independent_refusing :
    let clerks := refuser "clerks"
    let auditors := refuser "auditors"
    let u := (polled clerks twoPayments).1.world
    let v := (polled auditors u).1.world
    (v.bus.log .paidDeadLetters 0).map Bus.Record.payload = [[1], [2]] ∧
      auditors.PollEnds none twoPayments fun s' u' => s' = .ok 1 ∧
        clerks.PollEnds none u' fun r' v' => r' = .ok 1 ∧ v.Agrees v' := by
  intro clerks auditors u v
  have refuses (group : String) :
      (refuser group).Answers none fun _ => .error (.failed "refused") := fun _ _ => rfl
  have first : clerks.Polls none twoPayments (.ok 1) u :=
    .of_run (t := .start twoPayments) rfl (by decide +kernel)
  have second : auditors.Polls none u (.ok 1) v := .of_run (t := .start u) rfl (by decide +kernel)
  have quiet : twoPayments.IsQuiet none := by rintro s ⟨⟩
  have groups : clerks.group ≠ auditors.group := by decide
  obtain ⟨-, -, exchange⟩ :=
    groups_independent groups rfl rfl quiet (refuses "clerks") (refuses "auditors")
  exact ⟨by decide +kernel, exchange (.ok 1) u (.ok 1) v first second⟩

end Consumer
end Shipyard

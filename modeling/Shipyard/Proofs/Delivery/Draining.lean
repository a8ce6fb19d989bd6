import Mathlib.Algebra.Order.BigOperators.Group.List
import Shipyard.Proofs.Delivery.Chronicles
import Shipyard.Proofs.Delivery.Redelivery
import Shipyard.Proofs.Delivery.Running

/-!
# Drains of any topic

Nothing is published but dead letters. A round makes the lag smaller by what it settles, unless
others move the offsets further or the dead letters come back: so a drain settles no more records
than its lag and those that it puts back itself, and it can go on without end only by putting back
records without end (`Consumer.drain_returns`). A topic that is not for dead letters gets none.
-/

namespace Shipyard

theorem World.Meets.of_answer {w w' : World} {r : Request} {x : r.Reply}
    (told : w.answer r = (x, w')) : w.Meets (.reply r x) w' := by
  have met := World.Meets.answer (w := w) r
  rw [told] at met
  exact met

theorem Job.moves_head {α : Type} {w w' : World} {r : Request} {k : r.Reply → Job α} {x : r.Reply}
    {z : World × Job α} (met : w.Meets (.reply r x) w')
    (rest : Relation.ReflTransGen Job.Moves (w', k x) z) :
    Relation.ReflTransGen Job.Moves (w, .ask r k) z :=
  .head ⟨_, met, .reply r k x⟩ rest

/-- What can be put off again and again is not inevitable. -/
theorem Inevitable.not_of_loop {σ : Type} {Step : σ → σ → Prop} {P S : σ → Prop} {s : σ}
    (h : Inevitable Step P s) (final : ∀ s, P s → ∀ s', ¬ Step s s')
    (loop : ∀ s, S s → ∃ s', S s' ∧ Relation.TransGen Step s s') (again : S s) : False := by
  suffices ∀ s', Relation.ReflTransGen Step s s' → ¬ S s' from this s .refl again
  clear again
  induction h with
  | @now s here =>
    intro s' run again
    obtain ⟨s'', -, more⟩ := loop s' again
    obtain ⟨t, step, -⟩ := Relation.TransGen.head'_iff.mp (.trans_right run more)
    exact final s here t step
  | @later s _ _ ih =>
    intro s' run again
    obtain ⟨s'', again', more⟩ := loop s' again
    obtain ⟨t, step, rest⟩ := Relation.TransGen.head'_iff.mp (.trans_right run more)
    exact ih t step s'' rest again'

namespace Bus

theorem count_eq (b : Bus) (t : Topic) :
    b.count t = ((List.range b.partitions).map fun p => (b.log t p).length).sum := rfl

end Bus

namespace Encounter

/-- What replies about offsets tell if they were given between two moments. -/
def IsBetween (u w : World) : Encounter → Prop
  | .reply (.committed g t p) (.ok i) => u.bus.offset g t p ≤ i
  | .reply (.commit g t p n) (.ok _) => n ≤ w.bus.offset g t p
  | _ => True

theorem IsBetween.of_grows {u w w' : World} {e : Encounter} (h : e.IsBetween u w)
    (grown : w.Grows w') : e.IsBetween u w' := by
  unfold IsBetween at h ⊢
  split
  · exact h
  · exact Nat.le_trans h (grown.offsets _ _ _)
  · trivial

end Encounter

namespace World

variable {u w w' v : World} {e : Encounter}

theorem Meets.isBetween (h : w.Meets e w') (grown : u.Grows w) : e.IsBetween u w' := by
  cases h with
  | answer r =>
    cases r with
    | committed g t p =>
      show Encounter.IsBetween u w (.reply (.committed g t p) (w.bus.committed g t p))
      cases read : w.bus.committed g t p with
      | error e => trivial
      | ok i =>
        have same : i = w.bus.offset g t p := Bus.committed_ok read
        show u.bus.offset g t p ≤ i
        rw [same]
        exact grown.offsets g t p
    | commit g t p n =>
      simp only [World.answer, tried_map]
      cases done : w.bus.commit g t p n with
      | error e => trivial
      | ok b =>
        obtain ⟨-, rfl⟩ := Bus.commit_ok done
        show n ≤ Bus.offset { w.bus with offsets := _ } g t p
        rw [Bus.offset_commit, if_pos ⟨rfl, rfl, rfl⟩]
    | _ => trivial
  | mint => trivial
  | elapsed => trivial
  | raised => trivial

/-- Others may do anything but add records to a topic. -/
structure AddsNothing (t : Topic) (w v : World) : Prop where
  grows : w.Grows v
  logs : ∀ p, v.bus.log t p = w.bus.log t p

theorem Passes.addsNothing (h : w.Passes v) (t : Topic) : w.AddsNothing t v := by
  obtain ⟨time, today, rfl⟩ := h
  exact ⟨(flip_grows _ _).trans (flip_grows _ _), fun _ => rfl⟩

theorem count_of_logs {t : Topic} (partitions : w'.bus.partitions = w.bus.partitions)
    (logs : ∀ p, w'.bus.log t p = w.bus.log t p) : w'.bus.count t = w.bus.count t := by
  simp only [Bus.count_eq, partitions, logs]

theorem Grows.count_le (h : u.Grows w) (t : Topic) : u.bus.count t ≤ w.bus.count t := by
  rw [Bus.count_eq, Bus.count_eq, h.partitions]
  exact List.sum_le_sum fun p _ => (h.logs t p).length_le

end World

namespace Consumer

variable {c : Consumer} {signal : Option Signal} {p : Nat} {tr : Trace}

/-- Behind a poll that has settled a record: it has read the offset, found the record and moved
the offset past it. -/
theorem settled_course (path : (c.pollPartition signal p).After tr (.done (.ok true))) :
    ∃ i m, .reply (.committed c.group c.topic p) (.ok i) ∈ tr ∧
      .reply (.fetch c.topic p i) (.ok (some m)) ∈ tr ∧
      .reply (.commit c.group c.topic m.partition (m.offset + 1)) (.ok ()) ∈ tr := by
  generalize last : (Job.done (.ok true) : Job (Except Bus.Error Bool)) = j at path
  cases poll_course path with
  | @fetched i m tr j path' =>
    subst last
    obtain ⟨xs, ending, attempts, same⟩ := attempt_over path' trivial
    obtain ⟨left, backoff, x, tr₁, tr₂, rfl, closes⟩ := attempts.closing
    have moved : .reply (.commit c.group c.topic m.partition (m.offset + 1)) (.ok ()) ∈ tr₂ := by
      cases closes with
      | accepted => exact List.mem_cons_self ..
      | buried => exact List.mem_cons_of_mem _ (List.mem_cons_self ..)
      | _ => cases same
    exact ⟨i, m, by simp, by simp, by simp [moved]⟩
  | _ => cases last

/-- The handler publishes nothing. -/
def IsSilent (c : Consumer) : Prop :=
  ∀ history m signal, (c.handler history m signal).Asks fun r =>
    ∀ t key payload, r ≠ .publish t key payload

/-- So nothing but dead letters is published. -/
theorem IsSilent.published (silent : c.IsSilent) {j j' : Job (Except Bus.Error Bool)}
    {e : Encounter} (path : (c.pollPartition signal p).After tr j) (job : j.Meets e j') {t : Topic}
    {key : String} {payload : Bytes} {x : Except Bus.Error Bus.Position}
    (same : e = .reply (.publish t key payload) x) : t = c.topic.deadLetters := by
  subst same
  rcases poll_step (fun m history number => silent history _ signal) path job with
    other | ⟨i, other⟩ | ⟨m, own⟩ | none
  · cases other
  · cases other
  · cases own
    rfl
  · exact absurd rfl (none t key payload)

namespace Chronicle

variable {w₀ u v w' : World} {x : Chronicle} {most : Nat}

/-- In a round that began in the world `u`: what polls were told still holds, and what has been
settled so far is made up for by the lag. -/
structure Balanced (c : Consumer) (w₀ u : World) (x : Chronicle) : Prop where
  grown : u.Grows x.world
  told : ∀ p, ∀ e ∈ x.now p, e.Holds x.world ∧ e.IsBetween u x.world
  partitions : u.bus.partitions = w₀.bus.partitions
  balance : x.settled + u.bus.lag c.group c.topic + w₀.bus.count c.topic ≤
    w₀.bus.lag c.group c.topic + u.bus.count c.topic

theorem Balanced.grow (h : x.Balanced c w₀ u) (grows : x.world.Grows v) :
    { x with world := v }.Balanced c w₀ u where
  grown := h.grown.trans grows
  told p e mem :=
    have told := h.told p e mem
    ⟨told.1.of_grows grows, told.2.of_grows grows⟩
  partitions := h.partitions
  balance := h.balance

theorem Balanced.note (h : x.Balanced c w₀ u) (grows : x.world.Grows v) (p : Nat) {e : Encounter}
    (world : v.Meets e w') : (x.note w' p e).Balanced c w₀ u := by
  obtain ⟨grown, told, partitions, balance⟩ := h.grow (grows.trans world.grows)
  refine ⟨grown, fun q e' mem => ?_, partitions, balance⟩
  have mem : e' ∈ Function.update x.now p (x.now p ++ [e]) q := mem
  by_cases here : q = p
  · subst here
    rw [Function.update_self] at mem
    rcases List.mem_append.mp mem with mem | mem
    · exact told q e' mem
    · obtain rfl := List.mem_singleton.mp mem
      exact ⟨world.holds, world.isBetween (h.grown.trans grows)⟩
  · rw [Function.update_of_ne here] at mem
    exact told q e' mem

/-- What a partition has become of in a round: a record that was settled was there when the round
began, or was added. -/
theorem Balanced.share (h : x.Balanced c w₀ u) {n : Nat} {results : Nat → Except Bus.Error Bool}
    (ended : x.Ended c signal n results) (inside : p < n) :
    (if isSettled (results p) then 1 else 0) +
        ((x.world.bus.log c.topic p).length - x.world.bus.offset c.group c.topic p) +
        (u.bus.log c.topic p).length ≤
      (u.bus.log c.topic p).length - u.bus.offset c.group c.topic p +
        (x.world.bus.log c.topic p).length := by
  have length := (h.grown.logs c.topic p).length_le
  have offset := h.grown.offsets c.group c.topic p
  by_cases settled : isSettled (results p) = true
  · have path := ended p inside
    rw [isSettled_iff.mp settled] at path
    obtain ⟨i, m, read, fetched, moved⟩ := settled_course path
    have first : u.bus.offset c.group c.topic p ≤ i := (h.told p _ read).2
    obtain ⟨r, there, rfl⟩ : ∃ r, (x.world.bus.log c.topic p)[i]? = some r ∧
      m = Bus.delivered c.topic p i r := (h.told p _ fetched).1
    have last : i + 1 ≤ x.world.bus.offset c.group c.topic p := (h.told p _ moved).2
    have found := (List.getElem?_eq_some_iff.mp there).1
    rw [if_pos settled]
    omega
  · rw [if_neg settled]
    omega

/-- A round settles no more records than it takes from the lag. -/
theorem Balanced.gain (h : x.Balanced c w₀ u) {results : Nat → Except Bus.Error Bool}
    (ended : x.Ended c signal w₀.bus.partitions results) :
    gain w₀.bus.partitions results + x.world.bus.lag c.group c.topic + u.bus.count c.topic ≤
      u.bus.lag c.group c.topic + x.world.bus.count c.topic := by
  have partitions : x.world.bus.partitions = w₀.bus.partitions :=
    h.grown.partitions.trans h.partitions
  rw [Chronicle.gain, Bus.lag_eq, Bus.lag_eq, Bus.count_eq, Bus.count_eq, partitions, h.partitions,
    ← List.sum_map_add, ← List.sum_map_add, ← List.sum_map_add]
  exact List.sum_le_sum fun p mem => h.share ended (List.mem_range.mp mem)

theorem Balanced.close (h : x.Balanced c w₀ u) (grows : x.world.Grows v)
    {results : Nat → Except Bus.Error Bool} (ended : x.Ended c signal w₀.bus.partitions results) :
    (x.close v (Chronicle.gain w₀.bus.partitions results)).Balanced c w₀ v := by
  have h := h.grow grows
  have gain := h.gain ended
  have balance := h.balance
  refine ⟨.refl v, fun p e mem => (nomatch mem), h.grown.partitions.trans h.partitions, ?_⟩
  show x.settled + _ + _ + _ ≤ _
  dsimp only at gain balance
  omega

/-- The drain has ended, or it was aborted. All that it has settled was in the lag at the
beginning or has been put back since. -/
structure Returned (c : Consumer) (signal : Option Signal) (w : World) (x : Chronicle)
    (k : Worker) : Prop where
  balance : x.settled + w.bus.count c.topic ≤
    w.bus.lag c.group c.topic + x.world.bus.count c.topic
  primary : c.topic.isDeadLetters = false → x.settled ≤ w.bus.lag c.group c.topic
  stage : (∃ r, k.stage = .ended r ∧ ∀ n, r = .ok n → n = x.settled) ∨
    ∃ f, k.stage = .crashed f ∧ c.MayFault signal f

/-- What a drain keeps while no more than so many records have been put back. -/
structure Bounded (c : Consumer) (w₀ : World) (most : Nat) (x : Chronicle) : Prop where
  balanced : ∃ u, x.Balanced c w₀ u
  primary : c.topic.isDeadLetters = false → x.world.bus.count c.topic = w₀.bus.count c.topic
  few : x.world.bus.count c.topic ≤ w₀.bus.count c.topic + most

namespace Bounded

theorem partitions (h : x.Bounded c w₀ most) (meanwhile : x.world.AddsNothing c.topic v) :
    v.bus.partitions = w₀.bus.partitions := by
  obtain ⟨u, balanced⟩ := h.balanced
  exact meanwhile.grows.partitions.trans (balanced.grown.partitions.trans balanced.partitions)

theorem bound (h : x.Bounded c w₀ most) : x.settled ≤ w₀.bus.lag c.group c.topic + most := by
  obtain ⟨u, balanced⟩ := h.balanced
  have balance := balanced.balance
  have count := balanced.grown.count_le c.topic
  have few := h.few
  omega

theorem grow (h : x.Bounded c w₀ most) (meanwhile : x.world.AddsNothing c.topic v) :
    { x with world := v }.Bounded c w₀ most := by
  obtain ⟨u, balanced⟩ := h.balanced
  have count := World.count_of_logs meanwhile.grows.partitions meanwhile.logs
  exact ⟨⟨u, balanced.grow meanwhile.grows⟩, fun primary => count.trans (h.primary primary),
    count.trans_le h.few⟩

theorem note (silent : c.IsSilent) (h : x.Bounded c w₀ most)
    (meanwhile : x.world.AddsNothing c.topic v) {j j' : Job (Except Bus.Error Bool)} {e : Encounter}
    (path : (c.pollPartition signal p).After (x.now p) j) (world : v.Meets e w')
    (job : j.Meets e j') :
    (x.note w' p e).Bounded c w₀ most ∨
      c.topic.isDeadLetters = true ∧ w₀.bus.count c.topic + most < w'.bus.count c.topic := by
  obtain ⟨u, balanced⟩ := h.balanced
  have balanced := balanced.note meanwhile.grows p world
  have primary (primary : c.topic.isDeadLetters = false) :
      w'.bus.count c.topic = w₀.bus.count c.topic := by
    refine (World.count_of_logs world.grows.partitions (world.logs_of_unpublished ?_)).trans
      ((h.grow meanwhile).primary primary)
    intro t key payload y same
    rw [silent.published path job same]
    exact Topic.ne_deadLetters primary c.topic
  by_cases few : w'.bus.count c.topic ≤ w₀.bus.count c.topic + most
  · exact .inl ⟨⟨u, balanced⟩, primary, few⟩
  · refine .inr ⟨?_, Nat.not_le.mp few⟩
    by_contra other
    have same := primary (Bool.eq_false_iff.mpr other)
    omega

theorem close (h : x.Bounded c w₀ most) (meanwhile : x.world.AddsNothing c.topic v)
    {results : Nat → Except Bus.Error Bool} (ended : x.Ended c signal w₀.bus.partitions results) :
    (x.close v (gain w₀.bus.partitions results)).Bounded c w₀ most := by
  obtain ⟨u, balanced⟩ := h.balanced
  have later := h.grow meanwhile
  exact ⟨⟨v, balanced.close meanwhile.grows ended⟩, later.primary, later.few⟩

theorem returned (h : x.Bounded c w₀ most) {k : Worker}
    (stage : (∃ r, k.stage = .ended r ∧ ∀ n, r = .ok n → n = x.settled) ∨
      ∃ f, k.stage = .crashed f ∧ c.MayFault signal f) : Returned c signal w₀ x k := by
  obtain ⟨u, balanced⟩ := h.balanced
  have balance := balanced.balance
  have count := balanced.grown.count_le c.topic
  refine ⟨by omega, fun primary => ?_, stage⟩
  have same := h.primary primary
  omega

end Bounded
end Chronicle

open Chronicle in
/-- A drain of any topic, with a handler that publishes nothing. Others may do anything but add
records to the topic. The drain comes to its end, with no more records settled than were in its
lag, unless the topic is for dead letters. Then the drain may settle those that it has put back,
too; and either it comes to its end or it puts back more records than any number. -/
theorem drain_returns (silent : c.IsSilent) (signal : Option Signal) (w : World) (most : Nat) :
    Inevitable (Step (World.AddsNothing c.topic))
      (fun y => Returned c signal w y.1 y.2 ∨ c.topic.isDeadLetters = true ∧
        w.bus.count c.topic + most < y.1.world.bus.count c.topic)
      (.start w, c.start .drain signal w) := by
  have start : (Chronicle.start w).Bounded c w most := by
    refine ⟨⟨w, .refl w, fun p e mem => (nomatch mem), rfl, ?_⟩, fun _ => rfl, Nat.le_add_right _ _⟩
    show 0 + _ + _ ≤ _
    omega
  refine Upholds.drain
    (?_ : Upholds _ _ _ _ (Bounded c w most) _ (w.bus.lag c.group c.topic + most)) start
  constructor
  case time => exact fun w v passes => passes.addsNothing c.topic
  case partitions => exact fun x v h meanwhile => h.partitions meanwhile
  case bound => exact fun x h => h.bound
  case go =>
    intro x v w' p j j' e h meanwhile _ path world job
    exact (h.note silent meanwhile path world job).imp id fun escaped k => .inr escaped
  case again => exact fun x v results h meanwhile ended _ => h.close meanwhile ended
  case ended =>
    intro x v results r k h meanwhile ended outcome stage
    refine .inl ((h.close meanwhile ended).returned (.inl ⟨r, stage, ?_⟩))
    rintro n rfl
    cases outcome with
    | finished none =>
      have nothing : gain w.bus.partitions results = 0 := by
        rw [gain]
        refine List.sum_eq_zero fun m mem => ?_
        obtain ⟨p, inside, rfl⟩ := List.mem_map.mp mem
        rw [none p (List.mem_range.mp inside)]
        rfl
      show x.settled = x.settled + _
      rw [nothing, Nat.add_zero]
  case fault =>
    intro x v p f k h meanwhile _ path stage
    exact .inl ((h.grow meanwhile).returned (.inr ⟨f, stage, poll_mayFault path⟩))

/-- A payment that is refused twice is settled, with nobody else there. -/
theorem drain_returns_refusing :
    let c := refusing ⟨2, .ofMillis 100, .ofSeconds 5, .ofMillis 50⟩
    Inevitable (Chronicle.Step (World.AddsNothing .paid))
      (fun y => Chronicle.Returned c none onePayment y.1 y.2 ∨ c.topic.isDeadLetters = true ∧
        onePayment.bus.count .paid + 0 < y.1.world.bus.count .paid)
      (.start onePayment, c.start .drain none onePayment) ∧
    onePayment.bus.lag "clerks" .paid = 1 ∧
    ((drained c onePayment).2.threads.map fun x => x.2.stage.result?) = [some (.ok 1)] := by
  intro c
  have silent : c.IsSilent := fun _ _ _ => trivial
  exact ⟨drain_returns silent none onePayment 0, by decide +kernel, by decide +kernel⟩

/-! ## Dead letters that come back -/

/-- Refuses every dead letter, at once. -/
def stubborn : Consumer :=
  ⟨"clerks", .paidDeadLetters, fun _ _ _ => .done (.error (.failed "refused")),
    ⟨1, .ofMillis 100, .ofSeconds 5, .ofMillis 50⟩⟩

/-- There is one partition, and the clerks are done with all dead letters but the last. -/
structure Pending (w : World) : Prop where
  single : w.bus.partitions = 1
  up : w.bus.down = false
  last : (w.bus.log .paidDeadLetters 0).length = w.bus.offset "clerks" .paidDeadLetters 0 + 1

/-- With the bus up, a record that is given up becomes a dead letter, and the group is done with
it. -/
theorem deadLetter_moves (c : Consumer) {m : Bus.Message} {w : World} (up : w.bus.down = false)
    (inside : m.partition < w.bus.partitions)
    (ahead : w.bus.offset c.group c.topic m.partition ≤ m.offset + 1) :
    ∃ position w', w.Did none ((Ending.buried position).deeds c m) w' ∧
      Relation.ReflTransGen Job.Moves (w, c.deadLetter m) (w', .done (.ok true)) := by
  obtain ⟨position, w₁, published, does₁⟩ :=
    World.answer_publish_up up c.topic.deadLetters m.key m.payload
  have did₁ : w.Did none [.publish c.topic.deadLetters m.key m.payload] w₁ :=
    World.Did.nothing.deed does₁
  have ahead₁ : w₁.bus.offset c.group c.topic m.partition ≤ m.offset + 1 := by
    rw [did₁.offset]
    exact ahead
  obtain ⟨w₂, moved, does₂⟩ := World.answer_commit (did₁.fixed.1 ▸ inside) ahead₁
  have did := ((did₁.deed does₂).deed (.count (.consumed c.topic c.group .deadLettered))).deed
    (.count (.deadLettered c.topic c.group))
  refine ⟨position, _, did, ?_⟩
  refine Job.moves_head (.of_answer published) ?_
  refine Job.moves_head (.of_answer moved) ?_
  refine Job.moves_head (.answer (.count (.consumed c.topic c.group .deadLettered) 1)) ?_
  exact Job.moves_head (.answer (.count (.deadLettered c.topic c.group) 1)) .refl

/-- The dead letter comes back. -/
theorem Pending.poll {w : World} (h : Pending w) : ∃ w', Pending w' ∧
    Relation.ReflTransGen Job.Moves (w, stubborn.pollPartition none 0) (w', .done (.ok true)) := by
  obtain ⟨single, up, last⟩ := h
  generalize offset : w.bus.offset "clerks" .paidDeadLetters 0 = i at last
  have inside : 0 < w.bus.partitions := by omega
  obtain ⟨r, there⟩ : ∃ r, (w.bus.log .paidDeadLetters 0)[i]? = some r :=
    ⟨_, List.getElem?_eq_getElem (by omega)⟩
  have read : w.answer (.committed "clerks" .paidDeadLetters 0) = (.ok i, w) := by
    rw [World.answer, Bus.committed, Bus.known, if_pos inside, offset]
    rfl
  let m := Bus.delivered .paidDeadLetters 0 i r
  have fetched : w.answer (.fetch .paidDeadLetters 0 i) = (.ok (some m), w) := by
    rw [World.answer, Bus.fetch, Bus.known, if_pos inside, there]
    rfl
  have ahead : w.bus.offset "clerks" .paidDeadLetters 0 ≤ i + 1 := by omega
  obtain ⟨position, w', did, buried⟩ :=
    deadLetter_moves stubborn (m := m) (w := w.deliver "clerks" m) up inside ahead
  refine ⟨w', ⟨did.fixed.1.trans single, did.fixed.2.1.trans up, ?_⟩, ?_⟩
  · have place : Bus.partitionOf r.key w.bus.partitions = 0 := by
      rw [single]
      rfl
    have added : w'.bus.log .paidDeadLetters 0 = w.bus.log .paidDeadLetters 0 ++ [r] := by
      rw [did.log, Ending.deeds_adds, if_pos ⟨rfl, rfl, place⟩]
      rfl
    have moved : w'.bus.offset "clerks" .paidDeadLetters 0 = i + 1 := did.offset ..
    rw [added, moved, List.length_append, last, List.length_singleton]
  · refine Job.moves_head (.of_answer read) ?_
    refine Job.moves_head (.of_answer fetched) ?_
    show Relation.ReflTransGen Job.Moves (w, stubborn.attempt none m 0 1 (.ofMillis 100)) _
    rw [attempt_eq]
    exact Job.moves_head (.answer (.deliver "clerks" m)) buried

/-- A round in which the only poll has yet to begin. -/
structure Fresh (x : World × Worker) : Prop where
  pending : Pending x.1
  worker : ∃ total round, x.2 = ⟨stubborn, .drain, none, total, .polling round⟩ ∧
    round.jobs = [(0, stubborn.pollPartition none 0)]

theorem fresh_begin {w : World} (h : Pending w) (total : Nat) (stage : Stage) :
    Fresh (w, Worker.begin ⟨stubborn, .drain, none, total, stage⟩ w) := by
  refine ⟨h, total, _, rfl, ?_⟩
  rw [Bundle.jobs_ofList, h.single]
  rfl

theorem Fresh.round {x : World × Worker} (h : Fresh x) :
    ∃ y, Fresh y ∧ Relation.TransGen Proceeds x y := by
  obtain ⟨w, k⟩ := x
  obtain ⟨pending, total, round, rfl, jobs⟩ := h
  obtain ⟨w', pending', moves⟩ := Pending.poll pending
  obtain ⟨round', jobs', steps⟩ := Worker.job_steps
    (k := ⟨stubborn, .drain, none, total, .polling round⟩) (List.Perm.of_eq jobs) moves
  obtain ⟨v, run, passes, -⟩ := steps.proceeds (.refl w)
  refine ⟨_, fresh_begin pending' (total + 1) (.polling round'), .tail' run ⟨w', passes, ?_⟩⟩
  have past : (round'.jobs.map Prod.snd).Perm ([.ok true].map Job.done) := jobs'.map Prod.snd
  exact .conclude rfl past

/-- A drain of dead letters that are always refused goes on without end. -/
theorem Pending.endless {w : World} (h : Pending w) :
    ¬ Inevitable Proceeds (fun x => ∃ r, x.2.stage = .ended r)
      (w, stubborn.start .drain none w) := by
  intro inevitable
  refine inevitable.not_of_loop (S := Fresh) ?_ (fun x h => h.round) (fresh_begin h 0 _)
  rintro x ⟨r, stage⟩ y ⟨v, -, step⟩
  exact step.unfinished.1 r stage

/-- Refuses the first dead letter only. -/
def yielding : Consumer :=
  { stubborn with
    handler _ m _ := .done (if m.offset = 0 then .error (.failed "refused") else .ok ()) }

def oneDeadLetter : World :=
  ((World.empty 1 true ⟨0, 0, 0⟩).answer (.publish .paidDeadLetters "a" [1])).2

/-- A drain settles two records with a lag of one, and another one does not end. -/
theorem dead_letters_come_back :
    yielding.IsSilent ∧ stubborn.IsSilent ∧ oneDeadLetter.bus.lag "clerks" .paidDeadLetters = 1 ∧
    ((drained yielding oneDeadLetter).2.threads.map fun x => x.2.stage.result?) = [some (.ok 2)] ∧
    ¬ Inevitable Proceeds (fun x => ∃ r, x.2.stage = .ended r)
      (oneDeadLetter, stubborn.start .drain none oneDeadLetter) :=
  ⟨fun _ _ _ => trivial, fun _ _ _ => trivial, by decide +kernel, by decide +kernel,
    Pending.endless ⟨rfl, rfl, by decide +kernel⟩⟩

end Consumer
end Shipyard

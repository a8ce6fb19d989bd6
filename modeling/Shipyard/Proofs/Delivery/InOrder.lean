import Shipyard.Proofs.Delivery.Offsets

/-!
# Deliveries in order

Records of one key lie in one partition, in the order in which they were published, and a consumer
that is the only one of its group goes through a partition without a gap. So the first deliveries
of the records of a key are in that order too, and none is left out.
-/

namespace Shipyard

/-! ## Records of one key -/

namespace Bus

/-- The records of a topic that have a key, in the order of their offsets. -/
def keyed (b : Bus) (t : Topic) (key : String) : List Message :=
  (b.messages t).filter fun m => m.key = key

theorem flatMap_of_one {α : Type} {f : Nat → List α} {n p : Nat} (inside : p < n)
    (others : ∀ q, q ≠ p → f q = []) : (List.range n).flatMap f = f p := by
  induction n with
  | zero => omega
  | succ n ih =>
    rw [List.range_succ, List.flatMap_append, List.flatMap_singleton]
    by_cases last : p = n
    · subst last
      have none : (List.range p).flatMap f = [] := by
        refine List.flatMap_eq_nil_iff.mpr fun q mem => others q ?_
        have less := List.mem_range.mp mem
        omega
      rw [none, List.nil_append]
    · rw [ih (by omega), others n (Ne.symm last), List.append_nil]

/-- What is handed over first at an offset that has a record. -/
def firstAt (b : Bus) (t : Topic) (p i : Nat) : Message :=
  delivered t p i ((b.log t p)[i]?.getD ⟨"", []⟩)

theorem firstAt_injective (b : Bus) (t : Topic) (p i j : Nat)
    (same : b.firstAt t p i = b.firstAt t p j) : i = j :=
  congrArg Message.offset same

theorem firstAt_eq {b : Bus} {t : Topic} {p i : Nat} {r : Record}
    (there : (b.log t p)[i]? = some r) : b.firstAt t p i = delivered t p i r := by
  rw [firstAt, there, Option.getD_some]

theorem mapIdx_delivered (b : Bus) (t : Topic) (p : Nat) :
    (b.log t p).mapIdx (delivered t p) =
      (List.range (b.log t p).length).map (b.firstAt t p) := by
  refine List.ext_getElem? fun i => ?_
  simp only [List.getElem?_mapIdx, List.getElem?_map]
  rcases Nat.lt_or_ge i (b.log t p).length with inside | beyond
  · simp [firstAt, inside]
  · simp [beyond]

end Bus

namespace World

/-- Every record lies in the partition of its key. -/
def Routed (w : World) : Prop :=
  ∀ t p, ∀ r ∈ w.bus.log t p, p = Bus.partitionOf r.key w.bus.partitions

theorem Meets.routed {w w' : World} {e : Encounter} (h : w.Meets e w') (routed : w.Routed) :
    w'.Routed := by
  intro t p r mem
  cases publication : e.publication? with
  | none =>
    obtain ⟨logs, partitions⟩ := h.unpublished publication
    rw [Bus.log, logs] at mem
    rw [partitions]
    exact routed t p r mem
  | some x =>
    obtain ⟨append, place, -⟩ := h.published publication
    rw [append, Bus.log_append] at mem
    rw [append, Bus.partitions_append]
    split at mem
    · next here =>
      rcases List.mem_append.mp mem with earlier | last
      · exact routed t p r earlier
      · rw [List.mem_singleton.mp last, ← place]
        exact here.2.symm
    · exact routed t p r mem

end World

theorem Yard.Reachable.routed {may : World → Call → Prop} {y : Yard} (h : Reachable may y) :
    y.world.Routed := by
  refine h.always (P := World.Routed) (fun n b d t p r mem => ?_)
    (fun w x routed => by cases x <;> exact routed) fun w e w' routed met => met.routed routed
  simp [World.empty, Bus.empty, Bus.log] at mem

namespace World

variable {w w' : World} {e : Encounter} {t : Topic} {key : String}

/-- All records of a key are in one partition. -/
theorem Routed.keyed (routed : w.Routed) (t : Topic) (key : String) : w.bus.keyed t key =
    ((w.bus.log t (Bus.partitionOf key w.bus.partitions)).mapIdx
      (Bus.delivered t (Bus.partitionOf key w.bus.partitions))).filter fun m => m.key = key := by
  rw [Bus.keyed, Bus.messages, List.filter_flatMap]
  refine Bus.flatMap_of_one (Bus.partitionOf_lt key _ w.bus.positive) fun q other => ?_
  refine List.filter_eq_nil_iff.mpr fun m mem => ?_
  obtain ⟨i, inside, rfl⟩ := List.mem_mapIdx.mp mem
  have place := routed t q _ (List.getElem_mem inside)
  intro same
  have key_eq : ((w.bus.log t q)[i]).key = key := of_decide_eq_true same
  exact other (key_eq ▸ place)

/-- The records of a key are in the order in which they were published. -/
theorem Meets.keyed (h : w.Meets e w') (routed : w.Routed) (t : Topic) (key : String) :
    w'.bus.keyed t key = w.bus.keyed t key ∨ ∃ payload position,
      e = .reply (.publish t key payload) (.ok position) ∧
      w'.bus.keyed t key = w.bus.keyed t key ++
        [Bus.delivered t position.partition position.offset ⟨key, payload⟩] := by
  rw [(h.routed routed).keyed, routed.keyed]
  cases publication : e.publication? with
  | none =>
    obtain ⟨logs, partitions⟩ := h.unpublished publication
    refine .inl ?_
    rw [partitions, Bus.log, logs, Bus.log]
  | some x =>
    obtain ⟨t', position, r⟩ := x
    obtain ⟨append, place, next⟩ := h.published publication
    rw [append, Bus.partitions_append, Bus.log_append]
    by_cases here : t' = t ∧ position.partition = Bus.partitionOf key w.bus.partitions
    · obtain ⟨rfl, same⟩ := here
      rw [if_pos ⟨rfl, same⟩, List.mapIdx_concat, List.filter_append, ← same, ← next]
      by_cases about : r.key = key
      · subst about
        refine .inr ⟨r.payload, position, Encounter.publication?_eq_some_iff.mp publication, ?_⟩
        simp [Bus.delivered]
      · exact .inl (by simp [Bus.delivered, about])
    · rw [if_neg here]
      exact .inl rfl

end World

/-! ## First deliveries -/

theorem eraseDups_snoc {α : Type} [DecidableEq α] (as : List α) (a : α) (P : α → Bool) :
    ((as ++ [a]).filter P).eraseDups =
      (as.filter P).eraseDups ++ if a ∈ as then [] else [a].filter P := by
  rw [List.filter_append, List.eraseDups_append]
  by_cases accepted : P a = true
  · by_cases mem : a ∈ as <;> simp [List.removeAll, List.eraseDups_cons, accepted, mem]
  · by_cases mem : a ∈ as <;> simp [accepted, mem]

/-- What is handed over first, each time, goes through the offsets from 0 on. -/
theorem Gapless.first_map {α : Type} [DecidableEq α] {xs : List Nat} (h : Gapless xs) {f : Nat → α}
    (injective : ∀ i j, f i = f j → i = j) (P : α → Bool) :
    ∃ k, (∀ j, j ∈ xs ↔ j < k) ∧
      ((xs.map f).filter P).eraseDups = ((List.range k).map f).filter P := by
  induction xs using List.reverseRecOn with
  | nil => exact ⟨0, by simp, by simp⟩
  | append_singleton xs i ih =>
    obtain ⟨earlier, follows⟩ := snoc_iff.mp h
    obtain ⟨k, mem_iff, first⟩ := ih earlier
    have known : f i ∈ xs.map f ↔ i ∈ xs := by
      constructor
      · intro mem
        obtain ⟨j, mem, same⟩ := List.mem_map.mp mem
        exact injective j i same ▸ mem
      · exact List.mem_map_of_mem
    rw [List.map_append, List.map_singleton, eraseDups_snoc, first]
    by_cases again : i ∈ xs
    · refine ⟨k, fun j => ?_, ?_⟩
      · rw [List.mem_append, List.mem_singleton, mem_iff]
        have inside := (mem_iff i).mp again
        omega
      · rw [if_pos (known.mpr again), List.append_nil]
    · have next : i = k := by
        have beyond : ¬ i < k := fun less => again ((mem_iff i).mpr less)
        rcases follows with ⟨rfl, rfl⟩ | ⟨j, last, next⟩
        · omega
        · have inside := (mem_iff j).mp (List.mem_of_getLast? last)
          omega
      subst next
      refine ⟨i + 1, fun j => ?_, ?_⟩
      · rw [List.mem_append, List.mem_singleton, mem_iff]
        omega
      · rw [if_neg fun mem => again (known.mp mem), List.range_succ, List.map_append,
          List.filter_append, List.map_singleton]

namespace World

/-- The records of a key that were handed to a group, each when it came first. -/
def firstHanded (w : World) (g : String) (t : Topic) (key : String) : List Bus.Message :=
  (((w.handed g t).filter fun m => m.key = key).map fun m => { m with attempt := 1 }).eraseDups

end World

namespace Yard

variable {c : Consumer} {y : Yard}

/-- What was handed over is on the bus. -/
theorem Solo.handed_there (discreet : c.IsDiscreet) (h : Solo c y) {m : Bus.Message}
    (mem : m ∈ y.world.handed c.group c.topic) :
    ∃ r, (y.world.bus.log c.topic m.partition)[m.offset]? = some r ∧
      { m with attempt := 1 } = Bus.delivered c.topic m.partition m.offset r := by
  have reached := h.kept discreet
  obtain ⟨t, there, e, he, hands⟩ := reached.traced
    (P := fun w => m ∈ w.handed c.group c.topic) (Q := fun e => m ∈ e.hands c.group c.topic)
    (fun _ _ _ => by simp [World.empty, World.handed])
    (fun w x mem => by cases x <;> exact mem)
    (fun w e w' met mem => by
      rw [met.handed] at mem
      exact List.mem_append.mp mem) mem
  obtain ⟨x, rfl, about⟩ : ∃ x, e = .reply (.deliver c.group m) x ∧ m.topic = c.topic := by
    unfold Encounter.hands at hands
    split at hands
    · next g m' x =>
      split at hands
      · next about =>
        obtain rfl := List.mem_singleton.mp hands
        exact ⟨about.1 ▸ x, by obtain ⟨rfl, -⟩ := about; rfl, about.2⟩
      · cases hands
    · cases hands
  have path := reached.coherent t there
  have known := reached.known t there
  rcases h.poll_or_abroad t there with ⟨signal, p, poll⟩ | other
  · obtain ⟨call, tr, j⟩ := t
    dsimp only at poll path known he
    subst poll
    obtain ⟨i, m₀, attends, own⟩ := Consumer.poll_asked_own discreet path he (.deliver m about)
    obtain ⟨r, stored, rfl⟩ := known _ attends.fetched
    cases own
    exact ⟨r, stored, rfl⟩
  · exact absurd (.deliver m about) (other.of_mem path he)

/-- The deliveries of the records of a key are told by the offsets of its partition. -/
theorem Solo.handed_key (discreet : c.IsDiscreet) (h : Solo c y) {key : String} {p : Nat}
    (place : Bus.partitionOf key y.world.bus.partitions = p) :
    ((y.world.handed c.group c.topic).filter fun m => m.key = key).map
        (fun m => { m with attempt := 1 }) =
      ((y.world.handedOffsets c.group c.topic p).map (y.world.bus.firstAt c.topic p)).filter
        fun m => m.key = key := by
  have routed := (h.kept discreet).routed
  have there := fun m mem => h.handed_there discreet (m := m) mem
  have mine : (y.world.handed c.group c.topic).filter (fun m => m.key = key) =
      ((y.world.handed c.group c.topic).filter fun m => m.partition = p).filter
        fun m => m.key = key := by
    rw [List.filter_filter]
    refine List.filter_congr fun m mem => ?_
    by_cases about : m.key = key
    · obtain ⟨r, stored, same⟩ := there m mem
      have key_eq : m.key = r.key := congrArg Bus.Message.key same
      have here : m.partition = p := by
        rw [← place, ← about, key_eq]
        exact routed c.topic m.partition r (List.mem_of_getElem? stored)
      simp [about, here]
    · simp [about]
  have each : ∀ m ∈ (y.world.handed c.group c.topic).filter fun m => m.partition = p,
      { m with attempt := 1 } = (y.world.bus.firstAt c.topic p ∘ Bus.Message.offset) m := by
    intro m mem
    obtain ⟨handed, here⟩ := List.mem_filter.mp mem
    obtain ⟨r, stored, same⟩ := there m handed
    obtain rfl : m.partition = p := of_decide_eq_true here
    rw [same]
    exact (Bus.firstAt_eq stored).symm
  rw [mine, World.handedOffsets, List.map_map, ← List.map_congr_left each, List.filter_map]
  rfl

/-- An offset that was handed over has a record. -/
theorem Solo.handed_lt (discreet : c.IsDiscreet) (h : Solo c y) {p i : Nat}
    (handed : i ∈ y.world.handedOffsets c.group c.topic p) :
    i < (y.world.bus.log c.topic p).length := by
  obtain ⟨m, mem, rfl⟩ := List.mem_map.mp handed
  obtain ⟨was_handed, here⟩ := List.mem_filter.mp mem
  obtain rfl : m.partition = p := of_decide_eq_true here
  obtain ⟨r, stored, -⟩ := h.handed_there discreet was_handed
  exact (List.getElem?_eq_some_iff.mp stored).1

/-- The first deliveries of the records of a key are those records, from the first one on. -/
theorem Solo.first_prefix (discreet : c.IsDiscreet) (h : Solo c y) (key : String) :
    y.world.firstHanded c.group c.topic key <+: y.world.bus.keyed c.topic key := by
  rw [(h.kept discreet).routed.keyed, World.firstHanded]
  generalize place : Bus.partitionOf key y.world.bus.partitions = p
  have gapless := (h.ordered discreet p).gapless
  obtain ⟨k, mem_iff, first⟩ :=
    gapless.first_map (y.world.bus.firstAt_injective c.topic p) fun m => m.key = key
  have inside : k ≤ (y.world.bus.log c.topic p).length := by
    by_contra beyond
    have handed := (mem_iff (y.world.bus.log c.topic p).length).mpr (by omega)
    exact Nat.lt_irrefl _ (h.handed_lt discreet handed)
  rw [h.handed_key discreet place, first, Bus.mapIdx_delivered]
  obtain ⟨rest, length⟩ := Nat.exists_eq_add_of_le inside
  rw [length, List.range_add]
  exact ((List.prefix_append _ _).map _).filter _

/-- An offset that was left behind was accepted by the handler, or its record is a dead letter. -/
theorem Solo.left_behind (discreet : c.IsDiscreet) (h : Solo c y) {p i j : Nat}
    (handed : j ∈ y.world.handedOffsets c.group c.topic p) (behind : i < j) :
    ∃ r, (y.world.bus.log c.topic p)[i]? = some r ∧
      (y.Accepted c.group c.topic p i r ∨ y.Buried c.group c.topic p i r) := by
  obtain ⟨gapless, follows, -⟩ := h.ordered discreet p
  obtain ⟨k, last, le⟩ := gapless.mem_iff.mp handed
  have moved : i < y.world.bus.offset c.group c.topic p := by
    rcases follows with ⟨none, -⟩ | ⟨k', last', next⟩
    · rw [none] at handed
      cases handed
    · obtain rfl : k = k' := Option.some.inj (last.symm.trans last')
      omega
  exact (h.kept discreet).settled p i moved

/-- A consumer that is the only one of its group hands over each partition without a gap, and goes
on from a record only when that was accepted or is a dead letter. So the records of each key are
first handed over in the order in which they were published, from the first one on. -/
theorem delivered_in_order (discreet : c.IsDiscreet) (h : Solo c y) :
    (∀ p, Gapless (y.world.handedOffsets c.group c.topic p)) ∧
    (∀ p, ∀ j ∈ y.world.handedOffsets c.group c.topic p, ∀ i < j,
      ∃ r, (y.world.bus.log c.topic p)[i]? = some r ∧
        (y.Accepted c.group c.topic p i r ∨ y.Buried c.group c.topic p i r)) ∧
    (∀ key, y.world.firstHanded c.group c.topic key <+: y.world.bus.keyed c.topic key) ∧
    (∀ key e w', y.world.Meets e w' → w'.bus.keyed c.topic key = y.world.bus.keyed c.topic key ∨
      ∃ payload position, e = .reply (.publish c.topic key payload) (.ok position) ∧
        w'.bus.keyed c.topic key = y.world.bus.keyed c.topic key ++
          [Bus.delivered c.topic position.partition position.offset ⟨key, payload⟩]) := by
  refine ⟨fun p => (h.ordered discreet p).gapless, ?_, h.first_prefix discreet, ?_⟩
  · intro p j handed i behind
    exact h.left_behind discreet handed behind
  · intro key e w' met
    exact met.keyed (h.kept discreet).routed c.topic key

/-- The partition that a call polls, if it is a poll. -/
def polled? (t : Thread) : Option Nat :=
  match t.call with
  | .poll _ _ p => some p
  | _ => none

/-- No call behind that of a number polls the same partition. -/
def isLatest (y : Yard) (n : Nat) : Bool :=
  match y.threads[n]?.bind polled? with
  | none => true
  | some p => (y.threads.drop (n + 1)).all fun u => polled? u ≠ some p

theorem Solo.advance (h : Solo c y) {n : Nat} (latest : y.isLatest n = true) :
    Solo c (y.advance n) := by
  obtain same | ⟨before, t, after, e, k, w, parts, world, job, moved, behind, there⟩ :=
    advance_cases y n
  · rw [same]
    exact h
  · rw [moved]
    have h' : Solo c ⟨y.world, before ++ t :: after⟩ := parts ▸ h
    refine h'.move world job fun signal p poll u mem s other => ?_
    have polls : polled? t = some p := by rw [polled?, poll]
    rw [isLatest, there, Option.bind_some, polls, ← behind] at latest
    have elsewhere := List.all_eq_true.mp latest u mem
    simp [polled?, other] at elsewhere

/-- What may happen while one consumer works. -/
inductive SoloAct
  | flip (f : World.Flip)
  | publish (topic : Topic) (key : String) (payload : Bytes)
  | round
  | move (n : Nat)

def soloAct (c : Consumer) (y : Yard) : SoloAct → Yard
  | .flip f => y.act (.flip f)
  | .publish topic key payload => y.act (.begin (.publish topic key payload))
  | .round => { y with threads := y.threads ++
      (List.range y.world.bus.partitions).map fun p => .start (.poll c none p) }
  | .move n => if y.isLatest n then y.advance n else y

/-- A schedule in which nothing comes of a poll that was given up. -/
theorem Solo.play (h : Solo c y) (acts : List SoloAct) : Solo c (acts.foldl (soloAct c) y) := by
  induction acts generalizing y with
  | nil => exact h
  | cons a acts ih =>
    refine ih ?_
    cases a with
    | flip f => exact h.flip f
    | publish topic key payload =>
      exact h.begin (.publish topic key payload) ⟨(by rintro ⟨⟩), fun _ => trivial⟩
    | round => exact h.round none
    | move n =>
      rw [soloAct]
      split
      · next latest => exact h.advance latest
      · exact h

/-- It fails once with a first record and always with a second one; with a third one it is
cancelled the first time. -/
def waverer : Consumer where
  group := "waverers"
  topic := .paid
  handler history m _ := .done <|
    if m.payload = [1] ∧ m.attempt = 1 ∨ m.payload = [2] then .error (.failed "not now")
    else if m.payload = [3] ∧ (history.countP fun d => d.message.payload = [3]) = 1 then
      .error .cancelled
    else .ok ()
  config := { Consumer.Config.usual with maxAttempts := 2, backoff := .ofMillis 0 }

/-- Four records of one key and one of another are published. The second record becomes a dead
letter only after the bus was down for a round, and one round is given up for the next one. -/
def wavering : List SoloAct :=
  let serve (n : Nat) : List SoloAct :=
    .round :: (List.replicate 12 (.move n) ++ List.replicate 5 (.move (n + 1)))
  [.publish .paid "a" [1], .publish .paid "a" [2], .publish .paid "b" [7], .publish .paid "a" [3],
    .move 0, .move 1, .move 2, .move 3] ++
    serve 4 ++ [.flip (.bus true)] ++ serve 6 ++ [.flip (.bus false)] ++ serve 8 ++
    [.publish .paid "a" [4], .move 10] ++ serve 11 ++ [.round, .move 13, .move 13, .move 13] ++
    serve 15 ++ serve 17

theorem delivered_in_order_wavering :
    let y := wavering.foldl (soloAct waverer) (Yard.empty 2 false ⟨0, 0, 0⟩)
    y.world.handedOffsets "waverers" .paid 0 = [0, 0, 1, 1, 1, 1, 2, 2, 2, 3] ∧
      Gapless (y.world.handedOffsets "waverers" .paid 0) ∧
      (∃ r, (y.world.bus.log .paid 0)[2]? = some r ∧
        (y.Accepted "waverers" .paid 0 2 r ∨ y.Buried "waverers" .paid 0 2 r)) ∧
      (y.world.firstHanded "waverers" .paid "a").map Bus.Message.payload = [[1], [2], [3], [4]] ∧
      y.world.firstHanded "waverers" .paid "a" <+: y.world.bus.keyed .paid "a" := by
  intro y
  have discreet : waverer.IsDiscreet := fun _ _ _ => trivial
  have solo : Solo waverer y := Solo.play (.empty 2 false ⟨0, 0, 0⟩) wavering
  obtain ⟨gapless, behind, first, -⟩ := delivered_in_order discreet solo
  have offsets : y.world.handedOffsets "waverers" .paid 0 = [0, 0, 1, 1, 1, 1, 2, 2, 2, 3] := by
    decide +kernel
  refine ⟨offsets, gapless 0, behind 0 3 ?_ 2 (by decide), by decide +kernel, first "a"⟩
  show 3 ∈ y.world.handedOffsets "waverers" .paid 0
  rw [offsets]
  decide

end Yard
end Shipyard

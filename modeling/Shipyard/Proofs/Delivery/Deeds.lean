import Mathlib.Data.List.Perm.Basic
import Mathlib.Logic.Function.Iterate
import Shipyard.Proofs.Delivery.Crew
import Shipyard.Proofs.Delivery.Offsets

/-!
# Deeds of consumers

Records that are handed over or published, offsets that are moved and what is counted about records
are the deeds of a consumer; everything else that happens meanwhile leaves the bus, the journal and
these counters alone. So what has become of them can be told from the list of deeds. The deeds of
partitions that are polled side by side are mixed. Two such histories in which every partition has
the same share differ in the order of their deeds only.
-/

namespace Shipyard

/-- Whether a counter counts what consumers do with records. -/
def Meter.Counter.isConsumption : Meter.Counter → Bool
  | .consumed _ _ _ => true
  | .deadLettered _ _ => true
  | _ => false

/-- A count that goes up by one, and wraps. Nothing is counted while the meter is off. -/
def Meter.succ (enabled : Bool) (n : Nat) : Nat :=
  if enabled then (n + 1) % 0x10000000000000000 else n

namespace Bus

/-- With this publishing fails while the bus is down. -/
def unreachable : Error := .unavailable "broker is not reachable"

end Bus

namespace Request

def isDeed : Request → Bool
  | .publish _ _ _ => true
  | .commit _ _ _ _ => true
  | .deliver _ _ => true
  | .count c _ => c.isConsumption
  | _ => false

/-- The record of a partition that is handed to a group. -/
def hands (g : String) (t : Topic) (p : Nat) : Request → List Bus.Message
  | .deliver g' m => if g' = g ∧ m.topic = t ∧ m.partition = p then [m] else []
  | _ => []

/-- Where an offset is moved to. -/
def marks (g : String) (t : Topic) (p : Nat) : Request → List Nat
  | .commit g' t' p' n => if g' = g ∧ t' = t ∧ p' = p then [n] else []
  | _ => []

/-- The record that is put on one of so many partitions of a topic. -/
def adds (partitions : Nat) (t : Topic) (p : Nat) : Request → List Bus.Record
  | .publish t' key payload =>
    if t' = t ∧ Bus.partitionOf key partitions = p then [⟨key, payload⟩] else []
  | _ => []

def counts (c : Meter.Counter) : Request → Bool
  | .count c' _ => c' = c
  | _ => false

end Request

namespace World

/-- The records of one partition that were handed to a group, in the order of time. -/
def handedFrom (w : World) (g : String) (t : Topic) (p : Nat) : List Bus.Message :=
  (w.handed g t).filter fun m => m.partition = p

/-- A signal is not raised. -/
def IsQuiet (w : World) (signal : Option Signal) : Prop := ∀ s, signal = some s → s ∉ w.raised

/-- Nothing happens that concerns consumers. -/
structure Aside (signal : Option Signal) (w w' : World) : Prop where
  bus : w'.bus = w.bus
  journal : w'.journal = w.journal
  enabled : w'.meter.enabled = w.meter.enabled
  counts : ∀ c, c.isConsumption = true → w'.meter.count c = w.meter.count c
  quiet : w.IsQuiet signal → w'.IsQuiet signal

theorem Aside.refl (signal : Option Signal) (w : World) : w.Aside signal w :=
  ⟨rfl, rfl, rfl, fun _ _ => rfl, id⟩

variable {signal : Option Signal} {w v w' : World}

theorem Passes.aside (h : w.Passes v) : w.Aside signal v := by
  obtain ⟨time, today, rfl⟩ := h
  exact ⟨rfl, rfl, rfl, fun _ _ => rfl, id⟩

theorem Meets.aside {r : Request} {x : r.Reply} (h : w.Meets (.reply r x) w')
    (other : r.isDeed = false) (silent : ∀ s, signal = some s → r ≠ .raise s) :
    w.Aside signal w' := by
  have same : w.Aside signal w := .refl signal w
  cases h.alters with
  | publish => cases other
  | commit => cases other
  | deliver => cases other
  | raise s =>
    refine ⟨rfl, rfl, rfl, fun _ _ => rfl, fun quiet s' here mem => ?_⟩
    rcases List.mem_cons.mp mem with rfl | mem
    · exact silent s' here rfl
    · exact quiet s' here mem
  | count c n =>
    refine ⟨rfl, rfl, w.meter.enabled_add c n, fun c' about => ?_, id⟩
    have different : c ≠ c' := by
      rintro rfl
      rw [Request.isDeed, about] at other
      cases other
    exact (w.meter.count_add c c' n).trans (if_neg fun h => different h.1)
  | time s b =>
    exact ⟨rfl, rfl, w.meter.enabled_time s b, fun c _ => w.meter.count_time c s b, id⟩
  | _ => exact { same with }

/-- A deed, and the world after it. -/
inductive Does (w : World) : Request → World → Prop
  | publish (t : Topic) (key : String) (payload : Bytes) : Does w (.publish t key payload)
      { w with bus := w.bus.append t (Bus.partitionOf key w.bus.partitions) ⟨key, payload⟩ }
  | commit (g : String) (t : Topic) (p n : Nat) : Does w (.commit g t p n)
      { w with bus := { w.bus with offsets := w.bus.offsets.put (g, t, p) n } }
  | deliver (g : String) (m : Bus.Message) : Does w (.deliver g m) (w.deliver g m)
  | count (c : Meter.Counter) : Does w (.count c 1) { w with meter := w.meter.add c 1 }

theorem answer_publish_down (down : w.bus.down = true) (t : Topic) (key : String)
    (payload : Bytes) : w.answer (.publish t key payload) = (.error Bus.unreachable, w) := by
  rw [answer, tried_map, Bus.publish, if_pos down]
  rfl

theorem answer_publish_up (up : w.bus.down = false) (t : Topic) (key : String) (payload : Bytes) :
    ∃ p w', w.answer (.publish t key payload) = (.ok p, w') ∧
      w.Does (.publish t key payload) w' := by
  have accepted : ¬ w.bus.down = true := by simp [up]
  let p := Bus.partitionOf key w.bus.partitions
  refine ⟨⟨p, (w.bus.log t p).length⟩, _, ?_, .publish t key payload⟩
  rw [answer, tried_map, Bus.publish, if_neg accepted]

theorem answer_commit {g : String} {t : Topic} {p n : Nat} (inside : p < w.bus.partitions)
    (ahead : w.bus.offset g t p ≤ n) :
    ∃ w', w.answer (.commit g t p n) = (.ok (), w') ∧ w.Does (.commit g t p n) w' := by
  have committed : w.bus.commit g t p n =
      .ok { w.bus with offsets := w.bus.offsets.put (g, t, p) n } := by
    simp [Bus.commit, Bus.known, inside, Nat.not_lt.mpr ahead, bind, Except.bind]
  refine ⟨_, ?_, .commit g t p n⟩
  rw [answer, tried_map, committed]

/-- One deed after the other, and whatever else happens that does not concern consumers. -/
inductive Did (signal : Option Signal) (w : World) : List Request → World → Prop
  | nothing : Did signal w [] w
  | aside {h : List Request} {v v' : World} (before : Did signal w h v)
      (same : v.Aside signal v') : Did signal w h v'
  | deed {h : List Request} {r : Request} {v v' : World} (before : Did signal w h v)
      (does : v.Does r v') : Did signal w (h ++ [r]) v'

namespace Did

variable {h : List Request}

/-- What deeds leave as it is. -/
theorem fixed (did : w.Did signal h w') :
    w'.bus.partitions = w.bus.partitions ∧ w'.bus.down = w.bus.down ∧
      w'.meter.enabled = w.meter.enabled ∧ (w.IsQuiet signal → w'.IsQuiet signal) := by
  induction did with
  | nothing => exact ⟨rfl, rfl, rfl, id⟩
  | aside _ same ih =>
    rw [same.bus, same.enabled]
    exact ⟨ih.1, ih.2.1, ih.2.2.1, fun quiet => same.quiet (ih.2.2.2 quiet)⟩
  | deed _ does ih =>
    cases does with
    | count c => exact ⟨ih.1, ih.2.1, (Meter.enabled_add ..).trans ih.2.2.1, ih.2.2.2⟩
    | _ => exact ih

theorem handedFrom (did : w.Did signal h w') (g : String) (t : Topic) (p : Nat) :
    w'.handedFrom g t p = w.handedFrom g t p ++ h.flatMap (Request.hands g t p) := by
  induction did with
  | nothing => exact (List.append_nil _).symm
  | aside _ same ih =>
    rw [World.handedFrom, World.handed, same.journal]
    exact ih
  | @deed _ _ v _ _ does ih =>
    rw [List.flatMap_append, ← List.append_assoc, ← ih]
    cases does with
    | deliver g' m =>
      have longer : (v.deliver g' m).handed g t =
          v.handed g t ++ if g' = g ∧ m.topic = t then [m] else [] := by
        by_cases about : g' = g ∧ m.topic = t <;> simp [World.handed, World.deliver, about]
      rw [World.handedFrom, longer, List.filter_append, ← World.handedFrom]
      by_cases about : g' = g ∧ m.topic = t <;>
        by_cases here : m.partition = p <;> simp [Request.hands, about, here]
    | _ => simp [World.handedFrom, World.handed, Request.hands]

theorem log (did : w.Did signal h w') (t : Topic) (p : Nat) :
    w'.bus.log t p = w.bus.log t p ++ h.flatMap (Request.adds w.bus.partitions t p) := by
  induction did with
  | nothing => exact (List.append_nil _).symm
  | aside _ same ih => rw [same.bus, ih]
  | deed before does ih =>
    rw [List.flatMap_append, ← List.append_assoc, ← ih]
    cases does with
    | publish t' key payload =>
      rw [Bus.log_append, before.fixed.1]
      split
      · next here => simp [Request.adds, here]
      · next elsewhere => simp [Request.adds, elsewhere]
    | _ => simp [Bus.log, World.deliver, Request.adds]

theorem offset (did : w.Did signal h w') (g : String) (t : Topic) (p : Nat) :
    w'.bus.offset g t p = (h.flatMap (Request.marks g t p)).getLastD (w.bus.offset g t p) := by
  induction did with
  | nothing => rfl
  | aside _ same ih => rw [same.bus, ih]
  | deed _ does ih =>
    rw [List.flatMap_append]
    cases does with
    | commit g' t' p' n =>
      rw [Bus.offset_commit]
      split
      · next here => simp [Request.marks, here]
      · next elsewhere => simpa [Request.marks, elsewhere] using ih
    | publish => simpa [Bus.offset_append, Request.marks] using ih
    | _ => simpa [World.deliver, Request.marks] using ih

theorem count (did : w.Did signal h w') {c : Meter.Counter} (about : c.isConsumption = true) :
    w'.meter.count c =
      (Meter.succ w.meter.enabled)^[h.countP (Request.counts c)] (w.meter.count c) := by
  induction did with
  | nothing => rfl
  | aside _ same ih => rw [same.counts c about, ih]
  | deed before does ih =>
    rw [List.countP_append, Nat.add_comm, Function.iterate_add_apply, ← ih]
    cases does with
    | count c' =>
      rw [Meter.count_add, before.fixed.2.2.1]
      by_cases same : c' = c
      · simp [Request.counts, same, Meter.succ]
      · simp [Request.counts, same]
    | _ => rfl

end Did
end World

/-! ## Deeds about one record -/

namespace Consumer.Own

variable {c : Consumer} {m : Bus.Message} {r : Request} {g : String} {t : Topic} {p : Nat}

theorem hands (own : c.Own m r) {m' : Bus.Message} (mem : m' ∈ r.hands g t p) :
    g = c.group ∧ p = m.partition := by
  cases own with
  | deliver number =>
    rw [Request.hands] at mem
    split at mem
    · next about => exact ⟨about.1.symm, about.2.2.symm⟩
    · cases mem
  | _ => cases mem

theorem marks (own : c.Own m r) {n : Nat} (mem : n ∈ r.marks g t p) :
    (g = c.group ∧ p = m.partition) ∧ n = m.offset + 1 := by
  cases own with
  | commit =>
    rw [Request.marks] at mem
    split at mem
    · next about => exact ⟨⟨about.1.symm, about.2.2.symm⟩, List.mem_singleton.mp mem⟩
    · cases mem
  | _ => cases mem

theorem adds (own : c.Own m r) {partitions : Nat} {x : Bus.Record}
    (mem : x ∈ r.adds partitions t p) : t = c.topic.deadLetters := by
  cases own with
  | bury =>
    rw [Request.adds] at mem
    split at mem
    · next about => exact about.1.symm
    · cases mem
  | _ => cases mem

end Consumer.Own

/-! ## Histories of several partitions -/

section Shares

variable {α β : Type} {p q : Nat} {x : α} {h h' : List (Nat × α)}

/-- What belongs to one partition. -/
def share (p : Nat) (h : List (Nat × α)) : List α := (h.filter fun x => x.1 = p).map Prod.snd

theorem share_concat_self : share p (h ++ [(p, x)]) = share p h ++ [x] := by
  simp [share]

theorem share_concat_other (other : q ≠ p) : share p (h ++ [(q, x)]) = share p h := by
  simp [share, other]

theorem mem_share (mem : (p, x) ∈ h) : x ∈ share p h :=
  List.mem_map_of_mem (List.mem_filter.mpr ⟨mem, by simp⟩)

/-- Histories with the same shares differ in their order only. -/
theorem perm_of_shares (same : ∀ p, share p h = share p h') : h.Perm h' := by
  classical
  have count (h : List (Nat × α)) (p : Nat) (x : α) : h.count (p, x) = (share p h).count x := by
    induction h with
    | nil => rfl
    | cons y h ih =>
      obtain ⟨q, y⟩ := y
      by_cases here : q = p
      · subst here
        simpa [share, List.count_cons] using ih
      · simpa [share, List.count_cons, here] using ih
  refine List.perm_iff_count.mpr fun x => ?_
  rw [count h, count h', same]

/-- What only one partition adds to is told by its share. -/
theorem flatMap_share {F : α → List β} (others : ∀ x ∈ h, x.1 ≠ p → F x.2 = []) :
    (h.map Prod.snd).flatMap F = (share p h).flatMap F := by
  induction h with
  | nil => rfl
  | cons x h ih =>
    have rest := ih fun y mem => others y (List.mem_cons_of_mem _ mem)
    by_cases here : x.1 = p
    · simpa [share, here] using rest
    · simpa [share, here, others x (List.mem_cons_self ..) here] using rest

end Shares

end Shipyard

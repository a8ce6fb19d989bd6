import Mathlib.Algebra.BigOperators.Group.List.Lemmas
import Mathlib.Algebra.BigOperators.Ring.Finset
import Mathlib.Data.ZMod.Basic
import Shipyard.Proofs.Effects
import Shipyard.Proofs.Yard

/-!
# Accounts of payments

What single encounters add to the charges of an order, to the orders that are paid, to the records
of a topic and to a counter; the world shows the sums over all calls. Every charge and every record
has a call that made it.
-/

namespace Shipyard

namespace Table

variable {κ ν : Type} [DecidableEq κ]

theorem countP_putIn (P : ν → Bool) (k : κ) (v : ν) (es : List (κ × ν)) :
    ((putIn k v es).map Prod.snd).countP P + ((findIn k es).any P).toNat =
      (es.map Prod.snd).countP P + (P v).toNat := by
  induction es with
  | nil => cases h : P v <;> simp [putIn, findIn, h]
  | cons e rest ih =>
    obtain ⟨k', v'⟩ := e
    by_cases same : k' = k
    · cases h : P v <;> cases h' : P v' <;> simp [putIn, findIn, same, h, h']
    · simp only [putIn, findIn, same, if_false, List.map_cons, List.countP_cons]
      omega

theorem countP_values_put (P : ν → Bool) (t : Table κ ν) (k : κ) (v : ν) :
    (t.put k v).values.countP P + ((t.find? k).any P).toNat =
      t.values.countP P + (P v).toNat :=
  countP_putIn P k v t.entries

end Table

namespace Bus

theorem sum_update (n p : Nat) (inside : p < n) (f g : Nat → Nat) (here : g p = f p + 1)
    (elsewhere : ∀ i, i ≠ p → g i = f i) :
    ((List.range n).map g).sum = ((List.range n).map f).sum + 1 := by
  induction n with
  | zero => omega
  | succ n ih =>
    simp only [List.range_succ, List.map_append, List.sum_append, List.map_cons, List.map_nil,
      List.sum_cons, List.sum_nil, add_zero]
    by_cases last : p = n
    · subst last
      have others : (List.range p).map g = (List.range p).map f :=
        List.map_congr_left fun i mem => elsewhere i (by simp at mem; omega)
      rw [others, here]
      omega
    · rw [ih (by omega), elsewhere n (Ne.symm last)]
      omega

theorem count_append (b : Bus) {t t' : Topic} {p : Nat} (inside : p < b.partitions) (r : Record) :
    (b.append t p r).count t' = b.count t' + if t = t' then 1 else 0 := by
  unfold count
  simp only [← List.sum_eq_foldr]
  by_cases same : t = t'
  · subst same
    rw [if_pos rfl]
    refine sum_update _ p inside _ _ ?_ fun i other => ?_
    · simp [log_append]
    · simp [log_append, Ne.symm other]
  · simp [log_append, same]

end Bus

/-- An account to which no encounter of a trace adds. -/
theorem Trace.sum_eq_zero {tr : Trace} {g : Encounter → Nat} (none : ∀ e ∈ tr, g e = 0) :
    (tr.map g).sum = 0 := by
  refine List.sum_eq_zero fun n mem => ?_
  obtain ⟨e, he, rfl⟩ := List.mem_map.mp mem
  exact none e he

namespace Encounter

def charges (id : OrderId) (e : Encounter) : Nat :=
  e.charge?.toList.countP fun c => c.order = id

/-- Whether the order is paid by the encounter. -/
def settles (id : OrderId) (e : Encounter) : Nat :=
  match e.write? with
  | some x => if x.id = id then x.settles else 0
  | none => 0

def settlements (e : Encounter) : Nat :=
  match e.write? with
  | some x => x.settles
  | none => 0

theorem charges_of_none {e : Encounter} (none : e.charge? = none) (id : OrderId) :
    e.charges id = 0 := by
  simp [charges, none]

theorem settles_of_none {e : Encounter} (none : e.write? = none) (id : OrderId) :
    e.settles id = 0 := by
  simp [settles, none]

def records (topic : Topic) (e : Encounter) : Nat :=
  match e.publication? with
  | some x => if x.topic = topic then 1 else 0
  | none => 0

def counts (c : Meter.Counter) : Encounter → Nat
  | .reply (.count c' n) _ => if c' = c then n else 0
  | _ => 0

end Encounter

namespace World

/-- How many orders were paid, those that are assembled by now included. -/
def settledCount (w : World) : Nat :=
  w.store.orders.values.countP fun o => o.status.isSettled

namespace Meets

variable {w w' : World} {e : Encounter}

theorem charges (h : w.Meets e w') (id : OrderId) :
    (w'.ledger.chargesFor id).length = (w.ledger.chargesFor id).length + e.charges id := by
  unfold Ledger.chargesFor Encounter.charges
  rw [h.ledger, List.filter_append, List.length_append]
  simp [List.countP_eq_length_filter]

theorem settles (h : w.Meets e w') (id : OrderId) :
    (w'.isSettled id).toNat = (w.isSettled id).toNat + e.settles id := by
  rw [Encounter.settles]
  cases write : e.write? with
  | none => simp [isSettled, h.unwritten write]
  | some x =>
    obtain ⟨orders, settled, -⟩ := h.written write
    by_cases same : x.id = id
    · subst same
      simp [isSettled, orders] at settled ⊢
      exact settled
    · simp [isSettled, orders, Table.find?_put, same]

theorem settlements (h : w.Meets e w') :
    w'.settledCount = w.settledCount + e.settlements := by
  unfold settledCount Encounter.settlements
  cases write : e.write? with
  | none => simp [h.unwritten write]
  | some x =>
    obtain ⟨orders, settled, -⟩ := h.written write
    have total := Table.countP_values_put (fun o => o.status.isSettled) w.store.orders x.id x.order
    rw [isSettled] at settled
    rw [orders]
    show _ = _ + x.settles
    omega

theorem records (h : w.Meets e w') (t : Topic) :
    w'.bus.count t = w.bus.count t + e.records t := by
  rw [Encounter.records]
  cases publication : e.publication? with
  | none =>
    obtain ⟨logs, partitions⟩ := h.unpublished publication
    simp [Bus.count, Bus.log, logs, partitions]
  | some x =>
    obtain ⟨append, place, -⟩ := h.published publication
    have inside : x.position.partition < w.bus.partitions := by
      rw [place]
      exact Bus.partitionOf_lt _ _ w.bus.positive
    rw [append, Bus.count_append _ inside]

/-- The meter is on or off for good. -/
theorem enabled (h : w.Meets e w') : w'.meter.enabled = w.meter.enabled := by
  rw [h.meter]
  cases e with
  | woken => rfl
  | reply r x =>
    cases r with
    | count c n => simp only [Encounter.measured, Meter.add]; split <;> rfl
    | time s b => simp only [Encounter.measured, Meter.time]; split <;> rfl
    | _ => rfl

theorem counts (h : w.Meets e w') (c : Meter.Counter) (on : w.meter.enabled = true) :
    ((w'.meter.count c : ℕ) : ZMod 0x10000000000000000) = w.meter.count c + e.counts c := by
  rw [h.meter]
  cases e with
  | woken => simp [Encounter.measured, Encounter.counts]
  | reply r x =>
    cases r with
    | count c' n =>
      simp only [Encounter.measured, Encounter.counts, Meter.count_add, on, and_true]
      by_cases same : c' = c <;> simp [same]
    | time s b => simp [Encounter.measured, Meter.time, on, Meter.count, Encounter.counts]
    | _ => simp [Encounter.measured, Encounter.counts]

end Meets
end World

namespace Yard.Reachable

variable {may : World → Call → Prop} {y : Yard}

theorem charges (h : Reachable may y) (id : OrderId) :
    (y.world.ledger.chargesFor id).length =
      (y.threads.map fun t => (t.trace.map (Encounter.charges id)).sum).sum :=
  h.accounts (f := fun w => (w.ledger.chargesFor id).length) (fun _ _ _ => rfl)
    (fun w x => by cases x <;> rfl) fun _ _ _ met => met.charges id

theorem settles (h : Reachable may y) (id : OrderId) :
    (y.world.isSettled id).toNat =
      (y.threads.map fun t => (t.trace.map (Encounter.settles id)).sum).sum :=
  h.accounts (f := fun w => (w.isSettled id).toNat) (fun _ _ _ => rfl)
    (fun w x => by cases x <;> rfl) fun _ _ _ met => met.settles id

theorem settlements (h : Reachable may y) :
    y.world.settledCount = (y.threads.map fun t => (t.trace.map Encounter.settlements).sum).sum :=
  h.accounts (f := World.settledCount) (fun _ _ _ => rfl)
    (fun w x => by cases x <;> rfl) fun _ _ _ met => met.settlements

theorem records (h : Reachable may y) (t : Topic) :
    y.world.bus.count t =
      (y.threads.map fun u => (u.trace.map (Encounter.records t)).sum).sum := by
  refine h.accounts (f := fun w => w.bus.count t) (fun n b d => ?_)
    (fun w x => by cases x <;> rfl) fun _ _ _ met => met.records t
  simp [Bus.count, World.empty, Bus.empty, Bus.log, ← List.sum_eq_foldr]

/-- A counter shows what was counted, modulo 2 ^ 64. -/
theorem counts (h : Reachable may y) (c : Meter.Counter) (on : y.world.meter.enabled = true) :
    y.world.meter.count c =
      (y.threads.map fun t => (t.trace.map (Encounter.counts c)).sum).sum %
        0x10000000000000000 := by
  have bounded : y.world.meter.count c < 0x10000000000000000 := by
    refine h.always (P := fun w => w.meter.count c < 0x10000000000000000) (fun _ _ _ => ?_)
      (fun w x lt => by cases x <;> exact lt) fun w e w' lt met => ?_
    · exact Nat.two_pow_pos 64
    · rw [met.meter]
      unfold Encounter.measured
      split
      · exact Meter.count_add_lt lt
      · rwa [Meter.count_time]
      · exact lt
  have total := h.accounts_while (P := fun w => w.meter.enabled = true)
    (f := fun w => ((w.meter.count c : ℕ) : ZMod 0x10000000000000000))
    (g := fun e => (e.counts c : ZMod 0x10000000000000000)) (fun _ _ _ => rfl)
    (fun w x on => by cases x <;> exact ⟨on, rfl⟩)
    (fun w e w' met on => by
      have before : w.meter.enabled = true := met.enabled ▸ on
      exact ⟨before, met.counts c before⟩) on
  have cast : (y.threads.map fun t => (t.trace.map fun e =>
        (e.counts c : ZMod 0x10000000000000000)).sum).sum =
      ((y.threads.map fun t => (t.trace.map (Encounter.counts c)).sum).sum : ℕ) := by
    simp [Nat.cast_list_sum, Function.comp_def]
  rw [cast, ZMod.natCast_eq_natCast_iff'] at total
  rw [← total, Nat.mod_eq_of_lt bounded]

theorem named (h : Reachable may y) : y.world.Named := by
  refine h.always (P := World.Named) (fun _ _ _ id o found => ?_)
    (fun w x named => by cases x <;> exact named) fun w e w' named met => met.named named
  simp [World.empty, Store.empty] at found

/-- Every charge was made by a call. -/
theorem charged (h : Reachable may y) {c : Charge} (mem : c ∈ y.world.ledger.charges) :
    ∃ t ∈ y.threads, .reply (.charge c) (.ok ()) ∈ t.trace := by
  obtain ⟨t, mem, e, he, rfl⟩ := h.traced (P := fun w => c ∈ w.ledger.charges)
    (Q := fun e => e = .reply (.charge c) (.ok ()))
    (fun _ _ _ => by simp [World.empty, Ledger.empty])
    (fun w x mem => by cases x <;> exact mem)
    (fun w e w' met mem => by
      rw [met.ledger, List.mem_append, Option.mem_toList, Encounter.charge?_eq_some_iff] at mem
      exact mem) mem
  exact ⟨t, mem, he⟩

/-- Every record was published by a call. -/
theorem published (h : Reachable may y) {t : Topic} {p i : Nat} {r : Bus.Record}
    (there : (y.world.bus.log t p)[i]? = some r) :
    ∃ u ∈ y.threads, .reply (.publish t r.key r.payload) (.ok ⟨p, i⟩) ∈ u.trace := by
  have appended : ∀ (w : World) (e : Encounter) (w' : World), w.Meets e w' →
      (w'.bus.log t p)[i]? = some r →
      (w.bus.log t p)[i]? = some r ∨ e = .reply (.publish t r.key r.payload) (.ok ⟨p, i⟩) := by
    intro w e w' met there
    cases publication : e.publication? with
    | none =>
      rw [Bus.log, (met.unpublished publication).1] at there
      exact .inl there
    | some x =>
      obtain ⟨t', ⟨p', i'⟩, r'⟩ := x
      obtain ⟨append, -, next⟩ := met.published publication
      rw [append, Bus.log_append] at there
      split at there
      · next here =>
        obtain ⟨rfl, rfl⟩ := here
        rcases Nat.lt_or_ge i (w.bus.log t' p').length with before | after
        · rw [List.getElem?_append_left before] at there
          exact .inl there
        · rw [List.getElem?_append_right after, List.getElem?_singleton] at there
          split at there
          · next last =>
            cases there
            have same : i = i' := by
              dsimp only at next after last
              omega
            subst same
            exact .inr (Encounter.publication?_eq_some_iff.mp publication)
          · cases there
      · exact .inl there
  obtain ⟨u, mem, e, he, rfl⟩ := h.traced (P := fun w => (w.bus.log t p)[i]? = some r)
    (Q := fun e => e = .reply (.publish t r.key r.payload) (.ok ⟨p, i⟩))
    (fun _ _ _ => by simp [World.empty, Bus.empty, Bus.log])
    (fun w x there => by cases x <;> exact there) appended there
  exact ⟨u, mem, he⟩

end Yard.Reachable
end Shipyard

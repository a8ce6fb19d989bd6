import Shipyard.Proofs.Fulfilment.Rounds

/-!
# Shifts keep the books

A crew is sound if its books are right and each of its workers is where its places say. Every step
of a crew keeps it sound, in whatever order its workers go on. So the books are right after a shift
that a shutdown ended at any moment.
-/

namespace Shipyard

namespace World

/-- The books are right while all workers are at rest. -/
def IsBooked (w : World) : Prop :=
  ∃ pages, Books pages w fun d p => w.bus.offset d.group d.topic p

theorem flip_kept {w : World} {f : Flip} (smooth : f.isSwitch = false) :
    (w.flip f).store = w.store ∧ (w.flip f).bus = w.bus ∧ (w.flip f).outbox = w.outbox ∧
      w.raised ⊆ (w.flip f).raised := by
  cases f with
  | raise signal => exact ⟨rfl, rfl, rfl, List.subset_cons_self _ _⟩
  | tick => exact ⟨rfl, rfl, rfl, List.Subset.refl _⟩
  | date => exact ⟨rfl, rfl, rfl, List.Subset.refl _⟩
  | stock => exact ⟨rfl, rfl, rfl, List.Subset.refl _⟩
  | _ => cases smooth

end World

namespace Crew

/-- What a crew with certain duties leaves as it is. -/
structure Kept (ds : List Duty) (w w' : World) : Prop where
  partitions : w'.bus.partitions = w.bus.partitions
  offsets : ∀ d p, d ∉ ds → w'.bus.offset d.group d.topic p = w.bus.offset d.group d.topic p
  logs : .build ∉ ds → ∀ t p, w'.bus.log t p = w.bus.log t p
  orders : w.store.Advances w'.store

theorem Kept.refl (ds : List Duty) (w : World) : Kept ds w w :=
  ⟨rfl, fun _ _ _ => rfl, fun _ _ _ => rfl, .refl _⟩

theorem Kept.trans {ds : List Duty} {w v u : World} (h : Kept ds w v) (h' : Kept ds v u) :
    Kept ds w u where
  partitions := h'.partitions.trans h.partitions
  offsets d p other := (h'.offsets d p other).trans (h.offsets d p other)
  logs quiet t p := (h'.logs quiet t p).trans (h.logs quiet t p)
  orders := h.orders.trans h'.orders

theorem kept_of_eq {ds : List Duty} {w w' : World} (store : w'.store = w.store)
    (bus : w'.bus = w.bus) : Kept ds w w' := by
  refine ⟨by rw [bus], by simp [bus], by simp [bus], ?_⟩
  rw [store]
  exact .refl _

theorem kept_of_confined {ds : List Duty} {d : Duty} {w w' : World} (member : d ∈ ds)
    (h : d.Confined w w') : Kept ds w w' where
  partitions := h.partitions
  offsets d' p other := h.offsets d' p fun same => other (same ▸ member)
  logs quiet t p := h.others t p fun builder => absurd (builder ▸ member) quiet
  orders := h.orders

structure Sound (calm : Prop) (ds : List Duty) (cr : Crew) (pages : Pages) (places : Places) :
    Prop where
  books : Books pages cr.world (cr.world.handled places)
  workers : List.Forall₂ (fun d k => k.AtWork d calm cr.world (places d)) ds cr.workers
  idle : ∀ d, d ∉ ds → ∀ p, p < cr.world.bus.partitions → (places d p).credit = 0

section Soundness

variable {calm : Prop} {ds : List Duty} {cr cr' : Crew} {pages : Pages} {places : Places}

theorem Sound.flip (h : Sound calm ds cr pages places) {f : World.Flip}
    (smooth : f.isSwitch = false) :
    Sound calm ds { cr with world := cr.world.flip f } pages places := by
  obtain ⟨store, bus, outbox, raised⟩ := World.flip_kept (w := cr.world) smooth
  constructor
  · rw [World.handled_of_bus bus]
    exact h.books.of_eq store (by rw [bus]) (by rw [bus]) (by rw [bus]) outbox
  · refine h.workers.imp fun d k atWork => ⟨atWork.consumer, ?_⟩
    exact atWork.stage.stable (by rw [bus]) fun p => Site.untouched_of_eq bus raised
  · rw [bus]
    exact h.idle

/-- Whoever makes the next step, a crew stays sound. -/
theorem Sound.step (h : Sound calm ds cr pages places) (distinct : ds.Nodup)
    (still : calm → .build ∈ ds → ∀ d ∈ ds, d.topic ≠ .assembled) (step : Step cr cr') :
    ∃ pages' places', Sound calm ds cr' pages' places' ∧ Kept ds cr.world cr'.world := by
  cases step with
  | flip _ f smooth =>
    obtain ⟨store, bus, -, -⟩ := World.flip_kept (w := cr.world) smooth
    exact ⟨pages, places, h.flip smooth, kept_of_eq store bus⟩
  | @work w w' k k' before after step =>
    obtain ⟨books, workers, idle⟩ := h
    obtain ⟨ds₁, d, ds₂, rfl, first, atWork, last⟩ := forall₂_split workers
    obtain ⟨pages', σ, books', atWork', confined⟩ := Consumer.Worker.step_atWork step atWork books
    have single : d ∉ ds₁ ++ ds₂ := (List.nodup_cons.mp (List.nodup_middle.mp distinct)).1
    have member : d ∈ ds₁ ++ d :: ds₂ := by simp
    have other (d' : Duty) (among : d' ∈ ds₁ ++ ds₂) (k : Consumer.Worker)
        (old : k.AtWork d' calm w (places d')) :
        k.AtWork d' calm w' (Function.update places d σ d') := by
      have different : d' ≠ d := fun same => single (same ▸ among)
      have member' : d' ∈ ds₁ ++ d :: ds₂ := by
        rcases List.mem_append.mp among with mem | mem <;> simp [mem]
      rw [Function.update_of_ne different]
      refine ⟨old.consumer, old.stage.stable confined.partitions fun p => ?_⟩
      exact Site.untouched_of_confined confined (confined.offsets d' p different)
        fun calm builder => still calm (builder ▸ member) d' member'
    refine ⟨pages', Function.update places d σ, ⟨books', ?_, ?_⟩, kept_of_confined member confined⟩
    · have moved : k'.AtWork d calm w' (Function.update places d σ d) := by
        rw [Function.update_self]
        exact atWork'
      exact List.rel_append
        (forall₂_imp_of_mem first fun d' mem => other d' (List.mem_append_left _ mem))
        (.cons moved (forall₂_imp_of_mem last fun d' mem => other d' (List.mem_append_right _ mem)))
    · intro d' out p inside
      have different : d' ≠ d := fun same => out (same ▸ member)
      rw [Function.update_of_ne different]
      rw [confined.partitions] at inside
      exact idle d' out p inside

theorem Sound.run (h : Sound calm ds cr pages places) (distinct : ds.Nodup)
    (still : calm → .build ∈ ds → ∀ d ∈ ds, d.topic ≠ .assembled) (run : Run cr cr') :
    ∃ pages' places', Sound calm ds cr' pages' places' ∧ Kept ds cr.world cr'.world := by
  induction run with
  | refl => exact ⟨pages, places, h, .refl _ _⟩
  | tail _ step ih =>
    obtain ⟨pages', places', sound, kept⟩ := ih
    obtain ⟨pages'', places'', sound', kept'⟩ := sound.step distinct still step
    exact ⟨pages'', places'', sound', kept.trans kept'⟩

/-- Nobody has begun. -/
def atRest : Places := fun _ => Consumer.Worker.outset

theorem sound_start (calm : Prop) {w : World} {pages : Pages}
    (books : Books pages w fun d p => w.bus.offset d.group d.topic p) (ds : List Duty)
    (build : Assembly.Config) (config : Consumer.Config) (mode : Consumer.Mode)
    (signal : Option Signal) :
    Sound calm ds ⟨w, ds.map fun d => (d.consumer build config).start mode signal w⟩ pages
      atRest := by
  refine ⟨books, ?_, fun d _ p _ => rfl⟩
  rw [List.forall₂_map_right_iff, List.forall₂_same]
  intro d _
  exact Consumer.Worker.begin_atWork ⟨build, config, rfl⟩

/-- When all workers have ended, nothing is left half done. -/
theorem Sound.booked (h : Sound calm ds cr pages places)
    (past : ∀ k ∈ cr.workers, ∃ r, k.stage = .ended r) : cr.world.IsBooked := by
  have credits (d : Duty) (p : Nat) (inside : p < cr.world.bus.partitions) :
      (places d p).credit = 0 := by
    by_cases member : d ∈ ds
    · obtain ⟨k, mem, atWork⟩ := forall₂_exists h.workers member
      obtain ⟨r, ended⟩ := past k mem
      have isAt := atWork.stage
      rw [ended] at isAt
      exact isAt.2 p inside
    · exact h.idle d member p inside
  refine ⟨pages, h.books.congr fun d p inside => ?_⟩
  rw [World.handled, credits d p inside, Nat.add_zero]

end Soundness

end Crew

/-- After a shift the books are right, and nothing happened to the orders but that some paid ones
were assembled. -/
theorem Workers.Shift.booked {w w' : World} (shift : Shift w w') (booked : w.IsBooked) :
    w'.IsBooked ∧ w.store.Advances w'.store := by
  obtain ⟨build, config, signal, -, ks, run, past⟩ := shift
  obtain ⟨pages, books⟩ := booked
  have start := Crew.sound_start False books Duty.all build config .forever (some signal)
  obtain ⟨pages', places', sound, kept⟩ := start.run (by decide) (fun calm => calm.elim) run
  exact ⟨sound.booked past, kept.orders⟩

end Shipyard

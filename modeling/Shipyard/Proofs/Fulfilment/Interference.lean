import Shipyard.Proofs.Fulfilment.Books

/-!
# What a move leaves alone

One move of a poll changes little: `Move.confined` says what it leaves to the other workers and to
the other partitions of its own, so that what they know stays true. `Move.books` says that it keeps
the books right.
-/

namespace Shipyard

abbrev Places : Type := Duty → Nat → Place

/-- How many records of a partition a worker has dealt with. -/
def World.handled (w : World) (places : Places) (d : Duty) (p : Nat) : Nat :=
  w.bus.offset d.group d.topic p + (places d p).credit

theorem World.handled_of_bus {w w' : World} (bus : w'.bus = w.bus) (places : Places) :
    w'.handled places = w.handled places := by
  funext d p
  rw [handled, handled, bus]

/-- Nothing has changed but what a worker may change. -/
structure Duty.Confined (d : Duty) (w w' : World) : Prop where
  partitions : w'.bus.partitions = w.bus.partitions
  offsets : ∀ d' p, d' ≠ d → w'.bus.offset d'.group d'.topic p = w.bus.offset d'.group d'.topic p
  logs : ∀ t p, w.bus.log t p <+: w'.bus.log t p
  others : ∀ t p, (d = .build → t ≠ .assembled) → w'.bus.log t p = w.bus.log t p
  raised : w'.raised = w.raised
  orders : w.store.Advances w'.store

theorem Duty.confined_of_alike (d : Duty) {w w' : World} (same : w.Alike w') : d.Confined w w' where
  partitions := by rw [same.bus]
  offsets := by simp [same.bus]
  logs := by simp [same.bus]
  others := by simp [same.bus]
  raised := same.raised
  orders := by
    rw [same.store]
    exact .refl _

/-- The effect of a record moves no offset. -/
theorem Duty.Does.offset {d : Duty} {e : Event} {w w' : World} (h : d.Does e w w') (g : String)
    (t : Topic) (p : Nat) : w'.bus.offset g t p = w.bus.offset g t p := by
  cases h with
  | complete found paid store bus => rw [bus]
  | again found assembled same => rw [same.bus]
  | build order user bus => rw [bus, Bus.offset_append]
  | tell teller outbox store bus => rw [bus]

theorem Duty.Does.confined {d : Duty} {e : Event} {w w' : World} (h : d.Does e w w') :
    d.Confined w w' := by
  have offsets := h.offset
  cases h with
  | complete found paid store bus outbox raised =>
    refine ⟨by rw [bus], fun d p _ => offsets _ _ p, by simp [bus], by simp [bus], raised, ?_⟩
    rw [store]
    exact Store.advances_put found paid _
  | again found assembled same => exact Duty.confined_of_alike _ same
  | build order user bus store outbox raised =>
    refine ⟨by rw [bus]; rfl, fun d p _ => offsets _ _ p, fun t p => ?_, fun t p other => ?_,
      raised, ?_⟩
    · rw [bus, Bus.log_append]
      split
      · exact List.prefix_append _ _
      · exact List.prefix_rfl
    · rw [bus, Bus.log_append, if_neg]
      exact fun here => other rfl here.1.symm
    · rw [store]
      exact .refl _
  | tell teller outbox store bus raised =>
    refine ⟨by rw [bus], fun d p _ => offsets _ _ p, by simp [bus], by simp [bus], raised, ?_⟩
    rw [store]
    exact .refl _

namespace Site

variable {s : Site} {π π' : Place} {w w' : World}

/-- What a poll knows does not depend on what else has changed. -/
structure Untouched (s : Site) (w w' : World) : Prop where
  offset : s.offset w' = s.offset w
  log : s.log w <+: s.log w'
  still : s.calm → s.log w' = s.log w
  raised : w.raised ⊆ w'.raised

theorem untouched_of_eq (bus : w'.bus = w.bus) (raised : w.raised ⊆ w'.raised) :
    s.Untouched w w' := by
  have log : s.log w' = s.log w := by simp [Site.log, bus]
  have offset : s.offset w' = s.offset w := by simp [Site.offset, bus]
  exact ⟨offset, by rw [log], fun _ => log, raised⟩

theorem untouched_of_confined {d : Duty} (h : d.Confined w w') (offset : s.offset w' = s.offset w)
    (still : s.calm → d = .build → s.duty.topic ≠ .assembled) : s.Untouched w w' := by
  refine ⟨offset, h.logs _ _, fun calm => h.others _ _ (still calm), ?_⟩
  rw [h.raised]
  exact fun _ => id

/-- The effect of a worker is never on its own topic. -/
theorem untouched_of_own (h : s.duty.Confined w w') (offset : s.offset w' = s.offset w) :
    s.Untouched w w' :=
  untouched_of_confined h offset fun _ builder => by rw [builder]; decide

theorem Knows.stable (h : s.Knows w π) (same : s.Untouched w w') : s.Knows w' π := by
  cases π with
  | reading => trivial
  | located n => exact same.offset.trans h
  | holding n e made =>
    obtain ⟨here, kind, there⟩ := h
    obtain ⟨rest, longer⟩ := same.log
    refine ⟨same.offset.trans here, kind, ?_⟩
    have inside : n < (s.log w).length := (List.getElem?_eq_some_iff.mp there).1
    rw [← longer, List.getElem?_append_left inside, there]
  | settled => trivial
  | emptied n =>
    intro calm
    rw [same.offset, same.still calm]
    exact h calm
  | stopped =>
    obtain ⟨signal, own, up⟩ := h
    exact ⟨signal, own, same.raised up⟩

theorem Move.confined (h : s.Move π w π' w') :
    s.duty.Confined w w' ∧
      ∀ p, p ≠ s.partition → w'.bus.offset s.duty.group s.duty.topic p =
        w.bus.offset s.duty.group s.duty.topic p := by
  have alike (same : w.Alike w') : s.duty.Confined w w' ∧
      ∀ p, p ≠ s.partition → w'.bus.offset s.duty.group s.duty.topic p =
        w.bus.offset s.duty.group s.duty.topic p :=
    ⟨s.duty.confined_of_alike same, fun p _ => by rw [same.bus]⟩
  cases h with
  | idle same => exact alike same
  | locate same => exact alike same
  | take same => exact alike same
  | miss same => exact alike same
  | act does => exact ⟨does.confined, fun p _ => does.offset _ _ p⟩
  | commit bus store outbox raised =>
    obtain ⟨-, moved⟩ := Bus.commit_ok bus
    refine ⟨⟨by rw [moved], fun d p other => ?_, by simp [moved, Bus.log], by simp [moved, Bus.log],
      raised, ?_⟩, fun p other => ?_⟩
    · have groups : s.duty.group ≠ d.group := fun same => other (Duty.group_injective same).symm
      rw [moved, Bus.offset_commit, if_neg fun here => groups here.1]
    · rw [store]
      exact .refl _
    · rw [moved, Bus.offset_commit, if_neg fun here => other here.2.2.symm]
  | stop same => exact alike same

theorem Move.knows (h : s.Move π w π' w') (knows : s.Knows w π) : s.Knows w' π' := by
  have alike (π : Place) (same : w.Alike w') (knows : s.Knows w π) : s.Knows w' π :=
    knows.stable (untouched_of_eq same.bus (by rw [same.raised]; exact fun _ => id))
  cases h with
  | idle same => exact alike π same knows
  | locate same => exact alike (.located (s.offset w)) same rfl
  | @take n e _ _ same kind there => exact alike (.holding n e false) same ⟨knows, kind, there⟩
  | @miss n _ _ same none => exact alike (.emptied n) same fun _ => ⟨knows, none⟩
  | @act n e _ _ does =>
    have held : s.Knows w (.holding n e true) := knows
    exact held.stable (untouched_of_own does.confined (does.offset _ _ _))
  | commit => trivial
  | stop same up => exact alike .stopped same up

end Site

/-- The places after one poll has moved. -/
def Places.move (places : Places) (d : Duty) (p : Nat) (π : Place) : Places :=
  Function.update places d (Function.update (places d) p π)

theorem Places.move_self (places : Places) (d : Duty) (p : Nat) (π : Place) :
    places.move d p π d p = π := by
  simp [move]

theorem Places.move_other (places : Places) {d d' : Duty} {p q : Nat} (π : Place)
    (other : d' ≠ d ∨ q ≠ p) : places.move d p π d' q = places d' q := by
  by_cases same : d' = d
  · subst same
    have different : q ≠ p := other.resolve_left fun h => h rfl
    simp [move, different]
  · simp [move, same]

theorem Places.update_move (places : Places) (d : Duty) (p : Nat) (π : Place) :
    Function.update places d (places.move d p π d) = places.move d p π := by
  simp [move]

theorem Books.congr {pages : Pages} {w : World} {done done' : Duty → Nat → Nat}
    (books : Books pages w done)
    (same : ∀ d p, p < w.bus.partitions → done' d p = done d p) : Books pages w done' := by
  have finished (d : Duty) (p : Nat) (inside : p < w.bus.partitions) :
      pages.finished done' d p = pages.finished done d p := by
    rw [Pages.finished, Pages.finished, same d p inside]
  have gathered (d : Duty) : gather w.bus.partitions (pages.finished done' d) =
      gather w.bus.partitions (pages.finished done d) := gather_congr (finished d)
  constructor
  case reads => exact books.reads
  case writes => exact books.writes
  case bus => exact books.bus
  case channel => exact books.channel
  case logs => exact books.logs
  case kinds => exact books.kinds
  case bound =>
    intro d p inside
    rw [same d p inside]
    exact books.bound d p inside
  case counted => exact books.counted
  case agreed => exact books.agreed
  case built =>
    rw [gathered]
    exact books.built
  case told =>
    rw [gathered, gathered]
    exact books.told
  case completed =>
    intro p inside e mem
    rw [finished .complete p inside] at mem
    exact books.completed p inside e mem

/-- The places matter to the books only in so far as records have had their effects. -/
theorem Books.of_credits {pages : Pages} {w : World} {places places' : Places}
    (books : Books pages w (w.handled places))
    (same : ∀ d p, p < w.bus.partitions → (places' d p).credit = (places d p).credit) :
    Books pages w (w.handled places') := by
  refine books.congr fun d p inside => ?_
  rw [World.handled, World.handled, same d p inside]

namespace Site

variable {s : Site} {π π' : Place} {w w' : World} {places : Places} {pages : Pages}

theorem Move.offsets (h : s.Move π w π' w') (d : Duty) (p : Nat)
    (other : d ≠ s.duty ∨ p ≠ s.partition) :
    w'.bus.offset d.group d.topic p = w.bus.offset d.group d.topic p := by
  obtain ⟨confined, own⟩ := h.confined
  by_cases same : d = s.duty
  · subst same
    exact own p (other.resolve_left fun h => h rfl)
  · exact confined.offsets d p same

theorem Move.handled (h : s.Move π w π' w') (places : Places) :
    w'.handled (places.move s.duty s.partition π') s.duty s.partition =
        s.offset w' + π'.credit ∧
      ∀ d p, d ≠ s.duty ∨ p ≠ s.partition →
        w'.handled (places.move s.duty s.partition π') d p = w.handled places d p := by
  constructor
  · rw [World.handled, Places.move_self]
    rfl
  · intro d p other
    rw [World.handled, World.handled, Places.move_other places π' other, h.offsets d p other]

/-- One move of a poll keeps the books right. -/
theorem Move.books (h : s.Move π w π' w') (sees : s.Sees w π)
    (here : places s.duty s.partition = π) (books : Books pages w (w.handled places)) :
    ∃ pages', Books pages' w' (w'.handled (places.move s.duty s.partition π')) := by
  obtain ⟨own, others⟩ := h.handled places
  -- Where no record has its effect, the numbers are the same and the books need no change.
  have kept (books' : Books pages w' (w.handled places))
      (same : s.offset w' + π'.credit = s.offset w + π.credit) :
      ∃ pages', Books pages' w' (w'.handled (places.move s.duty s.partition π')) := by
    refine ⟨pages, books'.congr fun d p _ => ?_⟩
    by_cases site : d = s.duty ∧ p = s.partition
    · obtain ⟨rfl, rfl⟩ := site
      rw [own, same, World.handled, here]
      rfl
    · exact others d p (by tauto)
  have alike (same : w.Alike w') (credit : π'.credit = π.credit) :
      ∃ pages', Books pages' w' (w'.handled (places.move s.duty s.partition π')) :=
    kept (books.of_alike same) (by simp [Site.offset, same.bus, credit])
  cases h with
  | idle same => exact alike same rfl
  | locate same => exact alike same rfl
  | take same => exact alike same rfl
  | miss same => exact alike same rfl
  | @act n e _ _ does =>
    obtain ⟨offset, kind, there⟩ := sees.knows
    have dealt : w.handled places s.duty s.partition = n := by
      rw [World.handled, here]
      exact offset
    have more : OneMore (w.handled places)
        (w'.handled (places.move s.duty s.partition (.holding n e true))) s.duty s.partition := by
      refine ⟨?_, others⟩
      rw [own, dealt]
      have same : s.offset w' = s.offset w := does.offset _ _ _
      rw [same, offset]
      rfl
    refine books.act does more ?_ sees.inside
    rw [Site.log, books.logs, List.getElem?_map, Option.map_eq_some_iff] at there
    obtain ⟨e', there, same⟩ := there
    have kind' := books.kinds _ _ e' (List.mem_of_getElem? there)
    obtain rfl : e' = e := Event.record_inj (kind'.trans kind.symm) same
    rw [dealt]
    exact there
  | @commit n e _ _ bus store outbox =>
    obtain ⟨offset, -, -⟩ := sees.knows
    obtain ⟨-, moved⟩ := Bus.commit_ok bus
    refine kept ?_ ?_
    · exact books.of_eq store (by rw [moved]) (by rw [moved]) (by rw [moved]) outbox
    · rw [offset]
      simp [Site.offset, moved, Bus.offset_commit, Place.credit]
  | stop same => exact alike same rfl

end Site
end Shipyard

import Shipyard.Bus

/-!
# What the bus accepts

One statement for each operation of the bus: what is known when it did not fail.
-/

namespace Shipyard

namespace Bus

@[simp] theorem partitions_append (b : Bus) (t : Topic) (p : Nat) (r : Record) :
    (b.append t p r).partitions = b.partitions := rfl

theorem publish_ok {b b' : Bus} {t : Topic} {key : String} {payload : Bytes} {p : Position}
    (h : b.publish t key payload = .ok (p, b')) :
    p = ⟨partitionOf key b.partitions, (b.log t (partitionOf key b.partitions)).length⟩ ∧
      b' = b.append t (partitionOf key b.partitions) ⟨key, payload⟩ := by
  unfold publish at h
  split at h
  · cases h
  · cases h
    exact ⟨rfl, rfl⟩

theorem commit_ok {b b' : Bus} {g : String} {t : Topic} {p n : Nat}
    (h : b.commit g t p n = .ok b') :
    b.offset g t p ≤ n ∧ b' = { b with offsets := b.offsets.put (g, t, p) n } := by
  rw [commit] at h
  cases hk : b.known t p with
  | error e => simp [hk, bind, Except.bind] at h
  | ok x =>
    simp only [hk, bind, Except.bind] at h
    split at h
    · cases h
    · exact ⟨by omega, (Except.ok.inj h).symm⟩

theorem fetch_ok {b : Bus} {t : Topic} {p i : Nat} {m : Message}
    (h : b.fetch t p i = .ok (some m)) :
    ∃ r, (b.log t p)[i]? = some r ∧ m = delivered t p i r := by
  rw [fetch] at h
  cases hk : b.known t p with
  | error e => simp [hk, bind, Except.bind] at h
  | ok x =>
    simp only [hk, bind, Except.bind, Except.ok.injEq, Option.map_eq_some_iff] at h
    obtain ⟨r, there, rfl⟩ := h
    exact ⟨r, there, rfl⟩

theorem committed_ok {b : Bus} {g : String} {t : Topic} {p n : Nat}
    (h : b.committed g t p = .ok n) : n = b.offset g t p := by
  rw [committed] at h
  cases hk : b.known t p with
  | error e => simp [hk, bind, Except.bind] at h
  | ok x =>
    simp only [hk, bind, Except.bind, Except.ok.injEq] at h
    exact h.symm

theorem offset_commit (b : Bus) (g g' : String) (t t' : Topic) (p p' n : Nat) :
    offset { b with offsets := b.offsets.put (g, t, p) n } g' t' p' =
      if g = g' ∧ t = t' ∧ p = p' then n else b.offset g' t' p' := by
  by_cases h : g = g' ∧ t = t' ∧ p = p'
  · obtain ⟨rfl, rfl, rfl⟩ := h
    simp [offset]
  · rw [if_neg h]
    simp [offset, Table.find?_put, h]

end Bus

end Shipyard

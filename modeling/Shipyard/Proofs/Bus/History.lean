import Mathlib.Algebra.GroupWithZero.Nat
import Mathlib.Data.List.Induction
import Shipyard.Proofs.Log

/-!
# The bus as a list of what was published

All that a bus can be asked about follows from the replies it gave before: what a partition holds
are the publishes that were answered with a position in it, in their order, and where a group is
in it is the last commit that was accepted for just that group, topic and partition.
-/

namespace Shipyard

namespace Bus

/-- What can be asked of a bus that may change it. -/
inductive Operation
  | publish (topic : Topic) (key : String) (payload : Bytes)
  | commit (group : String) (topic : Topic) (partition next : Nat)
  | setDown (down : Bool)
deriving DecidableEq, Repr

inductive Reply
  | placed (position : Position)
  | done
  | refused (error : Error)
deriving DecidableEq, Repr

/-- An operation that the bus refuses leaves it with the caller as it was. -/
def perform (b : Bus) : Operation → Reply × Bus
  | .publish t key payload =>
    match b.publish t key payload with
    | .ok (position, b') => (.placed position, b')
    | .error e => (.refused e, b)
  | .commit g t p next =>
    match b.commit g t p next with
    | .ok b' => (.done, b')
    | .error e => (.refused e, b)
  | .setDown down => (.done, b.setDown down)

theorem perform_publish (b : Bus) (t : Topic) (key : String) (payload : Bytes) :
    b.perform (.publish t key payload) =
      if b.down = true then (.refused (.unavailable "broker is not reachable"), b)
      else
        (.placed ⟨partitionOf key b.partitions, (b.log t (partitionOf key b.partitions)).length⟩,
          b.append t (partitionOf key b.partitions) ⟨key, payload⟩) := by
  rw [perform, publish]
  by_cases h : b.down = true
  · simp only [h, if_true]
  · simp only [h, Bool.false_eq_true, if_false]

theorem perform_commit (b : Bus) (g : String) (t : Topic) (p next : Nat) :
    b.perform (.commit g t p next) =
      if p < b.partitions then
        if next < b.offset g t p then
          (.refused (.regression g t p next (b.offset g t p)), b)
        else (.done, { b with offsets := b.offsets.put (g, t, p) next })
      else (.refused (.unknownPartition t p), b) := by
  rw [perform, commit, known]
  by_cases hp : p < b.partitions
  · by_cases hn : next < b.offset g t p
    · simp only [hp, hn, if_true, bind, Except.bind]
    · simp only [hp, hn, if_true, if_false, bind, Except.bind]
  · simp only [hp, if_false, bind, Except.bind]

theorem perform_setDown (b : Bus) (down : Bool) :
    b.perform (.setDown down) = (.done, b.setDown down) := rfl

/-- A refused operation changes nothing. -/
theorem perform_refused {b : Bus} {o : Operation} {e : Error} (h : (b.perform o).1 = .refused e) :
    (b.perform o).2 = b := by
  cases o with
  | publish t key payload =>
    rw [perform_publish] at h ⊢
    split at h
    · next off => rw [if_pos off]
    · cases h
  | commit g t p next =>
    rw [perform_commit] at h ⊢
    split at h
    · next there =>
      split at h
      · next behind => rw [if_pos there, if_pos behind]
      · cases h
    · next away => rw [if_neg away]
  | setDown down => cases h

/-- Groups only move on. -/
theorem offset_le_perform (b : Bus) (o : Operation) (g : String) (t : Topic) (p : Nat) :
    b.offset g t p ≤ (b.perform o).2.offset g t p := by
  cases o with
  | publish t' key payload =>
    rw [perform_publish]
    split
    · exact Nat.le_refl _
    · exact Nat.le_of_eq (offset_append ..).symm
  | commit g' t' p' next =>
    rw [perform_commit]
    split
    · split
      · exact Nat.le_refl _
      · next ahead =>
        rw [offset_commit]
        split
        · next same =>
          obtain ⟨rfl, rfl, rfl⟩ := same
          omega
        · exact Nat.le_refl _
    · exact Nat.le_refl _
  | setDown down => exact Nat.le_refl _

structure Exchange where
  operation : Operation
  reply : Reply
deriving DecidableEq, Repr

/-! ## What the replies tell -/

/-- The record that an exchange brought to a partition. -/
def Exchange.record? (count : Nat) (t : Topic) (p : Nat) : Exchange → Option Record
  | ⟨.publish t' key payload, .placed _⟩ =>
    if t' = t ∧ partitionOf key count = p then some ⟨key, payload⟩ else none
  | _ => none

/-- The offset that an exchange set for a group. -/
def Exchange.offset? (g : String) (t : Topic) (p : Nat) : Exchange → Option Nat
  | ⟨.commit g' t' p' next, .done⟩ => if g' = g ∧ t' = t ∧ p' = p then some next else none
  | _ => none

def Exchange.switch? : Exchange → Option Bool
  | ⟨.setDown down, .done⟩ => some down
  | _ => none

/-- The records that were published in a partition, in their order. -/
def published (count : Nat) (past : List Exchange) (t : Topic) (p : Nat) : List Record :=
  past.filterMap (Exchange.record? count t p)

/-- The last offset that was accepted for a group, or else where every group begins. -/
def accepted (past : List Exchange) (g : String) (t : Topic) (p : Nat) : Nat :=
  ((past.filterMap (Exchange.offset? g t p)).getLast?).getD 0

/-- Whether the bus was last told to be down. -/
def switchedOff (past : List Exchange) : Bool :=
  ((past.filterMap Exchange.switch?).getLast?).getD false

section Told

variable (past : List Exchange) (x : Exchange) (g : String) (t : Topic) (p count : Nat)

theorem published_append :
    published count (past ++ [x]) t p =
      published count past t p ++ (x.record? count t p).toList := by
  rw [published, List.filterMap_append]
  cases h : x.record? count t p with
  | none => simp [published, h]
  | some r => simp [published, h]

theorem accepted_append :
    accepted (past ++ [x]) g t p = (x.offset? g t p).getD (accepted past g t p) := by
  rw [accepted, List.filterMap_append]
  cases h : x.offset? g t p with
  | none => simp [accepted, h]
  | some next => simp [h]

theorem switchedOff_append :
    switchedOff (past ++ [x]) = x.switch?.getD (switchedOff past) := by
  rw [switchedOff, List.filterMap_append]
  cases h : x.switch? with
  | none => simp [switchedOff, h]
  | some down => simp [h]

end Told

/-! ## Accounts -/

/-- A bus together with all that was asked of it. -/
structure Account where
  past : List Exchange
  bus : Bus

namespace Account

def begun (n : Nat) : Account := ⟨[], .empty n⟩

def take (a : Account) (o : Operation) : Account :=
  ⟨a.past ++ [⟨o, (a.bus.perform o).1⟩], (a.bus.perform o).2⟩

/-- The account of a new bus after some operations. -/
def after (n : Nat) (os : List Operation) : Account := os.foldl take (begun n)

theorem after_concat (n : Nat) (os : List Operation) (o : Operation) :
    after n (os ++ [o]) = (after n os).take o := by
  simp only [after, List.foldl_append, List.foldl_cons, List.foldl_nil]

/-- What was asked before stays in the account. -/
theorem past_grows (n : Nat) (os more : List Operation) :
    (after n os).past <+: (after n (os ++ more)).past := by
  induction more using List.reverseRecOn with
  | nil => simp
  | append_singleton more o ih =>
    rw [← List.append_assoc, after_concat]
    exact ih.trans (List.prefix_append _ _)

theorem offset_le (n : Nat) (os more : List Operation) (g : String) (t : Topic) (p : Nat) :
    (after n os).bus.offset g t p ≤ (after n (os ++ more)).bus.offset g t p := by
  induction more using List.reverseRecOn with
  | nil => simp
  | append_singleton more o ih =>
    rw [← List.append_assoc, after_concat]
    exact Nat.le_trans ih (offset_le_perform _ o g t p)

/-- The state of a bus is what the replies tell of it. -/
structure Agrees (a : Account) (count : Nat) : Prop where
  partitions : a.bus.partitions = count
  log : ∀ t p, a.bus.log t p = published count a.past t p
  offset : ∀ g t p, a.bus.offset g t p = accepted a.past g t p
  down : a.bus.down = switchedOff a.past

theorem agrees_begun (n : Nat) : (begun n).Agrees (max 1 n) where
  partitions := rfl
  log _ _ := rfl
  offset _ _ _ := rfl
  down := rfl

namespace Agrees

variable {a : Account} {count : Nat}

/-- A refusal tells nothing of the state, and leaves it as it is. -/
theorem refused (h : a.Agrees count) {o : Operation} {e : Error}
    (no : (a.bus.perform o).1 = .refused e) : (a.take o).Agrees count := by
  have same := perform_refused no
  constructor
  · simpa only [take, same] using h.partitions
  · intro t p
    cases o <;> simp [take, same, no, published_append, Exchange.record?, h.log]
  · intro g t p
    cases o <;> simp [take, same, no, accepted_append, Exchange.offset?, h.offset]
  · cases o <;> simp [take, same, no, switchedOff_append, Exchange.switch?, h.down]

theorem publish (h : a.Agrees count) (t : Topic) (key : String) (payload : Bytes) :
    (a.take (.publish t key payload)).Agrees count := by
  have reply := perform_publish a.bus t key payload
  by_cases off : a.bus.down = true
  · rw [if_pos off] at reply
    exact h.refused (congrArg Prod.fst reply)
  · rw [if_neg off, h.partitions] at reply
    constructor
    · simpa only [take, reply, append] using h.partitions
    · intro t' p
      simp only [take, reply, log_append, published_append, Exchange.record?, h.log]
      by_cases here : t = t' ∧ partitionOf key count = p
      · simp only [here, and_self, if_true, Option.toList_some]
      · simp only [here, if_false, Option.toList_none, List.append_nil]
    · intro g t' p
      simp only [take, reply, offset_append, accepted_append, Exchange.offset?, Option.getD_none,
        h.offset]
    · simp only [take, reply, append, switchedOff_append, Exchange.switch?, Option.getD_none,
        h.down]

theorem commit (h : a.Agrees count) (g : String) (t : Topic) (p next : Nat) :
    (a.take (.commit g t p next)).Agrees count := by
  have reply := perform_commit a.bus g t p next
  by_cases there : p < a.bus.partitions
  · rw [if_pos there] at reply
    by_cases behind : next < a.bus.offset g t p
    · rw [if_pos behind] at reply
      exact h.refused (congrArg Prod.fst reply)
    · rw [if_neg behind] at reply
      constructor
      · simpa only [take, reply] using h.partitions
      · intro t' p'
        have kept := h.log t' p'
        simpa [take, reply, published_append, Exchange.record?, Bus.log] using kept
      · intro g' t' p'
        simp only [take, reply, offset_commit, accepted_append, Exchange.offset?]
        by_cases same : g = g' ∧ t = t' ∧ p = p'
        · simp only [same, and_self, if_true, Option.getD_some]
        · simp only [same, if_false, Option.getD_none, h.offset]
      · simp only [take, reply, switchedOff_append, Exchange.switch?, Option.getD_none, h.down]
  · rw [if_neg there] at reply
    exact h.refused (congrArg Prod.fst reply)

theorem setDown (h : a.Agrees count) (down : Bool) : (a.take (.setDown down)).Agrees count := by
  constructor
  · exact h.partitions
  · intro t p
    have kept := h.log t p
    simpa [take, perform_setDown, published_append, Exchange.record?, Bus.setDown, Bus.log]
      using kept
  · intro g t p
    have kept := h.offset g t p
    simpa [take, perform_setDown, accepted_append, Exchange.offset?, Bus.setDown, Bus.offset]
      using kept
  · simp [take, perform_setDown, switchedOff_append, Exchange.switch?, Bus.setDown]

end Agrees

/-- Every account agrees with its bus: the induction is on the last operation. -/
theorem agrees (n : Nat) (os : List Operation) : (after n os).Agrees (max 1 n) := by
  induction os using List.reverseRecOn with
  | nil => exact agrees_begun n
  | append_singleton os o ih =>
    rw [after_concat]
    cases o with
    | publish t key payload => exact ih.publish t key payload
    | commit g t p next => exact ih.commit g t p next
    | setDown down => exact ih.setDown down

/-! ## What can be observed -/

/-- All that can be read from a bus, and all that it will answer, as its past tells it. -/
structure Mirrors (a : Account) (count : Nat) : Prop where
  publish : ∀ t key payload,
    partitionOf key count < count ∧
      (a.bus.perform (.publish t key payload)).1 =
        if switchedOff a.past then .refused (.unavailable "broker is not reachable")
        else .placed ⟨partitionOf key count,
          (published count a.past t (partitionOf key count)).length⟩
  fetch : ∀ t p o, a.bus.fetch t p o =
    if p < count then .ok ((published count a.past t p)[o]?.map (delivered t p o))
    else .error (.unknownPartition t p)
  committed : ∀ g t p, a.bus.committed g t p =
    if p < count then .ok (accepted a.past g t p) else .error (.unknownPartition t p)
  commit : ∀ g t p next, (a.bus.perform (.commit g t p next)).1 =
    if p < count then
      if next < accepted a.past g t p then
        .refused (.regression g t p next (accepted a.past g t p))
      else .done
    else .refused (.unknownPartition t p)
  refused : ∀ o e, (a.bus.perform o).1 = .refused e → (a.bus.perform o).2 = a.bus
  lag : ∀ g t, a.bus.lag g t = ((List.range count).map fun p =>
    (published count a.past t p).length - accepted a.past g t p).sum
  messages : ∀ t, a.bus.messages t = (List.range count).flatMap fun p =>
    (published count a.past t p).mapIdx fun i r => delivered t p i r
  count : ∀ t, a.bus.count t = (a.bus.messages t).length

theorem Agrees.mirrors {a : Account} {count : Nat} (h : a.Agrees count) : a.Mirrors count := by
  obtain rfl := h.partitions
  constructor
  · intro t key payload
    constructor
    · exact partitionOf_lt key _ a.bus.positive
    · rw [perform_publish, h.log, h.down]
      split <;> rfl
  · intro t p o
    rw [Bus.fetch, known, h.log]
    split <;> rfl
  · intro g t p
    rw [Bus.committed, known, h.offset]
    split <;> rfl
  · intro g t p next
    rw [perform_commit, h.offset]
    by_cases there : p < a.bus.partitions
    · rw [if_pos there, if_pos there]
      split <;> rfl
    · rw [if_neg there, if_neg there]
  · intro o e no
    exact perform_refused no
  · intro g t
    simp only [Bus.lag, h.log, h.offset, List.sum_eq_foldr]
  · intro t
    simp only [Bus.messages, h.log]
  · intro t
    simp [Bus.count, Bus.messages, List.length_flatMap, List.sum_eq_foldr]

end Account
end Bus
end Shipyard

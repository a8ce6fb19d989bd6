import Mathlib.Data.List.Chain
import Mathlib.Data.List.Induction
import Shipyard.Proofs.Delivery.AtLeastOnce
import Shipyard.Proofs.Delivery.Concerns

/-!
# The offsets that a consumer hands over

A consumer that is the only one of its group polls all partitions of its topic, round after round.
A round may be given up at any point for the next one; then nothing more comes of it. While a poll
has not moved the offset of its partition, the offset is where the poll has read it, so what it
hands over is what was handed over last or the record after that.
-/

namespace Shipyard

/-- Offsets that begin at 0, never go back and leave nothing out. -/
def Gapless (xs : List Nat) : Prop :=
  (∀ i, xs.head? = some i → i = 0) ∧ xs.IsChain fun i j => j = i ∨ j = i + 1

/-- What may come after a list of offsets. -/
def Follows (xs : List Nat) (i : Nat) : Prop :=
  (xs = [] ∧ i = 0) ∨ ∃ j, xs.getLast? = some j ∧ (i = j ∨ i = j + 1)

namespace Gapless

variable {xs : List Nat} {i : Nat}

theorem nil : Gapless [] := ⟨by simp, .nil⟩

theorem snoc_iff : Gapless (xs ++ [i]) ↔ Gapless xs ∧ Follows xs i := by
  rcases List.eq_nil_or_concat xs with rfl | ⟨ys, j, rfl⟩
  · simp [Gapless, Follows]
  · constructor
    · rintro ⟨first, chain⟩
      obtain ⟨earlier, -, link⟩ := List.isChain_append.mp chain
      refine ⟨⟨fun k head => first k ?_, earlier⟩, .inr ⟨j, by simp, link j (by simp) i (by simp)⟩⟩
      rw [List.head?_append, head, Option.some_or]
    · rintro ⟨⟨first, chain⟩, follows⟩
      have link : i = j ∨ i = j + 1 := by simpa [Follows] using follows
      constructor
      · intro k head
        refine first k ?_
        simpa using head
      · refine List.isChain_append.mpr ⟨chain, .singleton i, ?_⟩
        simpa using link

/-- What was handed over begins at 0 and ends at the last offset, and nothing is left out. -/
theorem mem_iff (h : Gapless xs) {j : Nat} : j ∈ xs ↔ ∃ k, xs.getLast? = some k ∧ j ≤ k := by
  induction xs using List.reverseRecOn with
  | nil => simp
  | append_singleton xs i ih =>
    obtain ⟨earlier, follows⟩ := snoc_iff.mp h
    rw [List.mem_append, List.mem_singleton, ih earlier, List.getLast?_concat]
    rcases follows with ⟨rfl, rfl⟩ | ⟨k, last, next⟩
    · simp
    · rw [last]
      simp only [Option.some.injEq, exists_eq_left']
      omega

end Gapless

/-! ## What was handed over -/

namespace Encounter

/-- The record of a topic that an encounter hands to a group, if it does. -/
def hands (g : String) (t : Topic) : Encounter → List Bus.Message
  | .reply (.deliver g' m) _ => if g' = g ∧ m.topic = t then [m] else []
  | _ => []

/-- No request about what the group of a consumer does in its topic. -/
def IsAbroad (c : Consumer) (e : Encounter) : Prop := ∀ r x, e = .reply r x → ¬ c.Concerns r

end Encounter

namespace World

/-- The records of a topic that were handed to a group, in the order of time. -/
def handed (w : World) (g : String) (t : Topic) : List Bus.Message :=
  (w.journal.filter fun d => d.group = g ∧ d.message.topic = t).map Delivery.message

/-- The offsets of those of one partition. -/
def handedOffsets (w : World) (g : String) (t : Topic) (p : Nat) : List Nat :=
  ((w.handed g t).filter fun m => m.partition = p).map Bus.Message.offset

namespace Meets

variable {w w' : World} {e : Encounter} {c : Consumer}

theorem handed (h : w.Meets e w') (g : String) (t : Topic) :
    w'.handed g t = w.handed g t ++ e.hands g t := by
  cases h.alters with
  | idle drill idle =>
    have none : e.hands g t = [] := by
      unfold Encounter.hands
      split
      · cases idle
      · rfl
    rw [none]
    exact (List.append_nil _).symm
  | deliver g' m history =>
    by_cases about : g' = g ∧ m.topic = t <;>
      simp [World.handed, World.deliver, Encounter.hands, about]
  | _ => exact (List.append_nil _).symm

/-- What is none of a consumer's business leaves its offsets and its deliveries as they are. -/
theorem abroad (h : w.Meets e w') (abroad : e.IsAbroad c) :
    (∀ p, w'.bus.offset c.group c.topic p = w.bus.offset c.group c.topic p) ∧
      w'.handed c.group c.topic = w.handed c.group c.topic := by
  constructor
  · intro p
    rcases h.offset c.group c.topic p with same | ⟨n, x, rfl, -⟩
    · exact same
    · exact absurd (.commit p n) (abroad _ x rfl)
  · have none : e.hands c.group c.topic = [] := by
      unfold Encounter.hands
      split
      · next g m x =>
        refine if_neg fun about => abroad _ x rfl ?_
        obtain ⟨rfl, about⟩ := about
        exact .deliver m about
      · rfl
    rw [h.handed, none, List.append_nil]

end Meets
end World

/-! ## One consumer of a group -/

namespace Yard

/-- Reached with one consumer of its group in its topic, by rounds of polls and by anything else
that leaves its offsets and deliveries alone. A poll that belongs to an earlier round than another
poll of its partition was given up. -/
inductive Solo (c : Consumer) : Yard → Prop
  | empty (partitions : Nat) (measured : Bool) (today : Instant) :
      Solo c (.empty partitions measured today)
  | flip {y : Yard} (before : Solo c y) (f : World.Flip) :
      Solo c { y with world := y.world.flip f }
  | begin {y : Yard} (before : Solo c y) (call : Call)
      (other : call.job.Asks fun r => ¬ c.Concerns r) :
      Solo c { y with threads := y.threads ++ [.start call] }
  | round {y : Yard} (before : Solo c y) (signal : Option Signal) :
      Solo c { y with threads := y.threads ++
        (List.range y.world.bus.partitions).map fun p => .start (.poll c signal p) }
  | move {w w' : World} {ts us : List Thread} {t : Thread} {e : Encounter}
      {k : Job t.call.Result} (before : Solo c ⟨w, ts ++ t :: us⟩) (world : w.Meets e w')
      (job : t.job.Meets e k)
      (current : ∀ signal p, t.call = .poll c signal p → ∀ u ∈ us, ∀ s, u.call ≠ .poll c s p) :
      Solo c ⟨w', ts ++ t.push e k :: us⟩

variable {c : Consumer} {y : Yard}

theorem Reachable.begin_all {may : World → Call → Prop} (h : Reachable may y) {calls : List Call}
    (allowed : ∀ call ∈ calls, may y.world call) :
    Reachable may { y with threads := y.threads ++ calls.map .start } := by
  induction calls using List.reverseRecOn with
  | nil => simpa using h
  | append_singleton calls call ih =>
    have earlier := ih fun call mem => allowed call (List.mem_append_left _ mem)
    have last := earlier.step (.begin _ call (allowed call (by simp)))
    simpa using last

namespace Solo

theorem kept (discreet : c.IsDiscreet) (h : Solo c y) :
    Reachable (OffsetsKept c.group c.topic) y := by
  induction h with
  | empty n b d => exact .empty n b d
  | flip _ f ih => exact ih.step (.flip _ f)
  | begin _ call other ih =>
    refine ih.step (.begin _ call (.other call (other.mono fun r abroad q n same => ?_)))
    exact abroad (same ▸ .commit q n)
  | @round y _ signal ih =>
    have polls : ∀ call ∈ (List.range y.world.bus.partitions).map fun p => Call.poll c signal p,
        OffsetsKept c.group c.topic y.world call := by
      intro call mem
      obtain ⟨p, -, rfl⟩ := List.mem_map.mp mem
      refine .poll c signal p fun history m s => (discreet history m s).mono ?_
      intro r abroad q n same
      exact abroad (same ▸ .commit q n)
    simpa [Function.comp_def] using ih.begin_all polls
  | move _ world job _ ih => exact ih.step (.move world job)

/-- Every call is a poll of the consumer, or none of its business. -/
theorem poll_or_abroad (h : Solo c y) : ∀ t ∈ y.threads,
    (∃ signal p, t.call = .poll c signal p) ∨ t.call.job.Asks fun r => ¬ c.Concerns r := by
  induction h with
  | empty => intro t mem; cases mem
  | flip _ _ ih => exact ih
  | begin _ call other ih =>
    intro t mem
    rcases List.mem_append.mp mem with mem | mem
    · exact ih t mem
    · obtain rfl := List.mem_singleton.mp mem
      exact .inr other
  | round _ signal ih =>
    intro t mem
    rcases List.mem_append.mp mem with mem | mem
    · exact ih t mem
    · obtain ⟨p, -, rfl⟩ := List.mem_map.mp mem
      exact .inl ⟨signal, p, rfl⟩
  | @move _ _ ts us u e k _ _ _ _ ih =>
    intro t mem
    rcases List.mem_append.mp mem with mem | mem
    · exact ih t (List.mem_append_left _ mem)
    · rcases List.mem_cons.mp mem with rfl | mem
      · exact ih u (by simp)
      · exact ih t (List.mem_append_right _ (List.mem_cons_of_mem _ mem))

end Solo

/-- Among some calls there is no poll of a partition by the consumer. -/
def NoPoll (c : Consumer) (p : Nat) (us : List Thread) : Prop :=
  ∀ u ∈ us, ∀ s, u.call ≠ .poll c s p

/-- What a poll that has not moved its offset knows of it, and of what was handed over last. -/
structure Knows (c : Consumer) (w : World) (p : Nat) (tr : Trace) : Prop where
  offset : ∀ i, .reply (.committed c.group c.topic p) (.ok i) ∈ tr →
    w.bus.offset c.group c.topic p = i
  last : ∀ m x, .reply (.deliver c.group m) x ∈ tr → m.topic = c.topic →
    (w.handedOffsets c.group c.topic p).getLast? = some m.offset

/-- Of the polls of a partition the last one, as long as it has moved no offset, knows it. -/
def Current (c : Consumer) (y : Yard) (p : Nat) : Prop :=
  ∀ ts t us signal, y.threads = ts ++ t :: us → t.call = .poll c signal p → NoPoll c p us →
    (∀ r x, .reply r x ∈ t.trace → ¬ c.Commits r) → Knows c y.world p t.trace

/-- A partition whose records are handed over in order. -/
structure Ordered (c : Consumer) (y : Yard) (p : Nat) : Prop where
  gapless : Gapless (y.world.handedOffsets c.group c.topic p)
  follows : Follows (y.world.handedOffsets c.group c.topic p)
    (y.world.bus.offset c.group c.topic p)
  current : Current c y p

section Moving

variable {w w' : World} {ts us : List Thread} {t : Thread} {e : Encounter}
  {k : Job t.call.Result} {p : Nat}

theorem Knows.congr {tr : Trace} (h : Knows c w p tr)
    (offset : w'.bus.offset c.group c.topic p = w.bus.offset c.group c.topic p)
    (handed : w'.handedOffsets c.group c.topic p = w.handedOffsets c.group c.topic p) :
    Knows c w' p tr where
  offset i read := offset.trans (h.offset i read)
  last m x delivered about := handed ▸ h.last m x delivered about

theorem split_cases {α : Type} {as bs as' bs' : List α} {a b : α}
    (h : as ++ a :: bs = as' ++ b :: bs') :
    (as = as' ∧ a = b ∧ bs = bs') ∨ (∃ mid, as' = as ++ a :: mid ∧ bs = mid ++ b :: bs') ∨
      ∃ mid, as = as' ++ b :: mid ∧ bs' = mid ++ a :: bs := by
  rcases List.append_eq_append_iff.mp h with ⟨mid, rfl, rest⟩ | ⟨mid, rfl, rest⟩
  · cases mid with
    | nil =>
      cases rest
      exact .inl ⟨by simp, rfl, rfl⟩
    | cons x mid =>
      cases rest
      exact .inr (.inl ⟨mid, rfl, rfl⟩)
  · cases mid with
    | nil =>
      cases rest
      exact .inl ⟨by simp, rfl, rfl⟩
    | cons x mid =>
      cases rest
      exact .inr (.inr ⟨mid, rfl, rfl⟩)

/-- After a call has moved, the last poll of a partition is that call, or it stands where it stood
before. -/
theorem last_cases {ts' us' : List Thread} {u : Thread} {signal : Option Signal}
    (h : ts ++ t.push e k :: us = ts' ++ u :: us') (poll : u.call = .poll c signal p)
    (last : NoPoll c p us') :
    (u = t.push e k ∧ us' = us) ∨
      ((∀ s, t.call = .poll c s p → ¬ NoPoll c p us) ∧
        ∃ ts₀ us₀, ts ++ t :: us = ts₀ ++ u :: us₀ ∧ NoPoll c p us₀) := by
  rcases split_cases h with ⟨-, rfl, rfl⟩ | ⟨mid, rfl, rfl⟩ | ⟨mid, rfl, rfl⟩
  · exact .inl ⟨rfl, rfl⟩
  · refine .inr ⟨fun s _ none => none u (by simp) signal poll, ts ++ t :: mid, us', by simp, last⟩
  · refine .inr ⟨fun s moved => ?_, ts', mid ++ t :: us, by simp, ?_⟩
    · exact absurd moved (last (t.push e k) (by simp) s)
    · intro v mem s
      rcases List.mem_append.mp mem with mem | mem
      · exact last v (List.mem_append_left _ mem) s
      · rcases List.mem_cons.mp mem with rfl | mem
        · exact last (v.push e k) (by simp) s
        · exact last v (by simp [mem]) s

theorem handedOffsets_of_handed (same : w'.handed c.group c.topic = w.handed c.group c.topic)
    (p : Nat) : w'.handedOffsets c.group c.topic p = w.handedOffsets c.group c.topic p := by
  rw [World.handedOffsets, same, World.handedOffsets]

/-- The poll that has moved is the one that has to know the partition. -/
theorem Current.of_last {signal : Option Signal} (poll : t.call = .poll c signal p)
    (last : NoPoll c p us)
    (known : (∀ r x, .reply r x ∈ (t.push e k).trace → ¬ c.Commits r) →
      Knows c w' p (t.push e k).trace) : Current c ⟨w', ts ++ t.push e k :: us⟩ p := by
  intro ts' u us' signal' split poll' last' fresh
  rcases last_cases split poll' last' with ⟨rfl, rfl⟩ | ⟨other, -⟩
  · exact known fresh
  · exact absurd last (other signal poll)

/-- A partition stays in order if it is left as it is, and if the call that has moved still knows
it in case that has to. -/
theorem Ordered.still (h : Ordered c ⟨w, ts ++ t :: us⟩ p)
    (offset : w'.bus.offset c.group c.topic p = w.bus.offset c.group c.topic p)
    (handed : w'.handedOffsets c.group c.topic p = w.handedOffsets c.group c.topic p)
    (known : ∀ signal, t.call = .poll c signal p → NoPoll c p us →
      (∀ r x, .reply r x ∈ (t.push e k).trace → ¬ c.Commits r) →
        Knows c w' p (t.push e k).trace) : Ordered c ⟨w', ts ++ t.push e k :: us⟩ p := by
  obtain ⟨gapless, follows, current⟩ := h
  constructor
  · exact handed ▸ gapless
  · dsimp only at follows ⊢
    rw [offset, handed]
    exact follows
  · intro ts' u us' signal split poll last fresh
    rcases last_cases split poll last with ⟨rfl, rfl⟩ | ⟨-, ts₀, us₀, split₀, last₀⟩
    · exact known signal poll last fresh
    · exact (current ts₀ u us₀ signal split₀ poll last₀ fresh).congr offset handed

/-- What is none of the consumer's business keeps all partitions in order. -/
theorem Ordered.abroad (h : Ordered c ⟨w, ts ++ t :: us⟩ p) (world : w.Meets e w')
    (abroad : e.IsAbroad c) : Ordered c ⟨w', ts ++ t.push e k :: us⟩ p := by
  obtain ⟨offset, handed⟩ := world.abroad abroad
  have offsets := handedOffsets_of_handed handed p
  refine h.still (offset p) offsets fun signal poll last fresh => ?_
  have known : Knows c w p t.trace := h.current ts t us signal rfl poll last fun r x mem =>
    fresh r x (List.mem_append_left _ mem)
  have known' := known.congr (offset p) offsets
  constructor
  · intro i read
    rcases List.mem_append.mp read with read | now
    · exact known'.offset i read
    · obtain rfl := List.mem_singleton.mp now
      have told := world.reply (by simp)
      rw [offset p]
      exact (Bus.committed_ok told.symm).symm
  · intro m x delivered about
    rcases List.mem_append.mp delivered with delivered | now
    · exact known'.last m x delivered about
    · obtain rfl := List.mem_singleton.mp now
      exact absurd (.deliver m about) (abroad _ x rfl)

section Polling

variable {q i : Nat} {signal : Option Signal} {m : Bus.Message}
  (poll : t.call = .poll c signal q) (last : NoPoll c q us)
  (fresh : ∀ r x, .reply r x ∈ t.trace → ¬ c.Commits r)

include poll last fresh

/-- A poll that moves the offset of its partition has handed over the record before. -/
theorem Ordered.commit (h : Ordered c ⟨w, ts ++ t :: us⟩ p) {x : Except Bus.Error Unit}
    (world : w.Meets (.reply (.commit c.group c.topic q (i + 1)) x) w')
    (delivered : ∃ m x, .reply (.deliver c.group m) x ∈ t.trace ∧ m.topic = c.topic ∧
      m.offset = i) :
    Ordered c ⟨w', ts ++ t.push (.reply (.commit c.group c.topic q (i + 1)) x) k :: us⟩ p := by
  have handed : w'.handed c.group c.topic = w.handed c.group c.topic := by
    rw [world.handed]
    exact List.append_nil _
  have offsets := handedOffsets_of_handed handed p
  have commits : ¬ ∀ r y, .reply r y ∈
      (t.push (.reply (.commit c.group c.topic q (i + 1)) x) k).trace → ¬ c.Commits r :=
    fun fresh' => fresh' _ x (by simp [Thread.push]) ⟨q, i + 1, rfl⟩
  rcases world.offset c.group c.topic p with same | ⟨n, y, moved, next⟩
  · exact h.still same offsets fun _ _ _ fresh' => absurd fresh' commits
  · cases moved
    obtain ⟨m, x, delivered, about, rfl⟩ := delivered
    have known := h.current ts t us signal rfl poll last fresh
    constructor
    · exact offsets ▸ h.gapless
    · dsimp only
      rw [offsets]
      exact .inr ⟨_, known.last m x delivered about, .inr next⟩
    · exact .of_last poll last fun fresh' => absurd fresh' commits

variable (read : .reply (.committed c.group c.topic q) (.ok i) ∈ t.trace)

include read

/-- A poll hands over the record at the offset. -/
theorem Ordered.deliver (h : Ordered c ⟨w, ts ++ t :: us⟩ p) {x : List Delivery}
    (about : m.topic = c.topic) (place : m.partition = q ∧ m.offset = i)
    (again : ∀ m' x, .reply (.deliver c.group m') x ∈ t.trace → m'.topic = c.topic →
      m'.offset = i)
    (world : w.Meets (.reply (.deliver c.group m) x) w') :
    Ordered c ⟨w', ts ++ t.push (.reply (.deliver c.group m) x) k :: us⟩ p := by
  obtain ⟨rfl, rfl⟩ := place
  have handed : w'.handed c.group c.topic = w.handed c.group c.topic ++ [m] := by
    rw [world.handed]
    simp [Encounter.hands, about]
  have same : w'.bus.offset c.group c.topic p = w.bus.offset c.group c.topic p := by
    rcases world.offset c.group c.topic p with same | ⟨n, y, other, -⟩
    · exact same
    · cases other
  by_cases here : p = m.partition
  · subst here
    have offsets : w'.handedOffsets c.group c.topic m.partition =
        w.handedOffsets c.group c.topic m.partition ++ [m.offset] := by
      simp [World.handedOffsets, handed]
    obtain ⟨gapless, follows, current⟩ := h
    have known := current ts t us signal rfl poll last fresh
    have at_offset : w.bus.offset c.group c.topic m.partition = m.offset :=
      known.offset m.offset read
    dsimp only at gapless follows
    rw [at_offset] at follows
    constructor
    · dsimp only
      rw [offsets]
      exact Gapless.snoc_iff.mpr ⟨gapless, follows⟩
    · dsimp only
      rw [offsets, same, at_offset]
      exact .inr ⟨m.offset, by simp, .inl rfl⟩
    · refine .of_last poll last fun _ => ⟨fun i' read' => ?_, fun m' x' delivered about' => ?_⟩
      · have before : .reply (.committed c.group c.topic m.partition) (.ok i') ∈ t.trace := by
          simpa [Thread.push] using read'
        exact same.trans (known.offset i' before)
      · rw [offsets, List.getLast?_concat]
        rcases List.mem_append.mp delivered with earlier | now
        · rw [again m' x' earlier about']
        · cases List.mem_singleton.mp now
          rfl
  · have offsets : w'.handedOffsets c.group c.topic p = w.handedOffsets c.group c.topic p := by
      simp [World.handedOffsets, handed, Ne.symm here]
    refine h.still same offsets fun signal' poll' _ _ => ?_
    have other := poll.symm.trans poll'
    injection other with _ _ partition
    exact absurd partition.symm here

end Polling

/-- The last poll of a partition keeps all partitions in order with what it asks for its consumer:
it hands over the record at the offset, or leaves that behind. -/
theorem Ordered.ask (discreet : c.IsDiscreet) {signal : Option Signal} {q : Nat} {tr : Trace}
    {r : Request} {x : r.Reply} {k : r.Reply → Job (Except Bus.Error Bool)}
    (h : Ordered c ⟨w, ts ++ ⟨.poll c signal q, tr, .ask r k⟩ :: us⟩ p)
    (path : (c.pollPartition signal q).After tr (.ask r k)) (known : ∀ e ∈ tr, e.Holds w)
    (last : NoPoll c q us) (concerns : c.Concerns r) (world : w.Meets (.reply r x) w') :
    Ordered c ⟨w', ts ++ ⟨.poll c signal q, tr ++ [.reply r x], k x⟩ :: us⟩ p := by
  obtain ⟨i, m, attends, own⟩ := Consumer.poll_asks_own discreet path concerns
  obtain ⟨record, there, rfl⟩ := known _ attends.fetched
  have fresh (r' : Request) (x : r'.Reply) (mem : .reply r' x ∈ tr) : ¬ c.Commits r' :=
    (Consumer.poll_closes discreet).open_of_asks path concerns mem
  cases own with
  | commit =>
    obtain ⟨i', m₀, number, history, attends', delivered⟩ := Consumer.poll_commit_late path
    obtain ⟨rfl, rfl⟩ := attends.unique attends'
    exact h.commit rfl last fresh world ⟨_, history, delivered, rfl, rfl⟩
  | deliver number =>
    refine h.deliver rfl last fresh attends.read rfl ⟨rfl, rfl⟩ (fun m' x mem about => ?_) world
    obtain ⟨i', m₀, attends', own'⟩ := Consumer.poll_asked_own discreet path mem (.deliver m' about)
    obtain ⟨rfl, rfl⟩ := attends.unique attends'
    cases own'
    rfl
  | _ => cases concerns

end Moving

theorem Current.append {p : Nat} (h : Current c y p) {us : List Thread}
    (idle : ∀ u ∈ us, u.trace = []) : Current c { y with threads := y.threads ++ us } p := by
  intro ts t vs signal split poll last fresh
  rcases List.append_eq_append_iff.mp split with ⟨mid, rfl, rest⟩ | ⟨mid, earlier, rest⟩
  · have begun : t.trace = [] := idle t (by rw [rest]; simp)
    rw [begun]
    exact ⟨(by rintro i ⟨⟩), (by rintro m x ⟨⟩)⟩
  · cases mid with
    | nil =>
      have mem : t ∈ [] ++ us := rest ▸ List.mem_cons_self ..
      have begun : t.trace = [] := idle t mem
      rw [begun]
      exact ⟨(by rintro i ⟨⟩), (by rintro m x ⟨⟩)⟩
    | cons u mid =>
      cases rest
      exact h ts t mid signal earlier poll (fun u mem => last u (List.mem_append_left _ mem)) fresh

theorem Solo.ordered (discreet : c.IsDiscreet) (h : Solo c y) : ∀ p, Ordered c y p := by
  induction h with
  | empty n b d =>
    intro p
    refine ⟨.nil, .inl ⟨rfl, rfl⟩, fun ts t us signal split => ?_⟩
    simp [Yard.empty] at split
  | flip _ f ih =>
    intro p
    obtain ⟨gapless, follows, current⟩ := ih p
    cases f <;> exact ⟨gapless, follows, fun ts t us signal split poll last fresh =>
      (current ts t us signal split poll last fresh).congr rfl rfl⟩
  | begin _ call other ih =>
    intro p
    obtain ⟨gapless, follows, current⟩ := ih p
    refine ⟨gapless, follows, current.append fun u mem => ?_⟩
    obtain rfl := List.mem_singleton.mp mem
    rfl
  | round _ signal ih =>
    intro p
    obtain ⟨gapless, follows, current⟩ := ih p
    refine ⟨gapless, follows, current.append fun u mem => ?_⟩
    obtain ⟨q, -, rfl⟩ := List.mem_map.mp mem
    rfl
  | @move w w' ts us t e k before world job current ih =>
    intro p
    by_cases abroad : e.IsAbroad c
    · exact (ih p).abroad world abroad
    simp only [Encounter.IsAbroad, not_forall, not_not] at abroad
    obtain ⟨r, x, rfl, concerns⟩ := abroad
    have reached := before.kept discreet
    have path := reached.coherent t (by simp)
    have known := reached.known t (by simp)
    rcases before.poll_or_abroad t (by simp) with ⟨signal, q, poll⟩ | other
    · have last : NoPoll c q us := current signal q poll
      obtain ⟨call, tr, j⟩ := t
      dsimp only at poll path known job
      subst poll
      cases job with
      | reply r k x => exact (ih p).ask discreet path known last concerns world
    · have asks := other.after path
      cases asked : t.job with
      | ask r' k' =>
        rw [asked] at asks job
        cases job
        exact absurd concerns asks.1
      | _ =>
        rw [asked] at job
        cases job

end Yard
end Shipyard

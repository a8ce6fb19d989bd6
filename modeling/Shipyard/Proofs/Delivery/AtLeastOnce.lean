import Shipyard.Proofs.Delivery.Poll
import Shipyard.Proofs.Effects
import Shipyard.Proofs.Schedule

/-!
# At-least-once delivery

Behind every offset that a group has moved, each record was accepted by a handler of the group or
put on the dead-letter topic by one of its consumers. Handlers are arbitrary but do not move
offsets; consumers of one group may work side by side on one partition, and any of them may be
left at any point.
-/

namespace Shipyard.Yard

/-- Offsets are moved by consumers only. -/
inductive OnlyConsumersCommit (w : World) : Call → Prop
  | poll (c : Consumer) (signal : Option Signal) (p : Nat)
      (handler : ∀ history m s, (c.handler history m s).Sober) :
      OnlyConsumersCommit w (.poll c signal p)
  | other (c : Call) (sober : c.job.Sober) : OnlyConsumersCommit w c

/-- The offsets of a group in a topic are moved by consumers only. -/
inductive OffsetsKept (g : String) (t : Topic) (w : World) : Call → Prop
  | poll (c : Consumer) (signal : Option Signal) (p : Nat)
      (handler : ∀ history m s, (c.handler history m s).Asks fun r => ∀ q n, r ≠ .commit g t q n) :
      OffsetsKept g t w (.poll c signal p)
  | other (c : Call) (sober : c.job.Asks fun r => ∀ q n, r ≠ .commit g t q n) :
      OffsetsKept g t w c

theorem OnlyConsumersCommit.kept {w : World} {c : Call} (h : OnlyConsumersCommit w c) (g : String)
    (t : Topic) : OffsetsKept g t w c := by
  have sober {α : Type} {j : Job α} (asks : j.Sober) :
      j.Asks fun r => ∀ q n, r ≠ .commit g t q n := by
    refine asks.mono fun r other q n same => ?_
    rw [same] at other
    cases other
  cases h with
  | poll c signal p handler => exact .poll c signal p fun history m s => sober (handler history m s)
  | other c asks => exact .other c (sober asks)

/-- A handler of the group accepted a delivery of the record at a place. -/
def Accepted (y : Yard) (g : String) (t : Topic) (p i : Nat) (r : Bus.Record) : Prop :=
  ∃ u ∈ y.threads, ∃ c signal, u.call = .poll c signal p ∧ c.group = g ∧ c.topic = t ∧
    c.Accepts signal (Bus.delivered t p i r) u.trace

/-- A consumer of the group put a copy of the record at a place on the dead-letter topic. -/
def Buried (y : Yard) (g : String) (t : Topic) (p i : Nat) (r : Bus.Record) : Prop :=
  ∃ u ∈ y.threads, ∃ c signal position, u.call = .poll c signal p ∧ c.group = g ∧ c.topic = t ∧
    c.Buries (c.pollPartition signal p) (Bus.delivered t p i r) u.trace position ∧
    (y.world.bus.log t.deadLetters position.partition)[position.offset]? = some r

variable {may : World → Call → Prop} {y y' : Yard} {g : String} {t : Topic} {p i : Nat}
  {r : Bus.Record}

theorem Accepted.persists (h : y.Accepted g t p i r) (step : Step may y y') :
    y'.Accepted g t p i r := by
  obtain ⟨u, mem, c, signal, call, rfl, rfl, accepts⟩ := h
  obtain ⟨u', mem', call', later, longer⟩ := step.persists mem
  refine ⟨u', mem', c, signal, call'.trans call, rfl, rfl, ?_⟩
  rw [← longer]
  exact accepts.widen [] later

theorem Buried.persists (h : y.Buried g t p i r) (step : Step may y y') :
    y'.Buried g t p i r := by
  obtain ⟨u, mem, c, signal, position, call, rfl, rfl, buries, there⟩ := h
  obtain ⟨u', mem', call', later, longer⟩ := step.persists mem
  refine ⟨u', mem', c, signal, position, call'.trans call, rfl, rfl, ?_,
    step.grows.record there⟩
  rw [← longer]
  exact buries.widen (.here _) later

/-- What lies behind the request by which an offset is moved. -/
theorem Reachable.behind_commit (h : Reachable (OffsetsKept g t) y) {u : Thread}
    (mem : u ∈ y.threads) {n : Nat} {k} (asks : u.job = .ask (.commit g t p n) k) :
    ∃ i r, n = i + 1 ∧ i ≤ y.world.bus.offset g t p ∧ (y.world.bus.log t p)[i]? = some r ∧
      (y.Accepted g t p i r ∨ y.Buried g t p i r) := by
  have path := h.coherent u mem
  have known := h.known u mem
  obtain ⟨y₀, -, -, allowed⟩ := h.begun u mem
  obtain ⟨call, trace, job⟩ := u
  dsimp only at path known allowed asks
  rw [asks] at path
  cases allowed with
  | other _ sober => exact absurd rfl ((sober.after path).1 p n)
  | poll c signal q handler =>
    obtain ⟨i, m, read, fetched, ⟨rfl, rfl, rfl, rfl⟩, settled⟩ :=
      Consumer.poll_commit (fun m history number => handler history _ signal) path
    have moved : i ≤ y.world.bus.offset c.group c.topic q := known _ read
    obtain ⟨r, there, rfl⟩ := known _ fetched
    refine ⟨i, r, rfl, moved, there, ?_⟩
    rcases settled with accepts | ⟨position, buries⟩
    · exact .inl ⟨_, mem, c, signal, rfl, rfl, rfl, accepts⟩
    · refine .inr ⟨_, mem, c, signal, position, rfl, rfl, rfl, buries, ?_⟩
      obtain ⟨before, after, rfl, -⟩ := buries
      have published := known (.reply (.publish c.topic.deadLetters r.key r.payload) (.ok position))
        (List.mem_append_right _ (List.mem_cons_self ..))
      exact published.2

/-- Every record before an offset was settled by the group whose offset it is. -/
theorem Reachable.settled (h : Reachable (OffsetsKept g t) y) :
    ∀ p i, i < y.world.bus.offset g t p → ∃ r, (y.world.bus.log t p)[i]? = some r ∧
      (y.Accepted g t p i r ∨ y.Buried g t p i r) := by
  induction h with
  | empty n b d =>
    intro p i below
    exact absurd below (Nat.not_lt_zero i)
  | @step y y' reached step ih =>
    intro p i below
    have lasts : ∀ r, (y.world.bus.log t p)[i]? = some r →
        (y.Accepted g t p i r ∨ y.Buried g t p i r) →
        ∃ r, (y'.world.bus.log t p)[i]? = some r ∧
          (y'.Accepted g t p i r ∨ y'.Buried g t p i r) := by
      intro r there settled
      exact ⟨r, step.grows.record there,
        settled.imp (fun accepted => accepted.persists step) fun buried => buried.persists step⟩
    by_cases earlier : i < y.world.bus.offset g t p
    · obtain ⟨r, there, settled⟩ := ih p i earlier
      exact lasts r there settled
    · -- The offset was moved in this step, by one.
      have moved : ∃ u ∈ y.threads, ∃ n k, u.job = .ask (.commit g t p n) k ∧ i < n := by
        cases step with
        | flip _ x => cases x <;> exact absurd below earlier
        | begin => exact absurd below earlier
        | @move w w' before after u e k world job =>
          rcases world.offset g t p with same | ⟨n, x, rfl, same⟩
          · exact absurd (same ▸ below) earlier
          · generalize asked : u.job = j at job
            cases job
            exact ⟨u, by simp, n, _, asked, same ▸ below⟩
      obtain ⟨u, mem, n, k, asked, inside⟩ := moved
      obtain ⟨last, r, rfl, le, there, settled⟩ := reached.behind_commit mem asked
      obtain rfl : i = last := by omega
      exact lasts r there settled

/-- An offset is within the log and never goes back, and every record before it was accepted by
its group or is a dead letter. -/
theorem at_least_once (h : Reachable OnlyConsumersCommit y) (g : String) (t : Topic) (p : Nat) :
    y.world.bus.offset g t p ≤ (y.world.bus.log t p).length ∧
      (∀ y', Run OnlyConsumersCommit y y' →
        y.world.bus.offset g t p ≤ y'.world.bus.offset g t p) ∧
      ∀ i < y.world.bus.offset g t p, ∃ r, (y.world.bus.log t p)[i]? = some r ∧
        (y.Accepted g t p i r ∨ y.Buried g t p i r) := by
  have settled := (h.mono fun _ _ allowed => allowed.kept g t).settled p
  refine ⟨?_, fun y' run => run.grows.offsets g t p, settled⟩
  by_contra beyond
  obtain ⟨r, there, -⟩ := settled (y.world.bus.log t p).length (by omega)
  simp at there

/-- Two members of a group: one accepts the first record, the other gives up the second. -/
def twoReaders : List Act :=
  let accepting : Consumer := ⟨"readers", .paid, fun _ _ _ => .done (.ok ()), .usual⟩
  let refusing : Consumer :=
    ⟨"readers", .paid, fun _ _ _ => .done (.error (.failed "refused")),
      { Consumer.Config.usual with maxAttempts := 1 }⟩
  [.begin (.publish .paid "a" [1]), .begin (.publish .paid "b" [2]), .move 0, .move 1,
    .begin (.poll accepting none 0), .begin (.poll refusing none 0),
    .move 2, .move 2, .move 2, .move 2, .move 3, .move 3, .move 3, .move 3, .move 3]

theorem at_least_once_two_readers :
    let y := (Yard.empty 1 false ⟨0, 0, 0⟩).play twoReaders
    y.world.bus.offset "readers" .paid 0 = 2 ∧ (y.world.bus.log .paid 0).length = 2 ∧
      ∀ i < 2, ∃ r, (y.world.bus.log .paid 0)[i]? = some r ∧
        (y.Accepted "readers" .paid 0 i r ∨ y.Buried "readers" .paid 0 i r) := by
  intro y
  have reached : Reachable OnlyConsumersCommit y := by
    refine Reachable.play (.empty 1 false ⟨0, 0, 0⟩) fun w c mem => ?_
    simp only [twoReaders, List.mem_cons, Act.begin.injEq, reduceCtorEq, List.not_mem_nil,
      false_or, or_false] at mem
    rcases mem with rfl | rfl | rfl | rfl
    · exact .other _ (And.intro rfl fun _ => trivial)
    · exact .other _ (And.intro rfl fun _ => trivial)
    · exact .poll _ none 0 fun _ _ _ => trivial
    · exact .poll _ none 0 fun _ _ _ => trivial
  have two : y.world.bus.offset "readers" .paid 0 = 2 := by decide +kernel
  obtain ⟨-, -, settled⟩ := at_least_once reached "readers" .paid 0
  exact ⟨two, by decide +kernel, fun i below => settled i (two ▸ below)⟩

end Shipyard.Yard

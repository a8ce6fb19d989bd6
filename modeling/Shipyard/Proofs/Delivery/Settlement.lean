import Shipyard.Proofs.Delivery.Chronicles
import Shipyard.Proofs.Delivery.Groups
import Shipyard.Proofs.Delivery.InOrder

/-!
# Drains settle everything

With the bus up, nobody else at work for the group and a handler that gives an answer to every
record, each round of a drain settles one record of every partition that still has any. So after
so many rounds a partition is that far behind its end, or at it, whatever the order of the steps;
and the deliveries and dead letters up to then are those that the polls have noted down
(`Chronicle.Settling`). A round that settles nothing has found all partitions at their ends.
-/

namespace Shipyard

/-- One of several parts of a list gets longer. -/
theorem flatMap_update_perm {α β : Type} [DecidableEq α] {xs : List α} (distinct : xs.Nodup) {a : α}
    (mem : a ∈ xs) (f : α → List β) (ys : List β) :
    (xs.flatMap (Function.update f a (f a ++ ys))).Perm (xs.flatMap f ++ ys) := by
  induction xs with
  | nil => cases mem
  | cons x xs ih =>
    obtain ⟨fresh, distinct⟩ := List.nodup_cons.mp distinct
    rw [List.flatMap_cons, List.flatMap_cons, List.append_assoc]
    by_cases here : x = a
    · subst here
      have rest : xs.flatMap (Function.update f x (f x ++ ys)) = xs.flatMap f := by
        refine List.flatMap_congr fun y there => Function.update_of_ne ?_ _ _
        rintro rfl
        exact fresh there
      rw [Function.update_self, rest, List.append_assoc]
      exact List.perm_append_comm.append_left _
    · rw [Function.update_of_ne here]
      exact (ih distinct ((List.mem_cons.mp mem).resolve_left (Ne.symm here))).append_left _

namespace Encounter

/-- Neither a publication that failed nor a wait that the signal cut short. -/
def IsSmooth (signal : Option Signal) : Encounter → Prop
  | .reply (.publish _ _ _) (.error _) => False
  | .woken _ signal' .raised => signal' ≠ signal
  | _ => True

end Encounter

namespace World

variable {c : Consumer} {signal : Option Signal} {w v w' : World} {e : Encounter}

theorem Meets.isSmooth (h : w.Meets e w') (up : w.bus.down = false) (quiet : w.IsQuiet signal) :
    e.IsSmooth signal := by
  cases h with
  | answer r =>
    cases r with
    | publish t key payload =>
      obtain ⟨position, w', told, -⟩ := World.answer_publish_up up t key payload
      rw [told]
      trivial
    | _ => trivial
  | mint => trivial
  | elapsed => trivial
  | @raised wake s raised =>
    rintro rfl
    exact quiet s rfl raised

theorem Meets.isQuiet (h : w.Meets e w') (quiet : w.IsQuiet signal)
    (other : ∀ s x, e = .reply (.raise s) x → signal ≠ some s) : w'.IsQuiet signal := by
  cases h.alters with
  | raise s =>
    rintro s' rfl mem
    rcases List.mem_cons.mp mem with rfl | mem
    · exact other s' () rfl rfl
    · exact quiet s' rfl mem
  | _ => exact quiet

/-- Others leave to a consumer its group, its topic and the dead letters of that, and neither the
bus nor the signal stops it. -/
structure LeavesAlone (c : Consumer) (signal : Option Signal) (w v : World) : Prop where
  leaves : w.Leaves c (fun t => t = c.topic ∨ t = c.topic.deadLetters) v
  down : v.bus.down = w.bus.down
  quiet : w.IsQuiet signal → v.IsQuiet signal

theorem Passes.leavesAlone (h : w.Passes v) (c : Consumer) (signal : Option Signal) :
    w.LeavesAlone c signal v := by
  refine ⟨h.leaves c _, ?_, ?_⟩ <;> obtain ⟨time, today, rfl⟩ := h
  · rfl
  · exact id

end World

namespace Consumer

variable {c : Consumer} {signal : Option Signal} {w : World} {p : Nat}

/-- The handler answers every record, but is never cancelled. It leaves to the consumer its group,
its topic and the dead letters of that, and it does not raise the signal. -/
structure IsSteady (c : Consumer) (signal : Option Signal) : Prop where
  discreet : c.IsDiscreet
  uncancelled : ∀ history m tr, ¬ (c.handler history m signal).After tr (.done (.error .cancelled))
  unpublished : ∀ history m, (c.handler history m signal).Asks fun r =>
    ∀ t key payload, r = .publish t key payload → t ≠ c.topic ∧ t ≠ c.topic.deadLetters
  silent : ∀ history m, (c.handler history m signal).Asks fun r =>
    ∀ s, r = .raise s → signal ≠ some s

section Steady

variable {j j' : Job (Except Bus.Error Bool)} {e : Encounter} {tr : Trace}

/-- Nothing is published on the topic itself. -/
theorem IsSteady.published (steady : c.IsSteady signal) (primary : c.topic.isDeadLetters = false)
    (path : (c.pollPartition signal p).After tr j) (job : j.Meets e j') {t : Topic} {key : String}
    {payload : Bytes} {x : Except Bus.Error Bus.Position}
    (same : e = .reply (.publish t key payload) x) : t ≠ c.topic := by
  subst same
  rcases poll_step (fun m history number => steady.unpublished history _) path job with
    other | ⟨i, other⟩ | ⟨m, own⟩ | others
  · cases other
  · cases other
  · cases own
    exact Topic.ne_deadLetters primary c.topic
  · exact (others t key payload rfl).1

theorem IsSteady.raises (steady : c.IsSteady signal)
    (path : (c.pollPartition signal p).After tr j) (job : j.Meets e j') {s : Signal} {x : Unit}
    (same : e = .reply (.raise s) x) : signal ≠ some s := by
  subst same
  rcases poll_step (fun m history number => steady.silent history _) path job with
    other | ⟨i, other⟩ | ⟨m, own⟩ | others
  · cases other
  · cases other
  · cases own
  · exact others s rfl

theorem IsSteady.adds (steady : c.IsSteady signal) (m : Bus.Message) (partitions q : Nat) :
    c.Handles signal m fun r => r.adds partitions c.topic.deadLetters q = [] := by
  refine fun history number => (steady.unpublished history _).mono fun r others => ?_
  cases r with
  | publish t key payload => exact if_neg fun here => (others t key payload rfl).2 here.1
  | _ => rfl

end Steady

section Underway

variable {i n q : Nat} {r? : Option Bus.Record} {tr : Trace} {j : Job (Except Bus.Error Bool)}
  {e : Encounter}

/-- Whatever concerns its group, a poll asks about the record that it has found. -/
theorem Underway.own (discreet : c.IsDiscreet) (h : c.Underway signal p i r? n tr j) {r : Request}
    {x : r.Reply} (mem : .reply r x ∈ tr) (concerns : c.Concerns r) :
    ∃ r₀, c.Own (Bus.delivered c.topic p i r₀) r := by
  obtain ⟨i', m, ⟨rest, same⟩, own⟩ := poll_asked_own discreet h.path mem concerns
  cases h with
  | attending =>
    cases same
    exact ⟨_, own⟩
  | _ => cases same

/-- It does nothing to the other partitions. -/
theorem Underway.elsewhere (discreet : c.IsDiscreet) (h : c.Underway signal p i r? n tr j)
    (mem : e ∈ tr) (other : q ≠ p) :
    e.done?.toList.flatMap (Request.marks c.group c.topic q) = [] ∧
      e.done?.toList.flatMap (Request.hands c.group c.topic q) = [] := by
  constructor <;> refine List.flatMap_eq_nil_iff.mpr fun r done => ?_ <;>
    obtain ⟨x, rfl⟩ := Encounter.done?_reply (Option.mem_toList.mp done) <;>
    refine List.eq_nil_iff_forall_not_mem.mpr fun y seen => other ?_
  · obtain rfl := Request.eq_commit_of_mark seen
    obtain ⟨r₀, own⟩ := h.own discreet mem (.commit q y)
    exact (own.marks seen).1.2
  · cases r with
    | deliver g m =>
      have about : g = c.group ∧ m.topic = c.topic ∧ m.partition = q := by
        by_contra elsewhere
        simp [Request.hands, elsewhere] at seen
      obtain ⟨rfl, topic, -⟩ := about
      obtain ⟨r₀, own⟩ := h.own discreet mem (.deliver m topic)
      exact (own.hands seen).2
    | _ => cases seen

end Underway

theorem Attempts.reaction {m : Bus.Message} {left number : Nat} {backoff : Span}
    {xs : List Reaction} {ending : Ending} {tr : Trace}
    (h : c.Attempts signal m left number backoff xs ending tr) :
    ∀ x ∈ xs, ∃ history m' tr', (c.handler history m' signal).After tr' (.lift x) := by
  have handled {number : Nat} {x : Reaction} {tr : Trace} (h : c.Delivers signal m number x tr) :
      ∃ history m' tr', (c.handler history m' signal).After tr' (.lift x) := by
    cases h with
    | intro history path => exact ⟨history, _, _, path⟩
  induction h with
  | last delivers => exact List.forall_mem_singleton.mpr (handled delivers)
  | again delivers _ _ _ ih => exact List.forall_mem_cons.mpr ⟨handled delivers, ih⟩

namespace Ends

variable {n : Nat} {xs : List Reaction} {ending : Ending}

theorem length_le (h : Ends n xs ending) : xs.length ≤ n := by
  cases h <;> simp <;> omega

/-- A record that is done with was accepted in the end, or all its deliveries failed. -/
theorem isBuried_iff (h : Ends n xs ending) (settled : ending.isSettled = true) :
    ending.isBuried = true ↔ ∀ x ∈ xs, x.isFailure = true := by
  cases h with
  | accepted => simp [Ending.isBuried, Reaction.isFailure]
  | buried failures => simpa [Ending.isBuried] using failures
  | _ => cases settled

end Ends

/-- A view of things of which all but the first show nothing. -/
theorem flatMap_eq_range {α β : Type} {V : α → List β} {xs : List α} {n : Nat} {f : Nat → List β}
    (enough : n ≤ xs.length)
    (each : ∀ k x, xs[k]? = some x → V x = if k < n then f k else []) :
    xs.flatMap V = (List.range n).flatMap f := by
  induction xs using List.reverseRecOn generalizing n with
  | nil =>
    obtain rfl := Nat.le_zero.mp enough
    rfl
  | append_singleton xs x ih =>
    have last := each xs.length x List.getElem?_concat_length
    have earlier (k : Nat) (x' : α) (there : xs[k]? = some x') :
        k < xs.length ∧ V x' = if k < n then f k else [] := by
      have inside := (List.getElem?_eq_some_iff.mp there).1
      exact ⟨inside, each k x' (by rw [List.getElem?_append_left inside, there])⟩
    rw [List.flatMap_append, List.flatMap_singleton, last]
    rcases Nat.lt_or_ge xs.length n with more | less
    · obtain rfl : n = xs.length + 1 := by
        rw [List.length_append, List.length_singleton] at enough
        omega
      rw [if_pos (Nat.lt_succ_self _), List.range_succ, List.flatMap_append,
        List.flatMap_singleton, ih (Nat.le_refl _) fun k x' there => ?_]
      obtain ⟨inside, view⟩ := earlier k x' there
      rw [view, if_pos (Nat.lt_succ_of_lt inside), if_pos inside]
    · rw [if_neg (Nat.not_lt.mpr less), List.append_nil]
      exact ih less fun k x' there => (earlier k x' there).2

/-- What polls have done, one after the other, if all but the first of them have done nothing. -/
theorem flatMap_done_flatten {β : Type} {F : Request → List β} {trs : List Trace} {n : Nat}
    {f : Nat → List β} (enough : n ≤ trs.length)
    (each : ∀ k tr, trs[k]? = some tr → tr.done.flatMap F = if k < n then f k else []) :
    (Trace.done trs.flatten).flatMap F = (List.range n).flatMap f := by
  rw [← flatMap_eq_range enough each, Trace.done, List.filterMap_flatten, ← List.flatMap_def,
    List.flatMap_assoc]
  rfl

/-- How many records of a partition the group is not done with. -/
def backlog (c : Consumer) (w : World) (p : Nat) : Nat :=
  (w.bus.log c.topic p).length - w.bus.offset c.group c.topic p

/-- These records, from the next one on, as they are handed over first. -/
def awaiting (c : Consumer) (w : World) (p k : Nat) : Bus.Message :=
  w.bus.firstAt c.topic p (w.bus.offset c.group c.topic p + k)

theorem sum_backlog (c : Consumer) (w : World) :
    ((List.range w.bus.partitions).map (c.backlog w)).sum = w.bus.lag c.group c.topic := rfl

/-- A poll that has settled one of these records. -/
def Settles (c : Consumer) (signal : Option Signal) (w : World) (p k : Nat) (xs : List Reaction)
    (ending : Ending) (tr : Trace) : Prop :=
  ∃ rest : Trace, tr =
      .reply (.committed c.group c.topic p) (.ok (w.bus.offset c.group c.topic p + k)) ::
        .reply (.fetch c.topic p (w.bus.offset c.group c.topic p + k))
          (.ok (some (c.awaiting w p k))) :: rest ∧
    c.Attempts signal (c.awaiting w p k) (c.config.maxAttempts - 1) 1 c.config.backoff xs ending
      rest ∧
    ending.isSettled = true

theorem Settles.view {β : Type} {F : Request → List β} {k : Nat} {xs : List Reaction}
    {ending : Ending} {tr : Trace} (h : c.Settles signal w p k xs ending tr)
    (silent : c.Handles signal (c.awaiting w p k) fun r => F r = []) :
    tr.done.flatMap F = (c.deeds (c.awaiting w p k) ending 1 (xs.length - 1)).flatMap F := by
  obtain ⟨rest, rfl, attempts, -⟩ := h
  show rest.done.flatMap F = _
  exact attempts.view silent

namespace Chronicle

variable {x : Chronicle} {rounds : Nat}

/-- All that the polls of a partition have met with. -/
def story (x : Chronicle) (p : Nat) : Trace := (x.past p).flatten ++ x.now p

theorem story_note (x : Chronicle) (w' : World) (p : Nat) (e : Encounter) :
    (x.note w' p e).story = Function.update x.story p (x.story p ++ [e]) := by
  funext q
  by_cases here : q = p
  · subst here
    simp [story, note]
  · simp [story, note, here]

theorem story_close (x : Chronicle) (v : World) (n : Nat) : (x.close v n).story = x.story := by
  funext p
  simp [story, close]

/-- All that the polls of so many partitions have met with. -/
def events (x : Chronicle) (n : Nat) : Trace := (List.range n).flatMap x.story

theorem events_note (x : Chronicle) (w' : World) {n : Nat} (inside : p < n) (e : Encounter) :
    ((x.note w' p e).events n).Perm (x.events n ++ [e]) := by
  rw [events, story_note]
  exact flatMap_update_perm List.nodup_range (List.mem_range.mpr inside) _ _

/-- An encounter adds to a view of all stories what it adds to the story that it belongs to. -/
theorem view_note {β : Type} (x : Chronicle) (w' : World) {n : Nat} (inside : p < n) (e : Encounter)
    (F : Request → List β) :
    ((List.range n).flatMap fun q => ((x.note w' p e).story q).done.flatMap F).Perm
      (((List.range n).flatMap fun q => (x.story q).done.flatMap F) ++
        e.done?.toList.flatMap F) := by
  have view (x : Chronicle) : ((List.range n).flatMap fun q => (x.story q).done.flatMap F) =
      (x.events n).flatMap fun e => e.done?.toList.flatMap F := by
    simp only [events, Trace.done, List.filterMap_eq_flatMap_toList, List.flatMap_assoc]
  have longer := (events_note x w' inside e).flatMap_right fun e => e.done?.toList.flatMap F
  rwa [List.flatMap_append, List.flatMap_singleton, ← view, ← view] at longer

/-- What holds of a partition in a round after so many. -/
structure Along (c : Consumer) (signal : Option Signal) (w : World) (rounds p : Nat)
    (x : Chronicle) : Prop where
  underway : ∃ j, c.Underway signal p
    (w.bus.offset c.group c.topic p + min rounds (c.backlog w p))
    (w.bus.log c.topic p)[w.bus.offset c.group c.topic p + min rounds (c.backlog w p)]?
    (x.world.bus.offset c.group c.topic p) (x.now p) j
  smooth : ∀ e ∈ x.now p, e.IsSmooth signal
  rounds : (x.past p).length = rounds
  past : ∀ k tr, (x.past p)[k]? = some tr →
    (k < c.backlog w p → ∃ xs ending, c.Settles signal w p k xs ending tr) ∧
      (c.backlog w p ≤ k → tr.done = [])
  handed : x.world.handedFrom c.group c.topic p = w.handedFrom c.group c.topic p ++
    (x.story p).done.flatMap (Request.hands c.group c.topic p)

/-- What holds in a round of a drain that began in the world `w`, after so many rounds. -/
structure Settling (c : Consumer) (signal : Option Signal) (w : World) (rounds : Nat)
    (x : Chronicle) : Prop where
  up : x.world.bus.down = false
  quiet : x.world.IsQuiet signal
  partitions : x.world.bus.partitions = w.bus.partitions
  logs : ∀ p, x.world.bus.log c.topic p = w.bus.log c.topic p
  along : ∀ p, p < w.bus.partitions → x.Along c signal w rounds p
  buried : ∀ q, (x.world.bus.log c.topic.deadLetters q).Perm
    (w.bus.log c.topic.deadLetters q ++ (List.range w.bus.partitions).flatMap fun p =>
      (x.story p).done.flatMap (Request.adds w.bus.partitions c.topic.deadLetters q))
  settled : x.settled =
    ((List.range w.bus.partitions).map fun p => min rounds (c.backlog w p)).sum

/-- A poll that has ended has settled the next record, or there was none. -/
theorem Along.at_end (steady : c.IsSteady signal) (h : x.Along c signal w rounds p)
    {r : Except Bus.Error Bool} (path : (c.pollPartition signal p).After (x.now p) (.done r)) :
    (rounds < c.backlog w p ∧ r = .ok true ∧
      (∃ xs ending, c.Settles signal w p rounds xs ending (x.now p)) ∧
      x.world.bus.offset c.group c.topic p = w.bus.offset c.group c.topic p + (rounds + 1)) ∨
    (c.backlog w p ≤ rounds ∧ r = .ok false ∧ (x.now p).done = [] ∧
      x.world.bus.offset c.group c.topic p =
        w.bus.offset c.group c.topic p + c.backlog w p) := by
  obtain ⟨j, underway⟩ := h.underway
  obtain rfl := underway.path.unique path
  rcases underway.at_end steady.discreet trivial with ⟨none, offset, done, same⟩ |
    ⟨r₀, xs, ending, rest, some, trace, attempts, same, offset, refused, unmoved⟩
  · have beyond := List.getElem?_eq_none_iff.mp none
    have behind : c.backlog w p ≤ rounds := by
      rw [backlog] at beyond ⊢
      omega
    refine .inr ⟨behind, Job.done.inj same, done, ?_⟩
    rw [offset, Nat.min_eq_right behind]
  · have inside := (List.getElem?_eq_some_iff.mp some).1
    have behind : rounds < c.backlog w p := by
      rw [backlog] at inside ⊢
      omega
    rw [Nat.min_eq_left (Nat.le_of_lt behind)] at some trace attempts offset
    rw [← Bus.firstAt_eq some] at trace attempts
    obtain ⟨left, backoff, y, tr₁, tr₂, split, closes⟩ := attempts.closing
    have smooth : ∀ e ∈ tr₂, e.IsSmooth signal :=
      fun e mem => h.smooth e (by rw [trace, split]; simp [mem])
    have settled (yes : ending.isSettled = true) : ∃ xs ending,
        c.Settles signal w p rounds xs ending (x.now p) := ⟨xs, ending, rest, trace, attempts, yes⟩
    refine .inl ⟨behind, ?_⟩
    cases ending with
    | accepted => exact ⟨Job.done.inj same, settled rfl, offset⟩
    | buried => exact ⟨Job.done.inj same, settled rfl, offset⟩
    | refused e => exact absurd rfl (refused e)
    | unmoved position e => exact absurd rfl (unmoved position e)
    | unburied e => exact (smooth _ (List.mem_of_getLast? closes.last_of_unburied)).elim
    | stopped =>
      obtain ⟨wake, last⟩ := closes.last_of_stopped
      exact absurd rfl (smooth _ (List.mem_of_getLast? last))
    | cancelled =>
      cases attempts.ends with
      | cancelled =>
        obtain ⟨history, m, tr, path⟩ := attempts.reaction (.ok (.error .cancelled)) (by simp)
        exact absurd path (steady.uncancelled history m tr)
    | overflowed => cases same
    | broken => cases same

namespace Along

variable {v w' : World} {e : Encounter}

theorem meanwhile (h : x.Along c signal w rounds p)
    (others : x.world.LeavesAlone c signal v) :
    { x with world := v }.Along c signal w rounds p := by
  refine ⟨?_, h.smooth, h.rounds, h.past, ?_⟩
  · rw [others.leaves.offsets]
    exact h.underway
  · rw [others.leaves.handedFrom]
    exact h.handed

/-- A step of the poll of the partition. -/
theorem note (h : x.Along c signal w rounds p) {n : Nat} {j : Job (Except Bus.Error Bool)}
    (underway : c.Underway signal p
      (w.bus.offset c.group c.topic p + min rounds (c.backlog w p))
      (w.bus.log c.topic p)[w.bus.offset c.group c.topic p + min rounds (c.backlog w p)]?
      n (x.now p ++ [e]) j)
    (moved : w'.bus.offset c.group c.topic p = n) (world : x.world.Meets e w')
    (smooth : e.IsSmooth signal) : (x.note w' p e).Along c signal w rounds p := by
  have now : (x.note w' p e).now p = x.now p ++ [e] := Function.update_self ..
  constructor
  case underway =>
    rw [now]
    exact ⟨j, moved ▸ underway⟩
  case smooth =>
    rw [now]
    exact List.forall_mem_append.mpr ⟨h.smooth, List.forall_mem_singleton.mpr smooth⟩
  case rounds => exact h.rounds
  case past => exact h.past
  case handed =>
    show w'.handedFrom c.group c.topic p = _
    rw [story_note, Function.update_self, world.handedFrom_done, h.handed, Trace.done_append,
      Trace.done_singleton, List.flatMap_append, List.append_assoc]

/-- A step of the poll of another partition. -/
theorem note_other {q : Nat} (h : x.Along c signal w rounds q) (other : q ≠ p)
    (marks : e.done?.toList.flatMap (Request.marks c.group c.topic q) = [])
    (hands : e.done?.toList.flatMap (Request.hands c.group c.topic q) = [])
    (world : x.world.Meets e w') : (x.note w' p e).Along c signal w rounds q := by
  have now : (x.note w' p e).now q = x.now q := Function.update_of_ne other _ _
  constructor
  case underway =>
    rw [now]
    show ∃ j, c.Underway signal q _ _ (w'.bus.offset c.group c.topic q) (x.now q) j
    rw [world.offset_done, marks]
    exact h.underway
  case smooth =>
    rw [now]
    exact h.smooth
  case rounds => exact h.rounds
  case past => exact h.past
  case handed =>
    show w'.handedFrom c.group c.topic q = _
    rw [story_note, Function.update_of_ne other, world.handedFrom_done, hands, List.append_nil]
    exact h.handed

/-- The round is over. -/
theorem close (steady : c.IsSteady signal) (h : x.Along c signal w rounds p)
    {r : Except Bus.Error Bool} (path : (c.pollPartition signal p).After (x.now p) (.done r))
    (n : Nat) : (x.close x.world n).Along c signal w (rounds + 1) p := by
  have finished := h.at_end steady path
  constructor
  case underway =>
    have offset : x.world.bus.offset c.group c.topic p =
        w.bus.offset c.group c.topic p + min (rounds + 1) (c.backlog w p) := by
      rcases finished with ⟨less, -, -, offset⟩ | ⟨most, -, -, offset⟩
      · rw [offset, Nat.min_eq_left less]
      · rw [offset, Nat.min_eq_right (Nat.le_succ_of_le most)]
    refine ⟨c.pollPartition signal p, ?_⟩
    show c.Underway signal p _ _ (x.world.bus.offset c.group c.topic p) [] _
    rw [offset]
    exact .begun
  case smooth => exact fun e mem => nomatch mem
  case rounds =>
    show (x.past p ++ [x.now p]).length = rounds + 1
    rw [List.length_append, h.rounds, List.length_singleton]
  case past =>
    intro k tr there
    have there : (x.past p ++ [x.now p])[k]? = some tr := there
    rcases Nat.lt_trichotomy k rounds with earlier | rfl | later
    · rw [List.getElem?_append_left (h.rounds.symm ▸ earlier)] at there
      exact h.past k tr there
    · rw [← h.rounds, List.getElem?_concat_length] at there
      obtain rfl := Option.some.inj there
      rcases finished with ⟨less, -, settles, -⟩ | ⟨most, -, done, -⟩
      · exact ⟨fun _ => settles, fun most => absurd less (Nat.not_lt.mpr most)⟩
      · exact ⟨fun less => absurd less (Nat.not_lt.mpr most), fun _ => done⟩
    · have inside := (List.getElem?_eq_some_iff.mp there).1
      rw [List.length_append, h.rounds, List.length_singleton] at inside
      omega
  case handed =>
    rw [story_close]
    exact h.handed

end Along

namespace Settling

variable {v w' : World}

theorem meanwhile (h : x.Settling c signal w rounds) (others : x.world.LeavesAlone c signal v) :
    { x with world := v }.Settling c signal w rounds := by
  have logs := others.leaves.logs
  refine ⟨others.down.trans h.up, others.quiet h.quiet, others.leaves.partitions.trans h.partitions,
    fun p => (logs _ p (.inl rfl)).trans (h.logs p),
    fun p inside => (h.along p inside).meanwhile others, fun q => ?_, h.settled⟩
  rw [logs _ q (.inr rfl)]
  exact h.buried q

/-- A step of one of the polls. -/
theorem note (steady : c.IsSteady signal) (primary : c.topic.isDeadLetters = false)
    (h : x.Settling c signal w rounds) (inside : p < w.bus.partitions)
    {j j' : Job (Except Bus.Error Bool)} {e : Encounter}
    (path : (c.pollPartition signal p).After (x.now p) j) (world : x.world.Meets e w')
    (job : j.Meets e j') : (x.note w' p e).Settling c signal w rounds := by
  have still := world.logs_of_unpublished fun t key payload y same =>
    steady.published primary path job same
  obtain ⟨j₀, underway⟩ := (h.along p inside).underway
  obtain rfl := underway.path.unique path
  obtain ⟨n, underway', moved⟩ := underway.meets steady.discreet (h.partitions ▸ inside) rfl
    (congrArg (·[_]?) (h.logs p)) world job
  refine ⟨world.down_eq.trans h.up, ?_, world.partitions_eq.trans h.partitions,
    fun q => (still q).trans (h.logs q), fun q among => ?_, fun q => ?_, h.settled⟩
  · exact world.isQuiet h.quiet fun s y same => steady.raises path job same
  · by_cases here : q = p
    · subst here
      exact (h.along q inside).note underway' moved world (world.isSmooth h.up h.quiet)
    · obtain ⟨marks, hands⟩ := underway'.elsewhere steady.discreet
        (List.mem_append_right _ (List.mem_singleton_self e)) here
      exact (h.along q among).note_other here marks hands world
  · show (w'.bus.log c.topic.deadLetters q).Perm _
    rw [world.log_done, h.partitions]
    refine ((h.buried q).append_right _).trans ?_
    rw [List.append_assoc]
    exact (view_note x w' inside e _).symm.append_left _

/-- The round is over. -/
theorem close (steady : c.IsSteady signal) (h : x.Settling c signal w rounds)
    {results : Nat → Except Bus.Error Bool} (ended : x.Ended c signal w.bus.partitions results) :
    (x.close x.world (gain w.bus.partitions results)).Settling c signal w (rounds + 1) := by
  refine ⟨h.up, h.quiet, h.partitions, h.logs,
    fun p inside => (h.along p inside).close steady (ended p inside) _, fun q => ?_, ?_⟩
  · rw [story_close]
    exact h.buried q
  · show x.settled + gain w.bus.partitions results = _
    rw [h.settled, gain, ← List.sum_map_add]
    congr 1
    refine List.map_congr_left fun p mem => ?_
    have inside := List.mem_range.mp mem
    rcases (h.along p inside).at_end steady (ended p inside) with
      ⟨less, result, -, -⟩ | ⟨most, result, -, -⟩ <;> rw [result]
    · rw [isSettled, if_pos rfl]
      omega
    · have unsettled : isSettled (.ok false) = false := rfl
      rw [unsettled, if_neg Bool.false_ne_true]
      omega

theorem start (up : w.bus.down = false) (quiet : w.IsQuiet signal) :
    (Chronicle.start w).Settling c signal w 0 := by
  refine ⟨up, quiet, rfl, fun _ => rfl, fun p _ => ?_, fun q => ?_, ?_⟩
  · refine ⟨⟨c.pollPartition signal p, ?_⟩, fun e mem => (nomatch mem), rfl,
      fun k tr there => (nomatch there), (List.append_nil _).symm⟩
    rw [Nat.zero_min, Nat.add_zero]
    exact .begun
  · have none : ((List.range w.bus.partitions).flatMap fun p =>
        ((Chronicle.start w).story p).done.flatMap
          (Request.adds w.bus.partitions c.topic.deadLetters q)) = [] :=
      List.flatMap_eq_nil_iff.mpr fun p _ => rfl
    rw [none, List.append_nil]
    exact .refl _
  · exact (List.sum_eq_zero fun n mem => by
      obtain ⟨p, -, rfl⟩ := List.mem_map.mp mem
      exact Nat.zero_min _).symm

theorem total (h : x.Settling c signal w rounds)
    (enough : ∀ p, p < w.bus.partitions → c.backlog w p ≤ rounds) :
    x.settled = w.bus.lag c.group c.topic := by
  rw [h.settled, ← sum_backlog]
  congr 1
  exact List.map_congr_left fun p mem => Nat.min_eq_right (enough p (List.mem_range.mp mem))

theorem bound (h : x.Settling c signal w rounds) : x.settled ≤ w.bus.lag c.group c.topic := by
  rw [h.settled, ← sum_backlog]
  exact List.sum_le_sum fun p _ => Nat.min_le_right _ _

end Settling

/-- The dead letters of a partition that come of the records that the group is not done with:
those of which all deliveries fail. -/
def fallen (c : Consumer) (w : World) (answers : Nat → Nat → List Reaction) (q : Nat) :
    List Bus.Record :=
  (List.range w.bus.partitions).flatMap fun p =>
    (List.range (c.backlog w p)).flatMap fun k =>
      if (∀ x ∈ answers p k, x.isFailure = true) ∧
          Bus.partitionOf (c.awaiting w p k).key w.bus.partitions = q then
        [⟨(c.awaiting w p k).key, (c.awaiting w p k).payload⟩]
      else []

/-- A drain that began in a world has dealt with every record that the group was not done with. -/
structure Settled (c : Consumer) (signal : Option Signal) (w : World)
    (answers : Nat → Nat → List Reaction) (x : Chronicle) (k : Worker) : Prop where
  stage : k.stage = .ended (.ok (w.bus.lag c.group c.topic))
  lag : x.world.bus.lag c.group c.topic = 0
  answered : ∀ p, p < w.bus.partitions → ∀ i, i < c.backlog w p →
    ∃ ending tr, (x.past p)[i]? = some tr ∧ c.Settles signal w p i (answers p i) ending tr
  few : ∀ p, p < w.bus.partitions → ∀ i, i < c.backlog w p →
    1 ≤ (answers p i).length ∧ (answers p i).length ≤ max 1 c.config.maxAttempts
  handed : ∀ p, p < w.bus.partitions → x.world.handedFrom c.group c.topic p =
    w.handedFrom c.group c.topic p ++ (List.range (c.backlog w p)).flatMap fun i =>
      (List.range (answers p i).length).map fun k => { c.awaiting w p i with attempt := 1 + k }
  buried : ∀ q, (x.world.bus.log c.topic.deadLetters q).Perm
    (w.bus.log c.topic.deadLetters q ++ fallen c w answers q)

/-- What the polls of a partition have done is told by the answers. -/
theorem Along.view {β : Type} {F : Request → List β} (h : x.Along c signal w rounds p)
    (enough : c.backlog w p ≤ rounds) (idle : (x.now p).done = [])
    {answers : Nat → List Reaction} {endings : Nat → Ending}
    (settles : ∀ k, k < c.backlog w p → ∃ tr, (x.past p)[k]? = some tr ∧
      c.Settles signal w p k (answers k) (endings k) tr)
    (silent : ∀ m, c.Handles signal m fun r => F r = []) :
    (x.story p).done.flatMap F = (List.range (c.backlog w p)).flatMap fun k =>
      (c.deeds (c.awaiting w p k) (endings k) 1 ((answers k).length - 1)).flatMap F := by
  rw [story, Trace.done_append, idle, List.append_nil]
  refine flatMap_done_flatten (h.rounds.symm ▸ enough) fun k tr there => ?_
  split
  · next behind =>
    obtain ⟨tr', there', settles⟩ := settles k behind
    obtain rfl := Option.some.inj (there'.symm.trans there)
    exact settles.view (silent _)
  · next beyond =>
    rw [((h.past k tr there).2 (Nat.not_lt.mp beyond))]
    rfl

/-- A drain that has come to the ends of all partitions. -/
theorem Settling.settles_all (steady : c.IsSteady signal) (h : x.Settling c signal w rounds)
    (dry : ∀ p, p < w.bus.partitions → c.backlog w p ≤ rounds ∧ (x.now p).done = [] ∧
      x.world.bus.offset c.group c.topic p = w.bus.offset c.group c.topic p + c.backlog w p)
    {k : Worker} (stage : k.stage = .ended (.ok (w.bus.lag c.group c.topic))) :
    ∃ answers, Settled c signal w answers x k := by
  have each (p i : Nat) : ∃ xs ending, p < w.bus.partitions → i < c.backlog w p →
      ∃ tr, (x.past p)[i]? = some tr ∧ c.Settles signal w p i xs ending tr := by
    by_cases inside : p < w.bus.partitions ∧ i < c.backlog w p
    · have along := h.along p inside.1
      have there := List.getElem?_eq_getElem
        (along.rounds.symm ▸ Nat.lt_of_lt_of_le inside.2 (dry p inside.1).1)
      obtain ⟨xs, ending, settles⟩ := (along.past i _ there).1 inside.2
      exact ⟨xs, ending, fun _ _ => ⟨_, there, settles⟩⟩
    · exact ⟨[], .accepted, fun inside₁ inside₂ => absurd ⟨inside₁, inside₂⟩ inside⟩
  choose answers endings settles using each
  have ends (p i : Nat) (inside : p < w.bus.partitions) (behind : i < c.backlog w p) :
      Ends (max 1 c.config.maxAttempts) (answers p i) (endings p i) ∧
        0 < (answers p i).length ∧ (endings p i).isSettled = true := by
    obtain ⟨tr, -, rest, -, attempts, settled⟩ := settles p i inside behind
    have most : c.config.maxAttempts - 1 + 1 = max 1 c.config.maxAttempts := by omega
    exact ⟨most ▸ attempts.ends, attempts.length_pos, settled⟩
  refine ⟨answers, stage, ?_, ?_, ?_, ?_, ?_⟩
  · rw [Bus.lag_eq, h.partitions]
    refine List.sum_eq_zero fun n mem => ?_
    obtain ⟨p, inside, rfl⟩ := List.mem_map.mp mem
    rw [h.logs, (dry p (List.mem_range.mp inside)).2.2, backlog]
    omega
  · intro p inside i behind
    obtain ⟨tr, there, settles⟩ := settles p i inside behind
    exact ⟨endings p i, tr, there, settles⟩
  · intro p inside i behind
    obtain ⟨ends, pos, -⟩ := ends p i inside behind
    exact ⟨pos, ends.length_le⟩
  · intro p inside
    obtain ⟨enough, idle, -⟩ := dry p inside
    have along := h.along p inside
    rw [along.handed, along.view enough idle (settles p · inside)
      fun m => steady.discreet.hands m p]
    congr 1
    refine List.flatMap_congr fun i mem => ?_
    obtain ⟨-, pos, -⟩ := ends p i inside (List.mem_range.mp mem)
    have hands := deeds_hands (c := c) (m := c.awaiting w p i) rfl (endings p i) 1
      ((answers p i).length - 1)
    rw [Nat.sub_add_cancel pos] at hands
    exact hands
  · intro q
    refine (h.buried q).trans (.of_eq ?_)
    rw [fallen]
    congr 1
    refine List.flatMap_congr fun p mem => ?_
    have inside := List.mem_range.mp mem
    obtain ⟨enough, idle, -⟩ := dry p inside
    rw [(h.along p inside).view enough idle (settles p · inside)
      fun m => steady.adds m w.bus.partitions q]
    refine List.flatMap_congr fun i mem => ?_
    obtain ⟨ends, -, settled⟩ := ends p i inside (List.mem_range.mp mem)
    rw [deeds_adds]
    simp only [ends.isBuried_iff settled, true_and]

/-- A drain that has ended has dealt with every record. -/
theorem Settling.finish (steady : c.IsSteady signal) (h : x.Settling c signal w rounds)
    {results : Nat → Except Bus.Error Bool} (ended : x.Ended c signal w.bus.partitions results)
    {r : Except Bus.Error Nat} (outcome : Outcome w.bus.partitions results x.settled r) {k : Worker}
    (stage : k.stage = .ended r) :
    ∃ answers, Settled c signal w answers (x.close x.world (gain w.bus.partitions results)) k := by
  cases outcome with
  | failed inside error =>
    rcases (h.along _ inside).at_end steady (ended _ inside) with ⟨-, ok, -⟩ | ⟨-, ok, -⟩ <;>
      cases error.symm.trans ok
  | finished none =>
    have dry (p : Nat) (inside : p < w.bus.partitions) : c.backlog w p ≤ rounds ∧
        x.world.bus.offset c.group c.topic p =
          w.bus.offset c.group c.topic p + c.backlog w p := by
      rcases (h.along p inside).at_end steady (ended p inside) with
        ⟨-, result, -⟩ | ⟨most, -, -, offset⟩
      · cases (none p inside).symm.trans result
      · exact ⟨most, offset⟩
    have stage := stage.trans (congrArg (fun n => Stage.ended (.ok n))
      (h.total fun p inside => (dry p inside).1))
    refine (h.close steady ended).settles_all steady (fun p inside => ?_) stage
    exact ⟨Nat.le_succ_of_le (dry p inside).1, rfl, (dry p inside).2⟩

end Chronicle

open Chronicle in
/-- A drain of a topic that is not for dead letters, with the bus up and a signal that is not
raised. Others may do anything that leaves the group, the topic and its dead letters alone. Unless
it is aborted, the drain ends with the number of records that the group was not done with, and
after it the group is done with all of them. Each of them was handed over at least once and at most
as often as there are attempts, in the order of their offsets, and those of which all deliveries
failed were put on the dead-letter topic, once each, and no others. -/
theorem drain_settles_all (steady : c.IsSteady signal) (primary : c.topic.isDeadLetters = false)
    (up : w.bus.down = false) (quiet : w.IsQuiet signal) :
    Inevitable (Step (World.LeavesAlone c signal))
      (fun y => (∃ f, y.2.stage = .crashed f ∧ c.MayFault signal f) ∨
        ∃ answers, Settled c signal w answers y.1 y.2)
      (.start w, c.start .drain signal w) := by
  refine Upholds.drain
    (?_ : Upholds _ _ _ _ (fun x => ∃ rounds, x.Settling c signal w rounds) _
      (w.bus.lag c.group c.topic)) ⟨0, .start up quiet⟩
  constructor
  case time => exact fun w v passes => passes.leavesAlone c signal
  case partitions =>
    rintro x v ⟨rounds, h⟩ others
    exact (h.meanwhile others).partitions
  case bound =>
    rintro x ⟨rounds, h⟩
    exact h.bound
  case go =>
    rintro x v w' p j j' e ⟨rounds, h⟩ others inside path world job
    exact .inl ⟨rounds, (h.meanwhile others).note steady primary inside path world job⟩
  case again =>
    rintro x v results ⟨rounds, h⟩ others ended -
    exact ⟨rounds + 1, (h.meanwhile others).close steady ended⟩
  case ended =>
    rintro x v results r k ⟨rounds, h⟩ others ended outcome stage
    exact .inr ((h.meanwhile others).finish steady ended outcome stage)
  case fault =>
    rintro x v p f k - - - path stage
    exact .inl ⟨f, stage, poll_mayFault path⟩

/-- It fails the first time with every record, and always with a second one. -/
def hesitant : Consumer where
  group := "clerks"
  topic := .paid
  handler _ m _ := .done <|
    if m.attempt = 1 ∨ m.payload = [2] then .error (.failed "not now") else .ok ()
  config := ⟨2, .ofMillis 100, .ofSeconds 5, .ofMillis 50⟩

theorem isSteady_hesitant (config : Config) :
    { hesitant with config := config }.IsSteady none := by
  refine ⟨fun _ _ _ => trivial, fun history m tr path => ?_, fun _ _ => trivial,
    fun _ _ => trivial⟩
  obtain ⟨-, same⟩ := Job.after_done_iff.mp path
  have same := Job.done.inj same
  split at same <;> cases same

def threePayments : World :=
  let w := ((World.empty 1 true ⟨0, 0, 0⟩).answer (.publish .paid "a" [1])).2
  ((w.answer (.publish .paid "b" [2])).2.answer (.publish .paid "a" [3])).2

/-- Of three payments one becomes a dead letter. -/
theorem drain_settles_all_hesitant :
    Inevitable (Chronicle.Step (World.LeavesAlone hesitant none))
      (fun y => (∃ f, y.2.stage = .crashed f ∧ hesitant.MayFault none f) ∨
        ∃ answers, Chronicle.Settled hesitant none threePayments answers y.1 y.2)
      (.start threePayments, hesitant.start .drain none threePayments) ∧
    threePayments.bus.lag "clerks" .paid = 3 ∧
    ((drained hesitant threePayments).2.threads.map fun x => x.2.stage.result?) = [some (.ok 3)] ∧
    ((drained hesitant threePayments).1.world.bus.messages .paidDeadLetters).map
      Bus.Message.payload = [[2]] := by
  refine ⟨drain_settles_all (isSteady_hesitant _) rfl rfl ?_, by decide +kernel, by decide +kernel,
    by decide +kernel⟩
  rintro s ⟨⟩

/-- Moves the offset past the second record when it is handed the first one. -/
def hasty : Consumer where
  group := "clerks"
  topic := .paid
  handler _ m _ :=
    if m.offset = 0 then .ask (.commit "clerks" .paid 0 2) fun _ => .done (.ok ())
    else .done (.ok ())
  config := ⟨2, .ofMillis 100, .ofSeconds 5, .ofMillis 50⟩

theorem accepted_of_hasty {history : List Delivery} {m : Bus.Message} {tr : Trace}
    {r : Except HandlerError Unit}
    (path : (hasty.handler history m none).After tr (.done r)) : r = .ok () := by
  simp only [hasty] at path
  split at path
  · rcases Job.after_ask_iff.mp path with ⟨-, same⟩ | ⟨x, tr', -, rest⟩
    · cases same
    · exact Job.done.inj (Job.after_done_iff.mp rest).2
  · exact Job.done.inj (Job.after_done_iff.mp path).2

/-- A handler that moves the offset of its own group makes the drain fail, and a wait that cannot
be doubled aborts it. Either way records are left. -/
theorem drain_leaves_records :
    let c := { hesitant with config := ⟨2, ⟨Span.longest⟩, .ofSeconds 5, .ofMillis 50⟩ }
    ((∀ history m tr, ¬ (hasty.handler history m none).After tr (.done (.error .cancelled))) ∧
      (∀ history m, (hasty.handler history m none).Asks fun r =>
        ∀ t key payload, r ≠ .publish t key payload) ∧
      ((drained hasty threePayments).2.threads.map fun x => x.2.stage.result?) =
        [some (.error (.regression "clerks" .paid 0 1 2))] ∧
      (drained hasty threePayments).1.world.bus.lag "clerks" .paid = 1) ∧
    c.IsSteady none ∧
      ((drained c threePayments).2.threads.map fun x => x.2.stage.fault?) = [some .spanProduct] ∧
      (drained c threePayments).1.world.bus.lag "clerks" .paid = 3 := by
  intro c
  refine ⟨⟨fun history m tr path => ?_, fun history m => ?_, by decide +kernel, by decide +kernel⟩,
    isSteady_hesitant _, by decide +kernel, by decide +kernel⟩
  · cases accepted_of_hasty path
  · simp only [hasty]
    split
    · exact ⟨fun t key payload same => (nomatch same), fun _ => trivial⟩
    · trivial

end Consumer
end Shipyard

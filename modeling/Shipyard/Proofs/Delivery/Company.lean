import Shipyard.Proofs.Delivery.Attempts

/-!
# Polls among others

While a consumer polls, others may do all that leaves its group and some topics alone. What a poll
has done then shows in the world as if nothing else had happened: deliveries and records are added,
and the offset is where the poll has moved it. `Underway` says how far a poll has come.
-/

namespace Shipyard

theorem Topic.ne_deadLetters {t : Topic} (primary : t.isDeadLetters = false) (t' : Topic) :
    t'.deadLetters ≠ t := by
  rintro rfl
  revert primary
  cases t' <;> decide

theorem Bus.lag_eq (b : Bus) (g : String) (t : Topic) :
    b.lag g t = ((List.range b.partitions).map fun p => (b.log t p).length - b.offset g t p).sum :=
  rfl

theorem Request.eq_commit_of_mark {g : String} {t : Topic} {p n : Nat} {r : Request}
    (mark : n ∈ r.marks g t p) : r = .commit g t p n := by
  unfold marks at mark
  split at mark
  · split at mark
    · next here =>
      obtain ⟨rfl, rfl, rfl⟩ := here
      rw [List.mem_singleton.mp mark]
    · cases mark
  · cases mark

namespace Encounter

theorem done?_of_isIdle {e : Encounter} (idle : e.isIdle = true) : e.done? = none := by
  unfold done?
  split
  case h_5 => rfl
  all_goals cases idle

end Encounter

namespace World

namespace Meets

variable {w w' : World} {e : Encounter}

theorem log_done (h : w.Meets e w') (t : Topic) (p : Nat) : w'.bus.log t p =
    w.bus.log t p ++ e.done?.toList.flatMap (Request.adds w.bus.partitions t p) := by
  cases h.alters with
  | idle drill idle => simp [Encounter.done?_of_isIdle idle]
  | @publish t' key payload _ _ done =>
    obtain ⟨rfl, rfl⟩ := Bus.publish_ok done
    rw [Bus.log_append]
    by_cases here : t' = t ∧ Bus.partitionOf key w.bus.partitions = p
    · simp [Encounter.done?, Request.adds, here]
    · simp [Encounter.done?, Request.adds, here]
  | commit done =>
    obtain ⟨-, rfl⟩ := Bus.commit_ok done
    exact (List.append_nil _).symm
  | _ => exact (List.append_nil _).symm

theorem offset_done (h : w.Meets e w') (g : String) (t : Topic) (p : Nat) :
    w'.bus.offset g t p =
      (e.done?.toList.flatMap (Request.marks g t p)).getLastD (w.bus.offset g t p) := by
  cases h.alters with
  | idle drill idle => simp [Encounter.done?_of_isIdle idle]
  | publish done =>
    obtain ⟨-, rfl⟩ := Bus.publish_ok done
    rfl
  | @commit g' t' p' n _ done =>
    obtain ⟨-, rfl⟩ := Bus.commit_ok done
    rw [Bus.offset_commit]
    by_cases here : g' = g ∧ t' = t ∧ p' = p
    · simp [Encounter.done?, Request.marks, here]
    · simp [Encounter.done?, Request.marks, here]
  | _ => rfl

theorem handedFrom_done (h : w.Meets e w') (g : String) (t : Topic) (p : Nat) :
    w'.handedFrom g t p =
      w.handedFrom g t p ++ e.done?.toList.flatMap (Request.hands g t p) := by
  rw [handedFrom, h.handed, List.filter_append, ← handedFrom]
  congr 1
  cases h.alters with
  | idle drill idle =>
    have none : e.hands g t = [] := by
      unfold Encounter.hands
      split
      · cases idle
      · rfl
    simp [none, Encounter.done?_of_isIdle idle]
  | deliver g' m =>
    by_cases about : g' = g ∧ m.topic = t <;> by_cases here : m.partition = p <;>
      simp [Encounter.hands, Encounter.done?, Request.hands, about, here]
  | _ => rfl

theorem partitions_eq (h : w.Meets e w') : w'.bus.partitions = w.bus.partitions :=
  h.grows.partitions

theorem down_eq (h : w.Meets e w') : w'.bus.down = w.bus.down := by
  cases h.alters with
  | publish done =>
    obtain ⟨-, rfl⟩ := Bus.publish_ok done
    rfl
  | commit done =>
    obtain ⟨-, rfl⟩ := Bus.commit_ok done
    rfl
  | _ => rfl

/-- Only a publication adds records to a topic. -/
theorem logs_of_unpublished (h : w.Meets e w') {t : Topic}
    (other : ∀ t' key payload x, e = .reply (.publish t' key payload) x → t' ≠ t) (p : Nat) :
    w'.bus.log t p = w.bus.log t p := by
  rw [h.log_done, List.append_right_eq_self, List.flatMap_eq_nil_iff]
  intro r done
  obtain ⟨x, rfl⟩ := Encounter.done?_reply (Option.mem_toList.mp done)
  cases r with
  | publish t' key payload => exact if_neg fun here => other t' key payload x rfl here.1
  | _ => rfl

end Meets

/-- What others may do besides a consumer: they neither hand over records of its topic to its group
nor move the offsets of its group, and they publish nothing on some topics. -/
structure Leaves (c : Consumer) (topics : Topic → Prop) (w v : World) : Prop where
  partitions : v.bus.partitions = w.bus.partitions
  offsets : ∀ p, v.bus.offset c.group c.topic p = w.bus.offset c.group c.topic p
  handed : v.handed c.group c.topic = w.handed c.group c.topic
  logs : ∀ t p, topics t → v.bus.log t p = w.bus.log t p

theorem Passes.leaves {w v : World} (h : w.Passes v) (c : Consumer) (topics : Topic → Prop) :
    w.Leaves c topics v := by
  obtain ⟨time, today, rfl⟩ := h
  exact ⟨rfl, fun _ => rfl, rfl, fun _ _ _ => rfl⟩

theorem Leaves.handedFrom {c : Consumer} {topics : Topic → Prop} {w v : World}
    (h : w.Leaves c topics v) (p : Nat) :
    v.handedFrom c.group c.topic p = w.handedFrom c.group c.topic p := by
  rw [World.handedFrom, h.handed]
  rfl

end World

namespace Consumer

variable {c : Consumer} {signal : Option Signal} {p i n : Nat} {r? : Option Bus.Record}
  {tr : Trace} {j j' : Job (Except Bus.Error Bool)} {w v w' : World} {e : Encounter}

/-- What a poll asks is its own request or one of its handler. -/
theorem poll_step {Q : Request → Prop} (handler : ∀ m, c.Handles signal m Q)
    (path : (c.pollPartition signal p).After tr j) {r : Request} {x : r.Reply}
    (job : j.Meets (.reply r x) j') :
    r = .committed c.group c.topic p ∨ (∃ i, r = .fetch c.topic p i) ∨ (∃ m, c.Own m r) ∨ Q r := by
  have mem : .reply r x ∈ tr ++ [.reply r x] := List.mem_append_right _ (List.mem_singleton_self _)
  rcases poll_mem handler (path.snoc job) mem with read | fetch | ⟨i, m, -, own | other⟩
  · exact .inl read
  · exact .inr (.inl fetch)
  · exact .inr (.inr (.inl ⟨m, own⟩))
  · exact .inr (.inr (.inr other))

/-- How far a poll has come that has found the offset `i` in its partition, with what it found
there, and where it has moved the offset. -/
inductive Underway (c : Consumer) (signal : Option Signal) (p i : Nat) (r? : Option Bus.Record) :
    Nat → Trace → Job (Except Bus.Error Bool) → Prop
  | begun : Underway c signal p i r? i [] (c.pollPartition signal p)
  | read {j : Job (Except Bus.Error Bool)}
      (path : (c.pollPartition signal p).After [.reply (.committed c.group c.topic p) (.ok i)] j) :
      Underway c signal p i r? i [.reply (.committed c.group c.topic p) (.ok i)] j
  | dry (nothing : r? = none) : Underway c signal p i r? i
      [.reply (.committed c.group c.topic p) (.ok i), .reply (.fetch c.topic p i) (.ok none)]
      (.done (.ok false))
  | attending {r : Bus.Record} {n : Nat} {tr : Trace} {j : Job (Except Bus.Error Bool)}
      (found : r? = some r)
      (path : (c.attempt signal (Bus.delivered c.topic p i r) (c.config.maxAttempts - 1) 1
        c.config.backoff).After tr j)
      (moved : n = (tr.done.flatMap (Request.marks c.group c.topic p)).getLastD i)
      (near : n ≤ i + 1)
      (accepted : ∀ q k e, .reply (.commit c.group c.topic q k) (.error e) ∉ tr) :
      Underway c signal p i r? n (.reply (.committed c.group c.topic p) (.ok i) ::
        .reply (.fetch c.topic p i) (.ok (some (Bus.delivered c.topic p i r))) :: tr) j

theorem getLastD_append {α : Type} (xs ys : List α) (x : α) :
    (xs ++ ys).getLastD x = ys.getLastD (xs.getLastD x) := by
  simp [List.getLastD_eq_getLast?, List.getLast?_append]

theorem getLastD_le {xs : List Nat} {n k : Nat} (start : n ≤ k) (all : ∀ x ∈ xs, x ≤ k) :
    xs.getLastD n ≤ k := by
  rcases List.eq_nil_or_concat xs with rfl | ⟨ys, y, rfl⟩
  · exact start
  · rw [List.concat_eq_append, List.getLastD_concat]
    exact all y (by simp)

namespace Underway

theorem path (h : c.Underway signal p i r? n tr j) : (c.pollPartition signal p).After tr j := by
  cases h with
  | begun => exact .here _
  | read path => exact path
  | dry => exact .there (.reply _ _ _) (.there (.reply _ _ _) (.here _))
  | attending _ path => exact .there (.reply _ _ _) (.there (.reply _ _ _) path)

/-- One encounter of a poll while others leave its group and its topic alone. -/
theorem meets (discreet : c.IsDiscreet) (h : c.Underway signal p i r? n tr j)
    (inside : p < w.bus.partitions) (offset : w.bus.offset c.group c.topic p = n)
    (record : (w.bus.log c.topic p)[i]? = r?) (world : w.Meets e w') (job : j.Meets e j') :
    ∃ n', c.Underway signal p i r? n' (tr ++ [e]) j' ∧
      w'.bus.offset c.group c.topic p = n' := by
  have moved := world.offset_done c.group c.topic p
  rw [offset] at moved
  cases h with
  | begun =>
    cases job with
    | reply _ _ x =>
      obtain rfl : x = .ok i := by
        rw [world.reply (by simp), World.answer, Bus.committed, Bus.known, if_pos inside, offset]
        rfl
      exact ⟨i, .read (.there (.reply _ _ _) (.here _)), moved⟩
  | read path =>
    rcases Job.after_ask_iff.mp path with ⟨same, -⟩ | ⟨x, tr', same, path'⟩
    · cases same
    cases same
    cases path' with
    | here =>
      cases job with
      | reply _ _ x =>
        obtain rfl : x = .ok (r?.map (Bus.delivered c.topic p i)) := by
          rw [world.reply (by simp), World.answer, Bus.fetch, Bus.known, if_pos inside, record]
          rfl
        cases r? with
        | none => exact ⟨i, .dry rfl, moved⟩
        | some r => exact ⟨i, .attending rfl (.here _) rfl (Nat.le_succ i) (by simp), moved⟩
  | dry => cases job
  | @attending r n tr j found path moves near accepted =>
    have owns : (c.attempt signal (Bus.delivered c.topic p i r) (c.config.maxAttempts - 1) 1
        c.config.backoff).Asks fun r' => c.Concerns r' → c.Own (Bus.delivered c.topic p i r) r' :=
      attempt_owns discreet ..
    have asked {r' : Request} {x : r'.Reply} (same : e = .reply r' x)
        (concerns : c.Concerns r') : c.Own (Bus.delivered c.topic p i r) r' := by
      subst same
      have mem : .reply r' x ∈ tr ++ [.reply r' x] := by simp
      exact owns.of_mem (path.snoc job) mem concerns
    have marks : ∀ k ∈ e.done?.toList.flatMap (Request.marks c.group c.topic p), k = i + 1 := by
      intro k mem
      obtain ⟨r', done, mark⟩ := List.mem_flatMap.mp mem
      obtain ⟨x, same⟩ := Encounter.done?_reply (Option.mem_toList.mp done)
      obtain rfl := Request.eq_commit_of_mark mark
      exact ((asked same (.commit p k)).marks mark).2
    have near' := getLastD_le near fun k mem => Nat.le_of_eq (marks k mem)
    refine ⟨_, .attending found (path.snoc job) ?_ near' ?_, moved⟩
    · show _ = ((Trace.done (tr ++ [e])).flatMap _).getLastD i
      rw [Trace.done_append, List.flatMap_append, getLastD_append, ← moves, Trace.done_singleton]
    · intro q k e' mem
      rcases List.mem_append.mp mem with mem | mem
      · exact accepted q k e' mem
      · obtain rfl := List.mem_singleton.mp mem
        cases asked rfl (.commit q k) with
        | commit =>
          obtain ⟨v, told, -⟩ := World.answer_commit inside (offset ▸ near)
          have reply := (world.reply (by simp)).trans (congrArg Prod.fst told)
          cases reply

end Underway

theorem IsDiscreet.marks (discreet : c.IsDiscreet) (m : Bus.Message) (p : Nat) :
    c.Handles signal m fun r => r.marks c.group c.topic p = [] := by
  refine fun history number => (discreet history _ signal).mono fun r abroad => ?_
  refine List.eq_nil_iff_forall_not_mem.mpr fun k mark => abroad ?_
  rw [Request.eq_commit_of_mark mark]
  exact .commit p k

theorem IsDiscreet.hands (discreet : c.IsDiscreet) (m : Bus.Message) (p : Nat) :
    c.Handles signal m fun r => r.hands c.group c.topic p = [] := by
  refine fun history number => (discreet history _ signal).mono fun r abroad => ?_
  cases r with
  | deliver g m' =>
    refine if_neg fun about => abroad ?_
    obtain ⟨rfl, topic, -⟩ := about
    exact .deliver m' topic
  | _ => rfl

namespace Underway

/-- A poll that is over found nothing, or it has attended to the record. -/
theorem at_end (discreet : c.IsDiscreet) (h : c.Underway signal p i r? n tr j)
    (finished : j.IsOver) :
    (r? = none ∧ n = i ∧ tr.done = [] ∧ j = .done (.ok false)) ∨
    ∃ r xs ending, ∃ rest : Trace, r? = some r ∧
      tr = .reply (.committed c.group c.topic p) (.ok i) ::
        .reply (.fetch c.topic p i) (.ok (some (Bus.delivered c.topic p i r))) :: rest ∧
      c.Attempts signal (Bus.delivered c.topic p i r) (c.config.maxAttempts - 1) 1
        c.config.backoff xs ending rest ∧
      j = .lift ending.result ∧ (n = if ending.isSettled then i + 1 else i) ∧
      (∀ e, ending ≠ .refused e) ∧ ∀ position e, ending ≠ .unmoved position e := by
  cases h with
  | begun => exact finished.elim
  | read path =>
    rcases Job.after_ask_iff.mp path with ⟨same, -⟩ | ⟨x, tr', same, path'⟩
    · cases same
    cases same
    cases path' with
    | here => exact finished.elim
  | dry nothing => exact .inl ⟨nothing, rfl, rfl, rfl⟩
  | @attending r n tr j found path moved near accepted =>
    obtain ⟨xs, ending, attempts, result⟩ := attempt_over path finished
    refine .inr ⟨r, xs, ending, tr, found, rfl, attempts, result, ?_, ?_⟩
    · have marks : tr.done.flatMap (Request.marks c.group c.topic p) =
          if ending.isSettled then [i + 1] else [] :=
        (attempts.view (discreet.marks _ p)).trans
          (deeds_marks (m := Bus.delivered c.topic p i r) 1 _)
      rw [moved, marks]
      split <;> rfl
    · obtain ⟨left, backoff, x, tr₁, tr₂, rfl, closes⟩ := attempts.closing
      have unstuck {e : Bus.Error}
          (stuck : ending = .refused e ∨ ∃ position, ending = .unmoved position e) : False :=
        accepted p (i + 1) e (List.mem_append_right _ (closes.mem_of_stuck stuck))
      exact ⟨fun e same => unstuck (.inl same),
        fun position e same => unstuck (.inr ⟨position, same⟩)⟩

end Underway
end Consumer
end Shipyard

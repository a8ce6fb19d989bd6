import Shipyard.Proofs.Fulfilment.Builds

/-!
# Counters and orders

The counters of the order service are moved by hand, on some of the ways that its operations take.
Here each of them is held against a figure that can be read off from the store. What a call has
counted and what it has changed may differ while the call is at work; when the call is over they
are the same, whichever way it took, and so they are the same for all calls together.
-/

namespace Shipyard

namespace Table

variable {κ ν : Type} [DecidableEq κ]

theorem sum_putIn (f : ν → Nat) (k : κ) (v : ν) (es : List (κ × ν)) :
    ((putIn k v es).map fun e => f e.2).sum + ((findIn k es).map f).getD 0 =
      (es.map fun e => f e.2).sum + f v := by
  induction es with
  | nil => simp [putIn, findIn]
  | cons e rest ih =>
    obtain ⟨k', v'⟩ := e
    by_cases same : k' = k
    · simp only [putIn, findIn, same, if_true, List.map_cons, List.sum_cons, Option.map_some,
        Option.getD_some]
      omega
    · simp only [putIn, findIn, same, if_false, List.map_cons, List.sum_cons]
      omega

theorem sum_values_put (f : ν → Nat) (t : Table κ ν) (k : κ) (v : ν) :
    ((t.put k v).values.map f).sum + ((t.find? k).map f).getD 0 =
      (t.values.map f).sum + f v := by
  have total := sum_putIn f k v t.entries
  simpa [values, put, find?, Function.comp_def] using total

end Table

/-! ## Figures of orders -/

namespace Order

/-- How many orders a change cancels. -/
def Change.cancels : Change → Nat
  | .paid _ _ => 0
  | .assembled => 0
  | .cancelled => 1

def isCancelled (o : Order) : Bool := o.status = .cancelled

theorem apply_cancels {o o' : Order} {c : Change} {now : Instant} (h : o.apply c now = .ok o') :
    o'.isCancelled.toNat = o.isCancelled.toNat + c.cancels := by
  obtain ⟨allowed, rfl⟩ := apply_ok h
  revert allowed
  cases c <;> cases status : o.status <;>
    simp [Change.target, Change.cancels, isCancelled, status, Status.canBecome, Status.canPay,
      Status.canAssemble, Status.canCancel]

/-- What an order has brought in by a method of payment: a negative total brings in nothing. -/
def revenueBy (m : PaymentMethod) (o : Order) : Nat :=
  if o.status.isSettled ∧ o.method = some m then (max o.total.cents 0).toNat else 0

/-- What a change brings in by a method of payment, if it leads to an order. -/
def Change.earns (m : PaymentMethod) (o : Order) : Change → Nat
  | .paid _ m' => if m' = m then Fulfilment.revenue o.total else 0
  | .assembled => 0
  | .cancelled => 0

/-- Just that is counted. -/
theorem revenue_eq (amount : Money) : Fulfilment.revenue amount = (max amount.cents 0).toNat := by
  rw [Fulfilment.revenue]
  omega

theorem apply_earns {m : PaymentMethod} {o o' : Order} {c : Change} {now : Instant}
    (h : o.apply c now = .ok o') : o'.revenueBy m = o.revenueBy m + c.earns m o' := by
  obtain ⟨allowed, rfl⟩ := apply_ok h
  revert allowed
  cases c with
  | paid t m' =>
    intro allowed
    have pending : o.status = .pendingPayment := by
      simpa [Change.target, Status.canBecome, Status.canPay] using allowed
    simp [revenueBy, Change.earns, revenue_eq, settle, Change.target, pending, Status.isSettled]
  | assembled =>
    intro allowed
    have paid : o.status = .paid := by
      simpa [Change.target, Status.canBecome, Status.canAssemble] using allowed
    simp [revenueBy, Change.earns, settle, Change.target, paid, Status.isSettled]
  | cancelled =>
    intro allowed
    have pending : o.status = .pendingPayment := by
      simpa [Change.target, Status.canBecome, Status.canCancel] using allowed
    simp [revenueBy, Change.earns, settle, Change.target, pending, Status.isSettled]

end Order

/-- A figure that each order has, and what a change that leads to an order adds to it. -/
structure Figure where
  of : Order → Nat
  added : Order.Change → Order → Nat
  apply_add : ∀ {o o' : Order} {c : Order.Change} {now : Instant}, o.apply c now = .ok o' →
    of o' = of o + added c o'

namespace Figure

def stored : Figure where
  of _ := 1
  added _ _ := 0
  apply_add _ := rfl

def settled : Figure where
  of o := o.status.isSettled.toNat
  added c _ := c.settles
  apply_add := Order.apply_settles

def cancelled : Figure where
  of o := o.isCancelled.toNat
  added c _ := c.cancels
  apply_add := Order.apply_cancels

def assembled : Figure where
  of o := o.isAssembled.toNat
  added c _ := c.assembles
  apply_add := Order.apply_assembles

def earned (m : PaymentMethod) : Figure where
  of o := o.revenueBy m
  added c o := c.earns m o
  apply_add := Order.apply_earns

/-- The figure that a counter is to show. -/
inductive Shown : Figure → Meter.Counter → Prop
  | stored : Shown stored (.orders .created)
  | settled : Shown settled (.orders .paid)
  | cancelled : Shown cancelled (.orders .cancelled)
  | assembled : Shown assembled (.orders .assembled)
  | earned (m : PaymentMethod) : Shown (earned m) (.revenue m)

/-- What has to be counted after a change that leads to an order. -/
def dues (o : Order) : Order.Change → List (Meter.Counter × Nat)
  | .paid _ m => [(.orders .paid, 1), (.revenue m, Fulfilment.revenue o.total)]
  | .assembled => [(.orders .assembled, 1)]
  | .cancelled => [(.orders .cancelled, 1)]

theorem Shown.added {f : Figure} {c : Meter.Counter} (h : Shown f c) (change : Order.Change)
    (o : Order) :
    f.added change o = ((dues o change).map fun d => if d.1 = c then d.2 else 0).sum := by
  cases h <;> cases change <;>
    simp [Figure.stored, Figure.settled, Figure.cancelled, Figure.assembled, Figure.earned, dues,
      Order.Change.settles, Order.Change.cancels, Order.Change.assembles, Order.Change.earns]

theorem Shown.ne_failures {f : Figure} {c : Meter.Counter} (h : Shown f c) (t : Topic) :
    .publishFailures t ≠ c := by
  cases h <;> simp

/-- What an encounter adds to the sum of a figure over all orders. -/
def gain (f : Figure) : Encounter → Nat
  | .reply (.insertOrder o) (.ok _) => f.of o
  | .reply (.changeOrder _ _ c) (.ok o) => f.added c o
  | _ => 0

theorem gain_of_none {e : Encounter} (none : e.write? = none) (f : Figure) : f.gain e = 0 := by
  cases e with
  | woken => rfl
  | reply r x =>
    cases r with
    | insertOrder o =>
      cases x with
      | error e => rfl
      | ok => cases none
    | changeOrder id expected c =>
      cases x with
      | error e => rfl
      | ok o => cases none
    | _ => rfl

end Figure

namespace World

/-- The sum of a figure over all orders. -/
def total (w : World) (f : Figure) : Nat := (w.store.orders.values.map f.of).sum

theorem Meets.total {w w' : World} {e : Encounter} (h : w.Meets e w') (f : Figure) :
    w'.total f = w.total f + f.gain e := by
  unfold World.total
  cases write : e.write? with
  | none => rw [h.unwritten write, f.gain_of_none write, Nat.add_zero]
  | some x =>
    obtain ⟨wrote, orders⟩ := h.wrote write
    have put := Table.sum_values_put f.of w.store.orders x.id x.order
    have gained : f.of x.order = ((w.store.orders.find? x.id).map f.of).getD 0 + f.gain e := by
      cases wrote with
      | inserted o fresh => simp [fresh, Figure.gain]
      | changed found applied => simpa [found, Figure.gain] using f.apply_add applied
    rw [orders]
    omega

end World

theorem Yard.Reachable.total {may : World → Call → Prop} {y : Yard} (h : Reachable may y)
    (f : Figure) :
    y.world.total f = (y.threads.map fun t => (t.trace.map f.gain).sum).sum :=
  h.accounts (f := fun w => w.total f) (fun _ _ _ => rfl) (fun w x => by cases x <;> rfl)
    fun _ _ _ met => met.total f

/-! ## What a call has counted -/

/-- An encounter that no counter of orders has to do with. -/
structure Encounter.IsUncounted (e : Encounter) : Prop where
  gain : ∀ f : Figure, f.gain e = 0
  counts : ∀ c, e.counts c = 0
  records : e.records .paid = 0

/-- All that was done to orders was counted, and what was paid was announced or counted as not
announced. -/
structure Trace.IsTallied (tr : Trace) : Prop where
  figures : ∀ {f c}, Figure.Shown f c →
    (tr.map f.gain).sum = (tr.map (Encounter.counts c)).sum
  announced : (tr.map Figure.settled.gain).sum = (tr.map (Encounter.records .paid)).sum +
    (tr.map (Encounter.counts (.publishFailures .paid))).sum

namespace Trace

variable {tr tr' : Trace}

theorem isTallied_of_uncounted (idle : ∀ e ∈ tr, e.IsUncounted) : tr.IsTallied := by
  have gain (f : Figure) : (tr.map f.gain).sum = 0 :=
    sum_eq_zero fun e mem => (idle e mem).gain f
  have counts (c : Meter.Counter) : (tr.map (Encounter.counts c)).sum = 0 :=
    sum_eq_zero fun e mem => (idle e mem).counts c
  have records : (tr.map (Encounter.records .paid)).sum = 0 :=
    sum_eq_zero fun e mem => (idle e mem).records
  constructor
  · intro f c _
    rw [gain, counts]
  · rw [gain, counts, records]

theorem IsTallied.append (h : tr.IsTallied) (h' : tr'.IsTallied) : (tr ++ tr').IsTallied := by
  constructor
  · intro f c shown
    have first := h.figures shown
    have second := h'.figures shown
    simp only [List.map_append, List.sum_append]
    omega
  · have first := h.announced
    have second := h'.announced
    simp only [List.map_append, List.sum_append]
    omega

end Trace

/-- What is asked while parts are priced. -/
def Request.isPricing : Request → Bool
  | .clock => true
  | .askStock _ => true
  | _ => false

theorem Encounter.isUncounted_of_pricing {r : Request} (pricing : r.isPricing = true)
    (x : r.Reply) : IsUncounted (.reply r x) := by
  cases r with
  | clock => exact ⟨fun _ => rfl, fun _ => rfl, rfl⟩
  | askStock id => exact ⟨fun _ => rfl, fun _ => rfl, rfl⟩
  | _ => cases pricing

theorem Job.After.uncounted {α : Type} {j k : Job α} {tr : Trace} (path : j.After tr k)
    (pricing : j.Asks fun r => r.isPricing = true) : ∀ e ∈ tr, e.IsUncounted := by
  intro e mem
  cases e with
  | woken wake signal x => exact ⟨fun _ => rfl, fun _ => rfl, rfl⟩
  | reply r x => exact Encounter.isUncounted_of_pricing (pricing.of_mem path mem) x

namespace Fulfilment

theorem lookUp_pricing (deadline : Span) (id : PartId) (late : Except ServiceError Part) :
    ((ServiceCalls.direct.lookUp id).within deadline late).Asks fun r => r.isPricing = true := by
  have lookUp : (ServiceCalls.direct.lookUp id).Asks fun r => r.isPricing = true :=
    ⟨rfl, fun _ => ServiceCalls.late_asks rfl trivial⟩
  exact ⟨rfl, fun _ => lookUp.upTo⟩

/-- Storing a priced order. -/
inductive Placing (user : UserId) (parts : List PartId) (method : Option PaymentMethod)
    (total : Money) : Trace → Job (Except Error Order) → Prop
  | begun (k) : Placing user parts method total [] (.ask .mint k)
  | named (u : Uuid) (k) : Placing user parts method total [.reply .mint u] (.ask .calendar k)
  | dated (u : Uuid) (now : Instant) (k) : Placing user parts method total
      [.reply .mint u, .reply .calendar now]
      (.ask (.insertOrder (.fresh ⟨u⟩ user parts total method now)) k)
  | refused (u : Uuid) (now : Instant) (e : Store.Error) : Placing user parts method total
      [.reply .mint u, .reply .calendar now,
        .reply (.insertOrder (.fresh ⟨u⟩ user parts total method now)) (.error e)]
      (.done (.error (.store e)))
  | stored (u : Uuid) (now : Instant) (k) : Placing user parts method total
      [.reply .mint u, .reply .calendar now,
        .reply (.insertOrder (.fresh ⟨u⟩ user parts total method now)) (.ok ())]
      (.ask (.count (.orders .created) 1) k)
  /-- The total may have no text. -/
  | counted (u : Uuid) (now : Instant) (j) : Placing user parts method total
      [.reply .mint u, .reply .calendar now,
        .reply (.insertOrder (.fresh ⟨u⟩ user parts total method now)) (.ok ()),
        .reply (.count (.orders .created) 1) ()] j

variable {user : UserId} {parts : List PartId} {method : Option PaymentMethod} {total : Money}
  {deadline : Span} {tr : Trace}

theorem place_course {j : Job (Except Error Order)}
    (h : (place user parts method total).After tr j) : Placing user parts method total tr j := by
  rcases Job.after_ask_iff.mp h with ⟨rfl, rfl⟩ | ⟨u, tr, rfl, h₁⟩
  · exact .begun _
  rcases Job.after_ask_iff.mp h₁ with ⟨rfl, rfl⟩ | ⟨now, tr, rfl, h₂⟩
  · exact .named u _
  rcases Job.after_ask_iff.mp h₂ with ⟨rfl, rfl⟩ | ⟨x, tr, rfl, h₃⟩
  · exact .dated u now _
  cases x with
  | error e =>
    obtain ⟨rfl, rfl⟩ := Job.after_done_iff.mp h₃
    exact .refused u now e
  | ok =>
    rcases Job.after_ask_iff.mp h₃ with ⟨rfl, rfl⟩ | ⟨⟨⟩, tr, rfl, h₄⟩
    · exact .stored u now _
    cases text : total.text with
    | error f =>
      simp only [text] at h₄
      obtain ⟨rfl, rfl⟩ := Job.after_fault_iff.mp h₄
      exact .counted u now _
    | ok s =>
      simp only [text] at h₄
      obtain ⟨rfl, rfl⟩ := Job.after_done_iff.mp h₄
      exact .counted u now _

/-- An order is counted as created when it was stored. -/
theorem Placing.isTallied {tr' : Trace} {j : Job (Except Error Order)}
    (h : Placing user parts method total tr j)
    (past : Thread.isOver ⟨.create deadline user parts method, tr', j⟩ = true) :
    tr.IsTallied := by
  cases h with
  | refused u now e =>
    refine Trace.isTallied_of_uncounted fun e' mem => ?_
    simp only [List.mem_cons, List.not_mem_nil, or_false] at mem
    rcases mem with rfl | rfl | rfl <;> exact ⟨fun _ => rfl, fun _ => rfl, rfl⟩
  | counted u now =>
    constructor
    · intro f c shown
      cases shown <;>
        simp [Figure.gain, Encounter.counts, Figure.stored, Figure.settled, Figure.cancelled,
          Figure.assembled, Figure.earned, Order.fresh, Order.Status.isSettled, Order.isCancelled,
          Order.isAssembled, Order.revenueBy]
    · simp [Figure.gain, Encounter.counts, Encounter.records, Encounter.publication?,
        Figure.settled, Order.fresh, Order.Status.isSettled]
  | _ => cases past

/-- The parts are priced first, which may be all. -/
theorem price_course {next : Money → Job (Except Error Order)} {j : Job (Except Error Order)}
    (h : (price .direct deadline next total parts).After tr j) :
    (∀ e ∈ tr, e.IsUncounted) ∨ ∃ before after total', tr = before ++ after ∧
      (∀ e ∈ before, e.IsUncounted) ∧ (next total').After after j := by
  induction parts generalizing total tr with
  | nil => exact .inr ⟨[], tr, total, rfl, by simp, h⟩
  | cons id parts ih =>
    have pricing := lookUp_pricing deadline id (.error (.timeout deadline))
    rcases Job.after_bind h with ⟨k, path, -⟩ | ⟨x, tr₁, tr₂, rfl, path, rest⟩
    · exact .inl (path.uncounted pricing)
    have first := path.uncounted pricing
    cases x with
    | error e =>
      obtain ⟨rfl, -⟩ := Job.after_done_iff.mp rest
      exact .inl (by simpa using first)
    | ok part =>
      dsimp only at rest
      split at rest
      · cases sum : total.add part.price with
        | error f =>
          simp only [sum] at rest
          obtain ⟨rfl, -⟩ := Job.after_fault_iff.mp rest
          exact .inl (by simpa using first)
        | ok total' =>
          simp only [sum] at rest
          rcases ih rest with second | ⟨before, after, sum, rfl, second, last⟩
          · exact .inl (List.forall_mem_append.mpr ⟨first, second⟩)
          · refine .inr ⟨tr₁ ++ before, after, sum, by simp, ?_, last⟩
            exact List.forall_mem_append.mpr ⟨first, second⟩
      · obtain ⟨rfl, -⟩ := Job.after_done_iff.mp rest
        exact .inl (by simpa using first)

theorem create_tallied {j : Job (Except Error Order)}
    (h : (create .direct deadline user parts method).After tr j)
    (past : Thread.isOver ⟨.create deadline user parts method, tr, j⟩ = true) : tr.IsTallied := by
  rw [create] at h
  split at h
  · obtain ⟨rfl, -⟩ := Job.after_done_iff.mp h
    exact Trace.isTallied_of_uncounted (by simp)
  · rcases price_course h with idle | ⟨before, after, total, rfl, idle, placed⟩
    · exact Trace.isTallied_of_uncounted idle
    · have placing : after.IsTallied := (place_course placed).isTallied past
      exact (Trace.isTallied_of_uncounted idle).append placing

/-- The mark of a payment and what came of it: the order and what it brings in are counted, and the
payment is announced or counted as not announced. -/
theorem Announcing.isTallied {id : OrderId} {m : PaymentMethod} {t : TransactionId} {o : Order}
    {tr' : Trace} {j : Job (Except Error TransactionId)} (h : Announcing m t o tr j)
    (past : Thread.isOver ⟨.pay deadline id m, tr', j⟩ = true) :
    Trace.IsTallied (.reply (.changeOrder id .pendingPayment (.paid t m)) (.ok o) :: tr) := by
  cases h with
  | announced u p =>
    constructor
    · intro f c shown
      simp [Figure.gain, shown.added, Figure.dues, Encounter.counts]
    · simp [Figure.gain, Encounter.counts, Encounter.records, Encounter.publication?,
        Figure.settled, Order.Change.settles]
  | unannounced u e =>
    constructor
    · intro f c shown
      simp [Figure.gain, shown.added, Figure.dues, Encounter.counts, shown.ne_failures]
    · simp [Figure.gain, Encounter.counts, Encounter.records, Encounter.publication?,
        Figure.settled, Order.Change.settles]
  | _ => cases past

theorem Paying.isTallied {id : OrderId} {m : PaymentMethod} {j : Job (Except Error TransactionId)}
    (h : Paying id m tr j) (past : Thread.isOver ⟨.pay deadline id m, tr, j⟩ = true) :
    tr.IsTallied := by
  have charging (o : Order) (now : Nat) (u : Uuid) : (toCharge id m o now u).IsTallied := by
    constructor <;> simp [toCharge, Figure.gain, Encounter.counts, Encounter.records,
      Encounter.publication?]
  cases h with
  | won o now u o' rest => exact (charging o now u).append (rest.isTallied past)
  | aborted o now u f => exact charging o now u
  | charged o now u k => cases past
  | lost o now u e =>
    refine (charging o now u).append ?_
    constructor <;> simp [Figure.gain, Encounter.counts, Encounter.records, Encounter.publication?]
  | _ =>
    constructor <;> simp [Figure.gain, Encounter.counts, Encounter.records, Encounter.publication?]

theorem Cancelling.isTallied {id : OrderId} {j : Job (Except Error Unit)}
    (h : Cancelling id tr j) (past : Thread.isOver ⟨.cancel id, tr, j⟩ = true) :
    tr.IsTallied := by
  cases h with
  | cancelled o =>
    constructor
    · intro f c shown
      simp [Figure.gain, shown.added, Figure.dues, Encounter.counts]
    · simp [Figure.gain, Encounter.counts, Encounter.records, Encounter.publication?,
        Figure.settled, Order.Change.settles]
  | changed o k => cases past
  | _ =>
    constructor <;> simp [Figure.gain, Encounter.counts, Encounter.records, Encounter.publication?]

theorem Completing.isTallied {b : BuildCompleted} {j : Job (Except HandlerError BuildOutcome)}
    (h : Completing b.order tr j) (past : Thread.isOver ⟨.complete b, tr, j⟩ = true) :
    tr.IsTallied := by
  cases h with
  | assembled o paid o' =>
    constructor
    · intro f c shown
      simp [Figure.gain, shown.added, Figure.dues, Encounter.counts]
    · simp [Figure.gain, Encounter.counts, Encounter.records, Encounter.publication?,
        Figure.settled, Order.Change.settles]
  | changed o paid o' k => cases past
  | _ =>
    constructor <;> simp [Figure.gain, Encounter.counts, Encounter.records, Encounter.publication?]

end Fulfilment

/-- Publishing on another topic than that of payments. -/
theorem Call.publish_tallied {t : Topic} (other : t ≠ .paid) {key : String} {payload : Bytes}
    {tr : Trace} {j : Job (Call.publish t key payload).Result}
    (h : (Call.publish t key payload).job.After tr j) : tr.IsTallied := by
  rcases Job.after_ask_iff.mp h with ⟨rfl, -⟩ | ⟨x, tr, rfl, rest⟩
  · exact Trace.isTallied_of_uncounted (by simp)
  · obtain ⟨rfl, -⟩ := Job.after_done_iff.mp rest
    refine Trace.isTallied_of_uncounted fun e mem => ?_
    obtain rfl := List.mem_singleton.mp mem
    refine ⟨fun _ => rfl, fun _ => rfl, ?_⟩
    cases x with
    | error e => rfl
    | ok p => simp [Encounter.records, Encounter.publication?, other]

/-! ## What all calls have counted -/

namespace World

/-- How many orders have come to a milestone. -/
def reached (w : World) : Meter.Milestone → Nat
  | .created => w.store.orders.values.length
  | .paid => w.settledCount
  | .cancelled => w.store.orders.values.countP Order.isCancelled
  | .assembled => w.assembledCount

/-- What the paid orders have brought in by a method of payment. -/
def revenue (w : World) (m : PaymentMethod) : Nat :=
  (w.store.orders.values.map (Order.revenueBy m)).sum

theorem reached_le_created (w : World) (m : Meter.Milestone) :
    w.reached m ≤ w.reached .created := by
  cases m with
  | created => exact Nat.le_refl _
  | paid => exact List.countP_le_length
  | cancelled => exact List.countP_le_length
  | assembled => exact List.countP_le_length

/-- The figure of a counter of orders is a number of orders. -/
theorem total_reached (w : World) {f : Figure} {m : Meter.Milestone}
    (shown : f.Shown (.orders m)) : w.total f = w.reached m := by
  cases shown with
  | stored => simp [total, reached, Figure.stored]
  | settled => exact Yard.sum_toNat (fun o => o.status.isSettled) w.store.orders.values
  | cancelled => exact Yard.sum_toNat Order.isCancelled w.store.orders.values
  | assembled => exact Yard.sum_toNat Order.isAssembled w.store.orders.values

end World

namespace Yard

/-- Order operations, completions of builds, and publications on other topics than that of payments
may begin at any time. -/
abbrev Accounting : World → Call → Prop := fun w c =>
  Building w c ∨ ∃ t key payload, c = .publish t key payload ∧ t ≠ .paid

variable {y : Yard}

theorem Reachable.isTallied (h : Reachable Accounting y) {t : Thread} (mem : t ∈ y.threads)
    (past : t.isOver = true) : t.trace.IsTallied := by
  have path := h.coherent t mem
  obtain ⟨_, _, _, (ordering | ⟨b, same⟩) | ⟨topic, key, payload, same, other⟩⟩ := h.begun t mem
  · obtain ⟨call, tr, j⟩ := t
    dsimp only at ordering path past ⊢
    cases ordering with
    | create deadline user parts method => exact Fulfilment.create_tallied path past
    | pay deadline id method => exact (Fulfilment.pay_course path).isTallied past
    | cancel id => exact (Fulfilment.cancel_course path).isTallied past
  · obtain ⟨call, tr, j⟩ := t
    dsimp only at same path past ⊢
    subst same
    exact (Fulfilment.complete_course path).isTallied past
  · obtain ⟨call, tr, j⟩ := t
    dsimp only at same path ⊢
    subst same
    exact Call.publish_tallied other path

section Over

variable (h : Reachable Accounting y) (past : ∀ t ∈ y.threads, t.isOver = true)
  (on : y.world.meter.enabled = true)

include h past on

/-- When all calls are over, a counter shows its figure. -/
theorem Reachable.figure_counted {f : Figure} {c : Meter.Counter} (shown : f.Shown c) :
    y.world.meter.count c = y.world.total f % 0x10000000000000000 := by
  have each : (y.threads.map fun t => (t.trace.map (Encounter.counts c)).sum) =
      y.threads.map fun t => (t.trace.map f.gain).sum :=
    List.map_congr_left fun t mem => ((h.isTallied mem (past t mem)).figures shown).symm
  rw [h.counts c on, h.total f, each]

theorem Reachable.orders_counted (m : Meter.Milestone) :
    y.world.meter.count (.orders m) = y.world.reached m % 0x10000000000000000 := by
  obtain ⟨f, shown⟩ : ∃ f, Figure.Shown f (.orders m) := by
    cases m with
    | created => exact ⟨_, .stored⟩
    | paid => exact ⟨_, .settled⟩
    | cancelled => exact ⟨_, .cancelled⟩
    | assembled => exact ⟨_, .assembled⟩
  rw [h.figure_counted past on shown, y.world.total_reached shown]

/-- The orders that are paid are those that were announced and those whose announcement failed. -/
theorem Reachable.announcements_counted :
    ∃ n, y.world.settledCount = y.world.bus.count .paid + n ∧
      y.world.meter.count (.publishFailures .paid) = n % 0x10000000000000000 := by
  have each : (y.threads.map fun t => (t.trace.map Figure.settled.gain).sum) =
      y.threads.map fun t => (t.trace.map (Encounter.records .paid)).sum +
        (t.trace.map (Encounter.counts (.publishFailures .paid))).sum :=
    List.map_congr_left fun t mem => (h.isTallied mem (past t mem)).announced
  have total := h.total Figure.settled
  rw [y.world.total_reached .settled, each, List.sum_map_add, ← h.records] at total
  exact ⟨_, total, h.counts _ on⟩

end Over

/-- When all calls are over, the counters agree with the store: each milestone was counted once for
each order that has come to it, the revenue is that of the paid orders, and each of these has its
record unless a failure to publish it was counted. Counters wrap, but not while fewer orders are
stored than a counter can show. -/
theorem counters_agree (h : Reachable Accounting y) (past : ∀ t ∈ y.threads, t.isOver = true)
    (on : y.world.meter.enabled = true) :
    (∀ m, y.world.meter.count (.orders m) = y.world.reached m % 0x10000000000000000) ∧
    (∀ m, y.world.meter.count (.revenue m) = y.world.revenue m % 0x10000000000000000) ∧
    (y.world.meter.count (.publishFailures .paid) + y.world.bus.count .paid) %
      0x10000000000000000 = y.world.meter.count (.orders .paid) ∧
    (y.world.store.orders.values.length < 0x10000000000000000 →
      (∀ m, y.world.meter.count (.orders m) = y.world.reached m) ∧
      y.world.meter.count (.publishFailures .paid) + y.world.bus.count .paid =
        y.world.meter.count (.orders .paid)) := by
  have orders := h.orders_counted past on
  obtain ⟨n, announced, failures⟩ := h.announcements_counted past on
  have paid : y.world.meter.count (.orders .paid) = y.world.settledCount % 0x10000000000000000 :=
    orders .paid
  refine ⟨orders, fun m => h.figure_counted past on (.earned m), ?_, fun few => ⟨fun m => ?_, ?_⟩⟩
  · rw [paid, announced, failures]
    omega
  · have bound : y.world.reached m ≤ y.world.store.orders.values.length :=
      y.world.reached_le_created m
    rw [orders m]
    exact Nat.mod_eq_of_lt (bound.trans_lt few)
  · have bound : y.world.settledCount ≤ y.world.store.orders.values.length :=
      y.world.reached_le_created .paid
    rw [paid, failures]
    omega

/-- Four orders are taken, one of them for a voucher, whose price is negative. One is paid and
assembled; the voucher is paid while the bus is down; one is cancelled, and one is left as it is. -/
def fourOrders : List Act :=
  let bolt : Part := ⟨⟨"bolt"⟩, "Bolt", ⟨300, by decide⟩, 3⟩
  let voucher : Part := ⟨⟨"voucher"⟩, "Voucher", ⟨-70, by decide⟩, 1⟩
  let taking (part : Part) (method : Option PaymentMethod) (i : Nat) : List Act :=
    .begin (.create (.ofSeconds 5) ⟨"u"⟩ [part.id] method) :: List.replicate 6 (.move i)
  [.flip (.stock { Stock.empty with
    parts := (Table.empty.put bolt.id bolt).put voucher.id voucher })] ++
    taking bolt none 0 ++ taking voucher (some .card) 1 ++ taking bolt none 2 ++
    taking bolt (some .sbp) 3 ++
    [.begin (.pay (.ofSeconds 5) firstOrder .card)] ++ List.replicate 9 (.move 4) ++
    [.flip (.bus true), .begin (.pay (.ofSeconds 5) secondOrder .sbp)] ++
    List.replicate 10 (.move 5) ++
    [.begin (.cancel ⟨World.mintedUuid 3⟩), .move 6, .move 6,
      .begin (.complete (built firstOrder)), .move 7, .move 7, .move 7,
      .begin (.cancel firstOrder), .move 8]

theorem counters_agree_four_orders :
    let y := (Yard.empty 1 true ⟨0, 0, 0⟩).play fourOrders
    y.threads.length = 9 ∧ (∀ t ∈ y.threads, t.isOver = true) ∧
      y.world.meter.count (.orders .created) = 4 ∧ y.world.meter.count (.orders .paid) = 2 ∧
      y.world.meter.count (.orders .cancelled) = 1 ∧
      y.world.meter.count (.orders .assembled) = 1 ∧
      y.world.meter.count (.revenue .card) = 300 ∧ y.world.meter.count (.revenue .sbp) = 0 ∧
      y.world.meter.count (.publishFailures .paid) = 1 ∧ y.world.bus.count .paid = 1 := by
  intro y
  have reached : Reachable Accounting y := by
    refine Reachable.play (.empty 1 true ⟨0, 0, 0⟩) fun w c mem => ?_
    simp only [fourOrders, List.mem_append, List.mem_cons, List.mem_replicate, Act.begin.injEq,
      reduceCtorEq, List.not_mem_nil, and_false, false_or, or_false, or_assoc] at mem
    rcases mem with rfl | rfl | rfl | rfl | rfl | rfl | rfl | rfl | rfl
    · exact .inl (.inl (.create _ _ _ _))
    · exact .inl (.inl (.create _ _ _ _))
    · exact .inl (.inl (.create _ _ _ _))
    · exact .inl (.inl (.create _ _ _ _))
    · exact .inl (.inl (.pay _ _ _))
    · exact .inl (.inl (.pay _ _ _))
    · exact .inl (.inl (.cancel _))
    · exact .inl (.inr ⟨_, rfl⟩)
    · exact .inl (.inl (.cancel _))
  have past : ∀ t ∈ y.threads, t.isOver = true := by decide +kernel
  obtain ⟨-, revenue, -, exact⟩ := counters_agree reached past (by decide +kernel)
  obtain ⟨orders, announced⟩ := exact (by decide +kernel)
  have failures : y.world.meter.count (.publishFailures .paid) = 1 := by decide +kernel
  have records : y.world.bus.count .paid = 1 := by decide +kernel
  have created : y.world.reached .created = 4 := by decide +kernel
  have cancelled : y.world.reached .cancelled = 1 := by decide +kernel
  have assembled : y.world.reached .assembled = 1 := by decide +kernel
  have card : y.world.revenue .card = 300 := by decide +kernel
  have sbp : y.world.revenue .sbp = 0 := by decide +kernel
  refine ⟨by decide +kernel, past, ?_, ?_, ?_, ?_, ?_, ?_, failures, records⟩
  · rw [orders, created]
  · rw [← announced, failures, records]
  · rw [orders, cancelled]
  · rw [orders, assembled]
  · rw [revenue, card]
  · rw [revenue, sbp]

end Yard
end Shipyard

import Shipyard.Job

/-!
# Calling services

How a part is looked up, an order charged, and its status changed. `direct` asks the services and
the store; `planned` lets a drill come between.
-/

namespace Shipyard

structure ServiceCalls where
  lookUp : PartId → Job (Except ServiceError Part)
  charge : OrderId → UserId → PaymentMethod → Money → Job (Except ServiceError TransactionId)
  change : OrderId → Order.Status → Order.Change → Job (Except Store.Error Order)

namespace ServiceCalls

/-- An answer that comes after a while. -/
def late {α : Type} (delay : Option Span) (j : Job α) : Job α :=
  match delay with
  | none => j
  | some s => (Job.sleep s none).bind fun _ => j

namespace Direct

/-- The stock decides on its answer at once and then lets the caller wait. -/
def lookUp (id : PartId) : Job (Except ServiceError Part) :=
  .ask (.askStock id) fun (answer, latency) => late latency (.done answer)

/-- A charge that was recorded is put into words, with its amount. -/
def charge (order : OrderId) (user : UserId) (method : PaymentMethod) (amount : Money) :
    Job (Except ServiceError TransactionId) :=
  .ask .mint fun u =>
    .ask (.charge ⟨⟨u⟩, order, user, method, amount⟩) fun
      | .error e => .done (.error e)
      | .ok () => (Job.lift amount.text).bind fun _ => .done (.ok ⟨u⟩)

def change (id : OrderId) (expected : Order.Status) (change : Order.Change) :
    Job (Except Store.Error Order) :=
  .ask (.changeOrder id expected change) .done

end Direct

def direct : ServiceCalls := ⟨Direct.lookUp, Direct.charge, Direct.change⟩

namespace Planned

def lookUp (id : PartId) : Job (Except ServiceError Part) :=
  .ask .planLookup fun
    | none => Direct.lookUp id
    | some plan =>
      late plan.delay
        (match plan.failure with
          | some e => .done (.error e)
          | none => Direct.lookUp id)

/-- Changes an order without regard to what comes of it. -/
def interfere (id : OrderId) : Option Drill.Interference → Job Unit
  | none => .done ()
  | some i => .ask (.changeOrder id i.expected i.change) fun _ => .done ()

def switchWrites : Option Bool → Job Unit
  | none => .done ()
  | some down => .ask (.setWritesDown down) .done

def charge (order : OrderId) (user : UserId) (method : PaymentMethod) (amount : Money) :
    Job (Except ServiceError TransactionId) :=
  .ask .planCharge fun
    | none => Direct.charge order user method amount
    | some plan =>
      late plan.delay
        (match plan.failure with
          | some e => .done (.error e)
          | none =>
            (Direct.charge order user method amount).bind fun
              | .error e => .done (.error e)
              | .ok t =>
                (interfere order plan.after).bind fun _ =>
                  (switchWrites plan.writesDown).bind fun _ => .done (.ok t))

def change (id : OrderId) (expected : Order.Status) (change : Order.Change) :
    Job (Except Store.Error Order) :=
  .ask .planChange fun
    | none => Direct.change id expected change
    | some (.failure e) => .done (.error e)
    | some (.before i) =>
      (interfere id (some i)).bind fun _ => Direct.change id expected change

end Planned

def planned : ServiceCalls := ⟨Planned.lookUp, Planned.charge, Planned.change⟩

end ServiceCalls
end Shipyard

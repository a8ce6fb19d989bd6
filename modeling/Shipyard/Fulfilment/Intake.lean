import Shipyard.Fulfilment.Error
import Shipyard.ServiceCalls

/-!
# Taking orders

The parts are judged in the order of the list, and their prices are added up. Nothing is stored
unless every part exists and is in stock.
-/

namespace Shipyard.Fulfilment

/-- How long a service is waited for, unless something else is set. -/
def usualDeadline : Span := .ofSeconds 5

/-- Stores a priced order under a fresh identifier. An order that was stored is put into words,
with its total. -/
def place (user : UserId) (parts : List PartId) (method : Option PaymentMethod) (total : Money) :
    Job (Except Error Order) :=
  .ask .mint fun u =>
    .ask .calendar fun now =>
      .ask (.insertOrder (.fresh ⟨u⟩ user parts total method now)) fun
        | .error e => .done (.error (.store e))
        | .ok () =>
          .ask (.count (.orders .created) 1) fun _ =>
            (Job.lift total.text).bind fun _ =>
              .done (.ok (.fresh ⟨u⟩ user parts total method now))

/-- Prices the remaining parts, then goes on with the total. -/
def price (calls : ServiceCalls) (deadline : Span) (next : Money → Job (Except Error Order)) :
    Money → List PartId → Job (Except Error Order)
  | total, [] => next total
  | total, id :: rest =>
    ((calls.lookUp id).within deadline (.error (.timeout deadline))).bind fun
      | .error e => .done (.error (.partNotFound id e.message))
      | .ok part =>
        if part.inStock then
          match total.add part.price with
          | .error f => .fault f
          | .ok total => price calls deadline next total rest
        else .done (.error (.outOfStock id))

def create (calls : ServiceCalls) (deadline : Span) (user : UserId) (parts : List PartId)
    (method : Option PaymentMethod) : Job (Except Error Order) :=
  if parts.isEmpty then .done (.error .noParts)
  else price calls deadline (place user parts method) .zero parts

/-- Loads an order. -/
def load (id : OrderId) : Job (Except Error Order) :=
  .ask (.readOrder id) fun
    | .error e => .done (.error (.store e))
    | .ok none => .done (.error (.orderNotFound id))
    | .ok (some o) => .done (.ok o)

end Shipyard.Fulfilment

import Shipyard.Consumer
import Shipyard.Event.Wire

/-!
# Notices to customers

Paid and assembled orders are told about, each in a text of its own. A notice that the channel
refuses is counted and given up: only a payload that cannot be read is an error.
-/

namespace Shipyard.Notice

def orderPaid (p : PaymentCompleted) : String :=
  "Order " ++ p.order.text ++ " has been paid.\n" ++
    "Payment method: " ++ p.method.name ++ "\n" ++
    "Transaction: " ++ p.transaction.text ++ "\n" ++
    "Your ship is going to assembly."

def orderAssembled (b : BuildCompleted) : String :=
  "Your ship for order " ++ b.order.text ++ " is assembled!\n" ++
    "Build time: " ++ Text.decimal b.seconds ++ " s"

def text : Event → String
  | .payment p => orderPaid p
  | .build b => orderAssembled b

def kind : Event → Meter.NoticeKind
  | .payment _ => .orderPaid
  | .build _ => .orderAssembled

/-- Where notices go: into the outbox, or nowhere but the log. -/
inductive Channel
  | outbox
  | log
deriving DecidableEq, Repr

def Channel.send (c : Channel) (text : String) : Job (Except ChannelError Unit) :=
  match c with
  | .outbox => .ask (.send text) .done
  | .log => .done (.ok ())

def notify (c : Channel) (e : Event) : Job Unit :=
  (c.send (text e)).bind fun r => .ask (.count (.notices (kind e) r.toBool) 1) .done

def paidHandler (c : Channel) : Handler := fun _ m _ =>
  match PaymentCompleted.decode m.topic m.payload with
  | .error r => .done (.error (.undecodable r.message))
  | .ok p => (notify c (.payment p)).bind fun _ => .done (.ok ())

def assembledHandler (c : Channel) : Handler := fun _ m _ =>
  match BuildCompleted.decode m.topic m.payload with
  | .error r => .done (.error (.undecodable r.message))
  | .ok b => (notify c (.build b)).bind fun _ => .done (.ok ())

def paidGroup : String := "notification-order-paid"

def assembledGroup : String := "notification-order-assembled"

end Shipyard.Notice

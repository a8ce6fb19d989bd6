/-!
# Topics

Payments and builds have a topic each, and each of these has one beside it for records that could
not be handled. A dead-letter topic is its own dead-letter topic.
-/

namespace Shipyard

inductive Topic
  | paid
  | assembled
  | paidDeadLetters
  | assembledDeadLetters
deriving DecidableEq, Repr

namespace Topic

def all : List Topic := [.paid, .assembled, .paidDeadLetters, .assembledDeadLetters]

def name : Topic → String
  | .paid => "order.paid"
  | .assembled => "order.assembled"
  | .paidDeadLetters => "order.paid.dlq"
  | .assembledDeadLetters => "order.assembled.dlq"

def ofName? (s : String) : Option Topic := all.find? fun t => t.name = s

theorem ofName?_name (t : Topic) : ofName? t.name = some t := by
  cases t <;> decide

def unknownMessage (s : String) : String := "unknown topic: " ++ s

def deadLetters : Topic → Topic
  | .paid => .paidDeadLetters
  | .assembled => .assembledDeadLetters
  | .paidDeadLetters => .paidDeadLetters
  | .assembledDeadLetters => .assembledDeadLetters

def isDeadLetters (t : Topic) : Bool := t = .paidDeadLetters || t = .assembledDeadLetters

end Topic
end Shipyard

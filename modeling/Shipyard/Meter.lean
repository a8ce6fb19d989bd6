import Shipyard.Decimal.Layout
import Shipyard.PaymentMethod
import Shipyard.Span
import Shipyard.Table
import Shipyard.Text.Digits
import Shipyard.Topic

/-!
# Measurements

Counters, which wrap at 2 ^ 64 and exist from their first use on, and the lengths of builds. They
are shown as sample lines: a name, labels, and a number.
-/

namespace Shipyard

namespace Meter

/-- What happened to a delivered record. -/
inductive Outcome
  | acked
  | retried
  | deadLettered
  | cancelled
deriving DecidableEq, Repr

def Outcome.name : Outcome → String
  | .acked => "acked"
  | .retried => "retried"
  | .deadLettered => "dead_lettered"
  | .cancelled => "cancelled"

/-- What happened to an order. -/
inductive Milestone
  | created
  | paid
  | cancelled
  | assembled
deriving DecidableEq, Repr

def Milestone.name : Milestone → String
  | .created => "created"
  | .paid => "paid"
  | .cancelled => "cancelled"
  | .assembled => "assembled"

inductive NoticeKind
  | orderPaid
  | orderAssembled
deriving DecidableEq, Repr

def NoticeKind.name : NoticeKind → String
  | .orderPaid => "order_paid"
  | .orderAssembled => "order_assembled"

inductive Counter
  | orders (m : Milestone)
  | revenue (method : PaymentMethod)
  | publishFailures (topic : Topic)
  | consumed (topic : Topic) (group : String) (outcome : Outcome)
  | deadLettered (topic : Topic) (group : String)
  | notices (kind : NoticeKind) (delivered : Bool)
  | checks (allowed : Bool)
deriving DecidableEq, Repr

def Counter.name : Counter → String
  | .orders _ => "orders_total"
  | .revenue _ => "orders_revenue_cents_total"
  | .publishFailures _ => "order_events_publish_failures_total"
  | .consumed _ _ _ => "bus_messages_consumed_total"
  | .deadLettered _ _ => "bus_dead_lettered_total"
  | .notices _ _ => "notifications_total"
  | .checks _ => "auth_checks_total"

def Counter.labels : Counter → List (String × String)
  | .orders m => [("status", m.name)]
  | .revenue method => [("payment_method", method.name)]
  | .publishFailures t => [("topic", t.name)]
  | .consumed t g o => [("topic", t.name), ("group", g), ("outcome", o.name)]
  | .deadLettered t g => [("topic", t.name), ("group", g)]
  | .notices k delivered =>
    [("kind", k.name), ("status", if delivered then "sent" else "failed")]
  | .checks allowed => [("verdict", if allowed then "allowed" else "denied")]

end Meter

structure Meter where
  counters : Table Meter.Counter Nat
  /-- Lengths of builds by whether they succeeded, the earliest first. -/
  builds : Table Bool (List Span)
  /-- Nothing is recorded while the meter is off. -/
  enabled : Bool

namespace Meter

def empty (enabled : Bool) : Meter := ⟨.empty, .empty, enabled⟩

def count (m : Meter) (c : Counter) : Nat := (m.counters.find? c).getD 0

def add (m : Meter) (c : Counter) (n : Nat) : Meter :=
  if m.enabled then
    { m with counters := m.counters.put c ((m.count c + n) % 0x10000000000000000) }
  else m

def lengths (m : Meter) (succeeded : Bool) : List Span := (m.builds.find? succeeded).getD []

def time (m : Meter) (s : Span) (succeeded : Bool) : Meter :=
  if m.enabled then { m with builds := m.builds.put succeeded (m.lengths succeeded ++ [s]) }
  else m

/-- A label value with quotes and line ends marked by backslashes. A backslash is taken to mark
the quote, line end or backslash behind it; one that marks nothing is doubled. -/
def labelChars : Bool → List Char → List Char
  | held, [] => if held then ['\\', '\\'] else []
  | held, c :: cs =>
    if c = '\n' then '\\' :: 'n' :: labelChars held cs
    else if c = '"' then '\\' :: '"' :: labelChars false cs
    else if c = '\\' then
      if held then '\\' :: '\\' :: labelChars false cs else labelChars true cs
    else if held then '\\' :: '\\' :: c :: labelChars false cs
    else c :: labelChars false cs

def labelText (l : String × String) : String :=
  l.1 ++ "=\"" ++ String.ofList (labelChars false l.2.toList) ++ "\""

def line (name : String) (labels : List (String × String)) (value : String) : String :=
  name ++ "\x7b" ++ ",".intercalate (labels.map labelText) ++ "\x7d " ++ value

def counterLines (m : Meter) : List String :=
  m.counters.entries.map fun (c, n) => line c.name c.labels (Text.decimal n)

def buildLines (m : Meter) : List String :=
  m.builds.entries.flatMap fun (succeeded, spans) =>
    let labels := [("status", if succeeded then "success" else "error")]
    let sum := spans.foldl (fun x s => x.plus s.toSeconds) ⟨0⟩
    [line "assembly_duration_seconds_count" labels (Text.decimal spans.length),
      line "assembly_duration_seconds_sum" labels (Decimal.sample.numberText false sum)]

/-- Samples of one name, after a line that tells their kind. -/
def family (name kind : String) (lines : List String) : String :=
  "# TYPE " ++ name ++ " " ++ kind ++ "\n" ++ String.join (lines.map (· ++ "\n")) ++ "\n"

/-- The samples of the counters of one name. -/
def counterFamily (m : Meter) (name : String) : String :=
  family name "counter"
    ((m.counters.entries.filter fun e => e.1.name = name).map fun (c, n) =>
      line c.name c.labels (Text.decimal n))

/-- All samples by their names. -/
def text (m : Meter) : String :=
  String.join ((m.counters.entries.map fun e => e.1.name).eraseDups.map m.counterFamily) ++
    (if m.builds.entries.isEmpty then ""
      else family "assembly_duration_seconds" "summary" m.buildLines)

/-- All samples, in the order of their texts. -/
def lines (m : Meter) : List String :=
  (m.counterLines ++ m.buildLines).mergeSort fun a b => a ≤ b

end Meter
end Shipyard

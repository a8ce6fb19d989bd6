/-!
# Arithmetic faults

Arithmetic that leaves its range aborts the call it happens in. A fault is not an error of the
domain: no caller handles it.
-/

namespace Shipyard

inductive Fault
  | addition
  | negation
  | spanProduct
  | spanRange
  | instant
deriving DecidableEq, Repr

def Fault.message : Fault → String
  | .addition => "attempt to add with overflow"
  | .negation => "attempt to negate with overflow"
  | .spanProduct => "overflow when multiplying duration by scalar"
  | .spanRange => "TimeDelta::seconds out of bounds"
  | .instant => "`DateTime + TimeDelta` overflowed"

end Shipyard

/-!
# Ways to pay
-/

namespace Shipyard

inductive PaymentMethod
  | card
  | sbp
  | creditCard
  | investorMoney
deriving DecidableEq, Repr

namespace PaymentMethod

def all : List PaymentMethod := [.card, .sbp, .creditCard, .investorMoney]

def name : PaymentMethod → String
  | .card => "CARD"
  | .sbp => "SBP"
  | .creditCard => "CREDIT_CARD"
  | .investorMoney => "INVESTOR_MONEY"

def ofName? (s : String) : Option PaymentMethod := all.find? fun m => m.name = s

theorem ofName?_name (m : PaymentMethod) : ofName? m.name = some m := by
  cases m <;> decide

end PaymentMethod
end Shipyard

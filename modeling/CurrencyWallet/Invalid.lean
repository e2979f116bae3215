import CurrencyWallet.Balances

/-!
The ways a request can be malformed, whoever notices, and the words for each.
-/
namespace CurrencyWallet

inductive Movement where
  | deposit
  | withdraw
  deriving DecidableEq, Repr

def Movement.name : Movement → String
  | .deposit => "deposit"
  | .withdraw => "withdraw"

inductive Invalid where
  | userId (user : UserId)
  | currencyCode (currency : Currency)
  | exchangeIntoItself (currency : Currency)
  | amountBelowCent (amount : Decimal)
  | movementNotPositive (movement : Movement) (amount : Decimal)
  | zeroDelta
  | settlementOfOneCurrency (currency : Currency)
  | rateNotPositive (rate : Decimal)
  | amountNotPositive (amount : Decimal)
  | other (text : String)
  deriving DecidableEq

def Invalid.message : Invalid → String
  | .userId u => s!"invalid user id: {u}"
  | .currencyCode c => s!"invalid currency code: {c}"
  | .exchangeIntoItself c => s!"cannot exchange {c} into itself"
  | .amountBelowCent a => s!"amount must be at least 0.01, got {a}"
  | .movementNotPositive m a => s!"{m.name} amount must be positive, got {a}"
  | .zeroDelta => "balance delta must be non-zero"
  | .settlementOfOneCurrency c => s!"settlement must involve two currencies, got {c} twice"
  | .rateNotPositive r => s!"rate must be positive, got {r}"
  | .amountNotPositive a => s!"amount must be positive, got {a}"
  | .other text => text

end CurrencyWallet

import CurrencyWallet.Attempt
import CurrencyWallet.Exchange.Error

/-!
The arithmetic of an exchange: what is received, and both balances after it, each rounded to an
amount of money.
-/
namespace CurrencyWallet

inductive PricingError where
  | invalid (reason : Invalid)
  | negativeBalance (currency : Currency) (balance : Decimal)
  deriving DecidableEq

namespace PricingError

def message : PricingError → String
  | .invalid reason => "Invalid exchange input: " ++ reason.message
  | .negativeBalance c balance => s!"Computed balance of {c} is negative: {balance}"

def toExchangeError : PricingError → ExchangeError
  | .invalid reason => .invalid reason
  | .negativeBalance c balance => .negativeBalance c balance

end PricingError

structure PricingInput where
  source : Currency
  sourceBalance : Decimal
  target : Currency
  targetBalance : Decimal
  rate : Decimal
  amount : Decimal
  deriving DecidableEq

structure Pricing where
  sourceBalance : Decimal
  targetBalance : Decimal
  received : Decimal
  deriving DecidableEq

/-- Prices an exchange: `amount` leaves the source, `amount * rate` reaches the target. -/
def Pricing.compute (i : PricingInput) : Attempt PricingError Pricing :=
  if ¬ i.rate.IsPositive then .refused (.invalid (.rateNotPositive i.rate))
  else if ¬ i.amount.IsPositive then .refused (.invalid (.amountNotPositive i.amount))
  else do
    let received := (← .ofArithmetic (i.amount.mul i.rate)).roundAmount
    let sourceBalance := (← .ofArithmetic (i.sourceBalance.sub i.amount)).roundAmount
    let targetBalance := (← .ofArithmetic (i.targetBalance.add received)).roundAmount
    if sourceBalance.IsNegative then .refused (.negativeBalance i.source sourceBalance)
    else if targetBalance.IsNegative then .refused (.negativeBalance i.target targetBalance)
    else .ok ⟨sourceBalance, targetBalance, received⟩

end CurrencyWallet

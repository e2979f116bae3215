import CurrencyWallet.Attempt
import CurrencyWallet.Ledger.Error

/-!
Changing one balance by a signed amount.
-/
namespace CurrencyWallet

def Movement.signed (m : Movement) (amount : Decimal) : Except LedgerError Decimal :=
  if amount.IsPositive then
    .ok (match m with | .deposit => amount | .withdraw => -amount)
  else .error (.invalid (.movementNotPositive m amount))

def checkDelta (delta : Decimal) : Except LedgerError Decimal :=
  if delta.IsZero then .error (.invalid .zeroDelta) else .ok delta

/-- The balance after `delta`. A debit is refused if it would go below zero; a credit never is. -/
def applyDelta (currency : Currency) (current delta : Decimal) : Attempt LedgerError Decimal :=
  match current.add delta with
  | .error o => .overflowed o
  | .ok updated =>
    if delta.IsNegative ∧ updated.IsNegative then
      .refused (.insufficientFunds currency (-delta) current)
    else .ok updated

end CurrencyWallet

import CurrencyWallet.Ledger.Error

/-!
The check before an exchange: both accounts exist and the amount is covered. It reads without a
lock, so what it read may be out of date by the time of the settlement.
-/
namespace CurrencyWallet

structure Funding where
  balances : Balances
  source : Decimal
  target : Decimal
  deriving DecidableEq

def Funding.check (balances : Balances) (source target : Currency) (amount : Decimal) :
    Except LedgerError Funding :=
  match balances.get? source with
  | none => .error (.accountNotFound source)
  | some sourceBalance =>
    match balances.get? target with
    | none => .error (.currencyNotFound target)
    | some targetBalance =>
      if sourceBalance < amount then
        .error (.insufficientFunds source amount sourceBalance)
      else .ok ⟨balances, sourceBalance, targetBalance⟩

end CurrencyWallet

import CurrencyWallet.Ledger.Error

/-!
A settlement writes both balances of an exchange at once. Each leg names the balance it was priced
from and is void if its row holds another value by then.
-/
namespace CurrencyWallet

structure SettlementLeg where
  currency : Currency
  expected : Decimal
  updated : Decimal
  deriving DecidableEq

/-- A row that no longer holds what the leg was priced from is a conflict. -/
def SettlementLeg.verify (leg : SettlementLeg) (found : Decimal) : Except LedgerError Unit :=
  if found.SameValue leg.expected then .ok ()
  else .error (.conflict leg.currency leg.expected found)

structure Settlement where
  user : UserId
  source : SettlementLeg
  target : SettlementLeg
  deriving DecidableEq

namespace Settlement

/-- The legs in ascending order of their codes, in which their rows are locked. -/
def lockOrder (s : Settlement) : List SettlementLeg :=
  if s.target.currency < s.source.currency then [s.target, s.source] else [s.source, s.target]

def validate (s : Settlement) : Except LedgerError Unit :=
  if s.source.currency = s.target.currency then
    .error (.invalid (.settlementOfOneCurrency s.source.currency))
  else if s.source.updated.IsNegative then
    .error (.negativeBalance s.source.currency s.source.updated)
  else if s.target.updated.IsNegative then
    .error (.negativeBalance s.target.currency s.target.updated)
  else .ok ()

def missing (s : Settlement) (currency : Currency) : LedgerError :=
  if currency = s.source.currency then .accountNotFound currency else .currencyNotFound currency

end Settlement

end CurrencyWallet

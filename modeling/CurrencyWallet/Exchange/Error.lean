import CurrencyWallet.Ledger.Error
import CurrencyWallet.Rates.Error

/-!
The errors of the wallet. Each part below it has errors of its own, and every one of them has its
place here; a status and a code for callers are derived from the error alone.
-/
namespace CurrencyWallet

inductive ExchangeError where
  | invalid (reason : Invalid)
  | accountNotFound (currency : Currency)
  | currencyNotFound (currency : Currency)
  | insufficientFunds (currency : Currency) (requested available : Decimal)
  | rateUnavailable (pair : CurrencyPair)
  | rateTimedOut (pair : CurrencyPair)
  | pairUnsupported (pair : CurrencyPair)
  | negativeBalance (currency : Currency) (balance : Decimal)
  | balanceConflict (currency : Currency) (expected actual : Decimal)
  | storage (fault : StorageFault)
  | deadlineExceeded
  deriving DecidableEq

namespace ExchangeError

def message : ExchangeError → String
  | .invalid reason => "Validation failed: " ++ reason.message
  | .accountNotFound c => s!"Account not found: {c}"
  | .currencyNotFound c => s!"Currency not found: {c}"
  | .insufficientFunds c requested available =>
    s!"Insufficient funds in {c}: requested {requested}, available {available}"
  | .rateUnavailable p => s!"Exchange rate unavailable for {p}"
  | .rateTimedOut p => s!"Exchange rate request timed out for {p}"
  | .pairUnsupported p => s!"Currency pair not supported by rate service: {p}"
  | .negativeBalance c balance => s!"Negative balance guard tripped for {c}: {balance}"
  | .balanceConflict c expected actual =>
    s!"Balance of {c} changed during exchange: expected {expected}, found {actual}"
  | .storage fault => "Persistence error: " ++ fault.message
  | .deadlineExceeded => "Deadline exceeded"

def status : ExchangeError → Nat
  | .invalid _ | .pairUnsupported _ => 400
  | .accountNotFound _ | .currencyNotFound _ => 404
  | .balanceConflict _ _ _ => 409
  | .insufficientFunds _ _ _ => 422
  | .negativeBalance _ _ | .storage _ => 500
  | .rateUnavailable _ => 503
  | .rateTimedOut _ | .deadlineExceeded => 504

def code : ExchangeError → String
  | .invalid _ => "VALIDATION_ERROR"
  | .accountNotFound _ => "ACCOUNT_NOT_FOUND"
  | .currencyNotFound _ => "CURRENCY_NOT_FOUND"
  | .insufficientFunds _ _ _ => "INSUFFICIENT_FUNDS"
  | .rateUnavailable _ => "RATE_UNAVAILABLE"
  | .rateTimedOut _ => "RATE_TIMEOUT"
  | .pairUnsupported _ => "CURRENCY_UNSUPPORTED"
  | .negativeBalance _ _ => "NEGATIVE_BALANCE_GUARD"
  | .balanceConflict _ _ _ => "BALANCE_CONFLICT"
  | .storage _ => "PERSISTENCE_ERROR"
  | .deadlineExceeded => "DEADLINE_EXCEEDED"

/-- Whether the error points at a defect of the wallet and not at the request. -/
def IsInternal : ExchangeError → Prop
  | .negativeBalance _ _ | .storage _ => True
  | _ => False

instance : DecidablePred IsInternal := fun e => by
  cases e <;> unfold IsInternal <;> infer_instance

def ofLedger : LedgerError → ExchangeError
  | .invalid reason => .invalid reason
  | .accountNotFound c => .accountNotFound c
  | .currencyNotFound c => .currencyNotFound c
  | .insufficientFunds c requested available => .insufficientFunds c requested available
  | .negativeBalance c balance => .negativeBalance c balance
  | .conflict c expected actual => .balanceConflict c expected actual
  | .storage fault => .storage fault

def ofRate : RateError → ExchangeError
  | .unavailable p | .service p _ => .rateUnavailable p
  | .timedOut p => .rateTimedOut p
  | .unsupported p => .pairUnsupported p

end ExchangeError

end CurrencyWallet

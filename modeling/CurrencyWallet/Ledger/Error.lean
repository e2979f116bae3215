import CurrencyWallet.Invalid

/-!
Why a ledger call is refused, and what can go wrong in the storage under it.
-/
namespace CurrencyWallet

/-- A length of time in milliseconds, written in its largest unit: `0ns`, `999ms`, `1.5s`. -/
def durationText (ms : Nat) : String :=
  if ms = 0 then "0ns"
  else if ms < 1000 then toString ms ++ "ms"
  else
    let places := (Decimal.padded 3 (ms % 1000)).reverse.dropWhile (· = '0')
    let tail := if places.isEmpty then [] else '.' :: places.reverse
    toString (ms / 1000) ++ String.ofList tail ++ "s"

inductive StorageFault where
  | poolClosed
  | poolTimedOut
  | transactionTimedOut (call : String) (limit : Nat)
  | configuration (reason : String)
  | connectionReset
  | migrating (fault : StorageFault)
  | other (text : String)
  deriving DecidableEq

def StorageFault.message : StorageFault → String
  | .poolClosed => "attempted to acquire a connection on a closed pool"
  | .poolTimedOut => "pool timed out while waiting for an open connection"
  | .transactionTimedOut call limit =>
    call ++ " transaction timed out after " ++ durationText limit
  | .configuration reason => "error with configuration: " ++ reason
  | .connectionReset => "connection reset"
  | .migrating fault => "while executing migrations: " ++ fault.message
  | .other text => text

inductive LedgerError where
  | invalid (reason : Invalid)
  | accountNotFound (currency : Currency)
  | currencyNotFound (currency : Currency)
  | insufficientFunds (currency : Currency) (requested available : Decimal)
  | negativeBalance (currency : Currency) (balance : Decimal)
  | conflict (currency : Currency) (expected actual : Decimal)
  | storage (fault : StorageFault)
  deriving DecidableEq

namespace LedgerError

def message : LedgerError → String
  | .invalid reason => "Invalid ledger operation: " ++ reason.message
  | .accountNotFound c => s!"Account not found: {c}"
  | .currencyNotFound c => s!"Currency not found: {c}"
  | .insufficientFunds c requested available =>
    s!"Insufficient funds in {c}: requested {requested}, available {available}"
  | .negativeBalance c balance => s!"Balance of {c} would become negative: {balance}"
  | .conflict c expected actual =>
    s!"Balance of {c} changed concurrently: expected {expected}, found {actual}"
  | .storage fault => "Persistence error: " ++ fault.message

def IsStorage : LedgerError → Prop
  | .storage _ => True
  | _ => False

instance : DecidablePred IsStorage := fun e => by
  cases e <;> unfold IsStorage <;> infer_instance

end LedgerError

end CurrencyWallet

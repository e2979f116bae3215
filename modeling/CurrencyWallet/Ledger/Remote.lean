import CurrencyWallet.Ledger.Error

/-!
A ledger in a database that never answers. What is left of it is its faults: the closed pool that
fails at once, and the silent server that is waited for until a limit is reached.
-/
namespace CurrencyWallet

/-- The calls of a remote ledger. Only those that change or read accounts run in a transaction. -/
inductive RemoteCall where
  | openAccounts
  | balances
  | apply
  | settle
  | currencies
  | migrate
  deriving DecidableEq, Repr

def RemoteCall.transaction? : RemoteCall → Option String
  | .openAccounts => some "open_accounts"
  | .balances => some "all_balances"
  | .apply => some "apply_single_operation"
  | .settle => some "apply_exchange_settlement"
  | .currencies | .migrate => none

structure RemoteLedger where
  closed : Bool
  transactionTimeout : Nat
  acquireTimeout : Nat
  deriving DecidableEq

namespace RemoteLedger

def explain (call : RemoteCall) (fault : StorageFault) : StorageFault :=
  match call with
  | .migrate => .migrating fault
  | _ => fault

/-- After how long a call fails, and how. A closed pool fails at once; otherwise the shorter of
the two limits decides, and of two equal ones the limit of the pool. -/
def fate (r : RemoteLedger) (call : RemoteCall) : Nat × StorageFault :=
  if r.closed then (0, explain call .poolClosed)
  else match call.transaction? with
    | some name =>
      if r.transactionTimeout < r.acquireTimeout then
        (r.transactionTimeout, .transactionTimedOut name r.transactionTimeout)
      else (r.acquireTimeout, .poolTimedOut)
    | none => (r.acquireTimeout, explain call .poolTimedOut)

end RemoteLedger

end CurrencyWallet

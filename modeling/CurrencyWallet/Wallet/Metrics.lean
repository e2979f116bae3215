import CurrencyWallet.Exchange.State
import CurrencyWallet.Invalid
import CurrencyWallet.Rates.Resolution

/-!
Counters of what a wallet has done. An exchange is counted when it starts and again when it ends,
then in exactly one counter of its outcome.
-/
namespace CurrencyWallet

structure Metrics where
  started : Nat
  succeeded : Nat
  validationFailed : Nat
  rateFailed : Nat
  computeFailed : Nat
  commitFailed : Nat
  deadlineExceeded : Nat
  cacheHits : Nat
  cacheMisses : Nat
  deposits : Nat
  withdrawals : Nat
  movementsFailed : Nat
  deriving DecidableEq

inductive MetricEvent where
  | exchangeStarted
  | exchangeSucceeded (source : RateSource)
  | exchangeFailed (state : ExchangeState)
  | moved (movement : Movement)
  | movementFailed
  deriving DecidableEq

namespace Metrics

def zero : Metrics := ⟨0, 0, 0, 0, 0, 0, 0, 0, 0, 0, 0, 0⟩

def recordSuccess (m : Metrics) : RateSource → Metrics
  | .cache => { m with succeeded := m.succeeded + 1, cacheHits := m.cacheHits + 1 }
  | .remote => { m with succeeded := m.succeeded + 1, cacheMisses := m.cacheMisses + 1 }

/-- Only the failure states have counters. -/
def recordFailure (m : Metrics) : ExchangeState → Metrics
  | .validationFailed => { m with validationFailed := m.validationFailed + 1 }
  | .rateFailed => { m with rateFailed := m.rateFailed + 1 }
  | .computeFailed => { m with computeFailed := m.computeFailed + 1 }
  | .commitFailed => { m with commitFailed := m.commitFailed + 1 }
  | .deadlineExceeded => { m with deadlineExceeded := m.deadlineExceeded + 1 }
  | _ => m

def record (m : Metrics) : MetricEvent → Metrics
  | .exchangeStarted => { m with started := m.started + 1 }
  | .exchangeSucceeded source => m.recordSuccess source
  | .exchangeFailed state => m.recordFailure state
  | .moved .deposit => { m with deposits := m.deposits + 1 }
  | .moved .withdraw => { m with withdrawals := m.withdrawals + 1 }
  | .movementFailed => { m with movementsFailed := m.movementsFailed + 1 }

def failed (m : Metrics) : Nat :=
  m.validationFailed + m.rateFailed + m.computeFailed + m.commitFailed + m.deadlineExceeded

theorem failed_recordFailure (m : Metrics) (s : ExchangeState) :
    (m.recordFailure s).failed = m.failed + (if s.isFailure then 1 else 0) := by
  cases s <;> simp [recordFailure, failed, ExchangeState.isFailure] <;> omega

end Metrics

end CurrencyWallet

import CurrencyWallet.Wallet.Metrics
import CurrencyWallet.Wallet.Request

/-!
A wallet over a ledger in memory and a fixed table of rates. `Wallet.perform` carries a request
out at once, without another one in between. An exchange gets a deadline when it has passed its
checks, and if there is no moment so far ahead, it is broken off before it is counted.
-/
namespace CurrencyWallet

structure Wallet where
  ledger : Ledger
  desk : RateDesk
  exchangeTimeout : Nat
  metrics : Metrics

namespace Wallet

def record (w : Wallet) (event : MetricEvent) : Wallet :=
  { w with metrics := w.metrics.record event }

def call (w : Wallet) (call : Ledger.Call) : Wallet × Ledger.Reply :=
  let (ledger, reply) := w.ledger.perform call
  ({ w with ledger }, reply)

def movementEvent? (movement : Movement) : Ledger.Reply → Option MetricEvent
  | .ok _ => some (.moved movement)
  | .refused _ => some .movementFailed
  | .overflowed _ => none

def exchangeEvent? : Attempt ExchangeFailure ExchangeOutcome → Option MetricEvent
  | .ok outcome => some (.exchangeSucceeded outcome.rateSource)
  | .refused failure => some (.exchangeFailed failure.state)
  | .overflowed _ => none

def recordAll (w : Wallet) (events : Option MetricEvent) : Wallet :=
  events.elim w w.record

def balancesResult (reply : Ledger.Reply) : WalletResult :=
  (reply.mapReason ExchangeError.ofLedger) >>= fun b => .ok (.balances b)

def outcomeResult (result : Attempt ExchangeFailure ExchangeOutcome) : WalletResult :=
  (result.mapReason ExchangeFailure.error) >>= fun o => .ok (.outcome o)

def fund (w : Wallet) (r : ExchangeRequest) : Except LedgerError Funding :=
  Funding.check (w.ledger.balances r.user) r.source r.target r.amount

def settle (w : Wallet) (run : ExchangeRun) : Wallet × ExchangeRun :=
  match run.pending? with
  | none => (w, run)
  | some settlement =>
    let (w, reply) := w.call (.settle settlement)
    (w, (run.step (.settled reply)).step .concluded)

def exchange (w : Wallet) (now : Nat) (id : ExchangeId) (request : ExchangeRequest) :
    Wallet × Attempt ExchangeFailure ExchangeOutcome :=
  let w := w.record .exchangeStarted
  let funding := w.fund request
  let (desk, rate) := w.desk.resolve now request.pair
  let run := (ExchangeRun.start id request).run
    [.launched, .looked ⟨false, some funding, some rate⟩, .priced]
  let (w, run) := { w with desk }.settle run
  let result := run.result?.getD (.refused ⟨.deadlineExceeded, .deadlineExceeded⟩)
  (w.recordAll (exchangeEvent? result), result)

def performAdmitted (w : Wallet) (now : Nat) (id : ExchangeId) :
    Admitted → Wallet × WalletResult
  | .query call =>
    let (w, reply) := w.call call
    (w, balancesResult reply)
  | .move movement call =>
    let (w, reply) := w.call call
    (w.recordAll (movementEvent? movement reply), balancesResult reply)
  | .exchange request =>
    if IsWithinReach w.exchangeTimeout then
      let (w, result) := w.exchange now id request
      (w, outcomeResult result)
    else (w, .overflowed .moment)

/-- Carries out a request at the time `now`; an exchange gets the identifier `id`. -/
def perform (w : Wallet) (now : Nat) (id : ExchangeId) (request : WalletRequest) :
    Wallet × WalletResult :=
  match request.check with
  | .error e => (w, .refused e)
  | .ok admitted => w.performAdmitted now id admitted

def rates (w : Wallet) : RateTable := w.desk.rates

end Wallet

end CurrencyWallet

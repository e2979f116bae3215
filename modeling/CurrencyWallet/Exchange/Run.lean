import CurrencyWallet.Exchange.Pricing
import CurrencyWallet.Exchange.State
import CurrencyWallet.ExchangeId
import CurrencyWallet.Ledger.Memory
import CurrencyWallet.Ledger.Validation
import CurrencyWallet.Rates.Resolution

/-!
One exchange from its start to its end. The balances are checked and the rate is found side by
side; both are joined unless the exchange is cancelled first; then it is priced and settled, and
from the join on nothing can cancel it. An `ExchangeRun` moves on by the events it is told of, and
an event that does not fit its stage changes nothing.
-/
namespace CurrencyWallet

structure ExchangeRequest where
  user : UserId
  source : Currency
  target : Currency
  amount : Decimal
  deriving DecidableEq

def ExchangeRequest.pair (r : ExchangeRequest) : CurrencyPair := ⟨r.source, r.target⟩

structure ExchangeOutcome where
  id : ExchangeId
  user : UserId
  source : Currency
  sourceBalance : Decimal
  target : Currency
  targetBalance : Decimal
  spent : Decimal
  received : Decimal
  rate : Decimal
  rateSource : RateSource
  balances : Balances
  deriving DecidableEq

structure ExchangeFailure where
  state : ExchangeState
  error : ExchangeError
  deriving DecidableEq

def ExchangeFailure.message (f : ExchangeFailure) : String :=
  "Exchange " ++ f.state.name ++ ": " ++ f.error.message

structure JoinView where
  cancelled : Bool
  funding : Option (Except LedgerError Funding)
  rate : Option RateResult

/-- What follows from a look: nothing yet, a failure, or both parts. A cancellation comes before
any error, and an error of the balances before one of the rate. -/
def JoinView.verdict (v : JoinView) : Option (Except ExchangeFailure (Funding × ResolvedRate)) :=
  if v.cancelled then some (.error ⟨.deadlineExceeded, .deadlineExceeded⟩)
  else match v.funding, v.rate with
    | some (.error e), _ => some (.error ⟨.validationFailed, .ofLedger e⟩)
    | _, some (.error e) => some (.error ⟨.rateFailed, .ofRate e⟩)
    | some (.ok funding), some (.ok rate) => some (.ok (funding, rate))
    | _, _ => none

inductive ExchangeStage where
  | started
  | inFlight
  | joined (funding : Funding) (rate : ResolvedRate)
  | computed (funding : Funding) (rate : ResolvedRate) (pricing : Pricing)
  | committed (outcome : ExchangeOutcome)
  | done (outcome : ExchangeOutcome)
  | failed (failure : ExchangeFailure)
  | broken (reached : ExchangeState) (overflow : Overflow)

/-- The state an exchange shows; one that was broken off stays in the state it had reached. -/
def ExchangeStage.state : ExchangeStage → ExchangeState
  | started => .start
  | inFlight => .inFlight
  | joined _ _ => .joined
  | computed _ _ _ => .computed
  | committed _ => .committed
  | done _ => .done
  | failed f => f.state
  | broken reached _ => reached

inductive ExchangeEvent where
  | launched
  | looked (view : JoinView)
  | priced
  | settled (reply : Ledger.Reply)
  | concluded

structure ExchangeRun where
  id : ExchangeId
  request : ExchangeRequest
  stage : ExchangeStage

namespace ExchangeRun

def start (id : ExchangeId) (request : ExchangeRequest) : ExchangeRun := ⟨id, request, .started⟩

def state (r : ExchangeRun) : ExchangeState := r.stage.state

def pricingInput (r : ExchangeRun) (funding : Funding) (rate : ResolvedRate) : PricingInput :=
  ⟨r.request.source, funding.source, r.request.target, funding.target, rate.rate, r.request.amount⟩

def settlement (r : ExchangeRun) (funding : Funding) (pricing : Pricing) : Settlement where
  user := r.request.user
  source := ⟨r.request.source, funding.source, pricing.sourceBalance⟩
  target := ⟨r.request.target, funding.target, pricing.targetBalance⟩

/-- The balances reported are the checked ones with both new balances put in. -/
def outcome (r : ExchangeRun) (funding : Funding) (rate : ResolvedRate) (pricing : Pricing) :
    ExchangeOutcome where
  id := r.id
  user := r.request.user
  source := r.request.source
  sourceBalance := pricing.sourceBalance
  target := r.request.target
  targetBalance := pricing.targetBalance
  spent := r.request.amount
  received := pricing.received
  rate := rate.rate
  rateSource := rate.source
  balances := (funding.balances.insert r.request.source pricing.sourceBalance).insert
    r.request.target pricing.targetBalance

def nextStage (r : ExchangeRun) (event : ExchangeEvent) : ExchangeStage :=
  match r.stage, event with
  | .started, .launched => .inFlight
  | .inFlight, .looked view =>
    match view.verdict with
    | none => .inFlight
    | some (.error failure) => .failed failure
    | some (.ok (funding, rate)) => .joined funding rate
  | .joined funding rate, .priced =>
    match Pricing.compute (r.pricingInput funding rate) with
    | .ok pricing => .computed funding rate pricing
    | .refused e => .failed ⟨.computeFailed, e.toExchangeError⟩
    | .overflowed o => .broken .joined o
  | .computed funding rate pricing, .settled reply =>
    match reply with
    | .ok _ => .committed (r.outcome funding rate pricing)
    | .refused e => .failed ⟨.commitFailed, .ofLedger e⟩
    | .overflowed o => .broken .computed o
  | .committed outcome, .concluded => .done outcome
  | stage, _ => stage

def step (r : ExchangeRun) (event : ExchangeEvent) : ExchangeRun :=
  { r with stage := r.nextStage event }

def run (r : ExchangeRun) (events : List ExchangeEvent) : ExchangeRun := events.foldl step r

def pending? (r : ExchangeRun) : Option Settlement :=
  match r.stage with
  | .computed funding _ pricing => some (r.settlement funding pricing)
  | _ => none

def result? (r : ExchangeRun) : Option (Attempt ExchangeFailure ExchangeOutcome) :=
  match r.stage with
  | .done outcome => some (.ok outcome)
  | .failed failure => some (.refused failure)
  | .broken _ overflow => some (.overflowed overflow)
  | _ => none

end ExchangeRun

end CurrencyWallet

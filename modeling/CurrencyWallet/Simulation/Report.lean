import CurrencyWallet.Simulation.Plan
import CurrencyWallet.Wallet.Concurrent

/-!
Simulations of many users. The users' accounts are opened and funded, then all operations of a plan
are under way at once, in the order of a schedule, and a report tells what has come of them.
-/
namespace CurrencyWallet

structure SimulationReport where
  operations : Nat
  succeeded : Nat
  rejected : Nat
  /-- Balances that are below zero at the end. -/
  negativeBalances : Nat
  metrics : Metrics
  deriving DecidableEq

structure Simulation where
  config : SimulationConfig
  currencies : List Currency

namespace Simulation

def fundingRequests (s : Simulation) (user : UserId) : List WalletRequest :=
  .openAccounts user ::
    s.currencies.map fun c => .move .deposit user c s.config.initialBalance

/-- Carries out requests one after another, up to the first that does not end well. -/
def performAll (w : Wallet) : List WalletRequest → Wallet × Attempt ExchangeError Unit
  | [] => (w, .ok ())
  | request :: requests =>
    match w.perform 0 (ExchangeId.make 0 0) request with
    | (w, .ok _) => performAll w requests
    | (w, .refused e) => (w, .refused e)
    | (w, .overflowed o) => (w, .overflowed o)

def fund (s : Simulation) (w : Wallet) : Wallet × Attempt ExchangeError Unit :=
  performAll w (s.config.userIds.flatMap s.fundingRequests)

def session (w : Wallet) (plan : Plan) : Session where
  now := 0
  wallet := w
  tasks := plan.zipIdx.map fun (entry, k) =>
    .waiting (ExchangeId.make 0 k) (entry.2.request entry.1)

def report (s : Simulation) (done : Session) : SimulationReport where
  operations := done.tasks.length
  succeeded := done.successes
  rejected := done.tasks.length - done.successes
  negativeBalances := done.wallet.ledger.negativeCount s.config.userIds
  metrics := done.wallet.metrics

def runPlan (s : Simulation) (w : Wallet) (plan : Plan) (schedule : List Nat) :
    Wallet × SimulationReport :=
  let done := ((session w plan).follow schedule).finish
  (done.wallet, s.report done)

inductive Failure where
  | tooFewCurrencies
  | noRoom
  deriving DecidableEq

def Failure.message : Failure → String
  | .tooFewCurrencies => "simulation needs at least two currencies"
  | .noRoom => "capacity overflow"

def run (s : Simulation) (w : Wallet) (d : Dice) : Except Failure (Wallet × SimulationReport) :=
  if s.currencies.length < 2 then .error .tooFewCurrencies
  else if !s.config.hasRoom then .error .noRoom
  else
    let (plan, d) :=
      Plan.random s.currencies s.config.operationsPerUser s.config.userIds d
    .ok (s.runPlan w plan (d.schedule plan.length (4 * plan.length)))

end Simulation

end CurrencyWallet

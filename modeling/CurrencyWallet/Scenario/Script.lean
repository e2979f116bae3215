import CurrencyWallet.Ledger.Remote
import CurrencyWallet.Rates.Quote
import CurrencyWallet.Wallet.Metrics
import CurrencyWallet.Wallet.Request

/-!
Scripts: what is done to a wallet and to the parts it works with, one step after another or beside
one another, and what each step answers. Times are in milliseconds.
-/
namespace CurrencyWallet.Scenario

inductive Action where
  | skip
  | advance (ms : Nat)
  -- the wallet
  | wallet (request : WalletRequest)
  | walletRates
  | metrics
  -- an exchange without the wallet's checks, cancelled after `limit`
  | execute (request : ExchangeRequest) (limit : Nat)
  | failedTotal
  -- the ledger behind its checks
  | apply (user : UserId) (currency : Currency) (delta : Decimal)
  | move (movement : Movement) (user : UserId) (currency : Currency) (amount : Decimal)
  | settle (settlement : Settlement)
  | validate (request : ExchangeRequest)
  -- the ledger
  | ledger (call : Ledger.Call)
  | ledgerCurrencies
  | ledgerStats
  | ledgerFaults (changes : List (RemoteCall × Bool))
  | migrate
  | closePool
  -- resolutions
  | resolve (pair : CurrencyPair)
  | finish (pair : CurrencyPair)
  | spawnDropped (pair : CurrencyPair)
  | spawn (pair : CurrencyPair) (ticket : String)
  | await (ticket : String) (finished : Bool)
  | allRates
  -- the rate service
  | quote (pair : CurrencyPair)
  | serviceStats
  | setRate (pair : CurrencyPair) (rate : Decimal)
  | failWith (pair : CurrencyPair) (error : RateError)
  | setDelay (ms : Nat)
  | setCrashing (on : Bool)
  -- the cache
  | cacheGet (key : String)
  | cacheSet (key : String) (rate : Decimal) (ttl : Nat)
  | cacheRemove (key : String)
  | cacheClear
  | cacheEvict
  | cacheStats
  | cacheFaults (reads writes : Option Bool) (readDelay writeDelay : Option Nat)

/-- An action, and the steps that run beside it, each from its own moment on or when the one before
it has ended. -/
inductive Step where
  | step (startAt : Nat) (action : Action) (beside : Option (List Step))

namespace Step

instance : Inhabited Step := ⟨step 0 .skip none⟩

def startAt : Step → Nat
  | step at_ _ _ => at_

def count : List Step → Nat
  | [] => 0
  | step _ _ none :: more => 1 + count more
  | step _ _ (some beside) :: more => 1 + count beside + count more

end Step

inductive Misuse where
  | serviceIsFixed
  | ledgerIsInMemory
  | noSuchTicket
  deriving DecidableEq

structure CacheStats where
  size : Nat
  fresh : Nat
  expired : Nat
  reads : Nat
  writes : Nat

inductive Answer where
  | done
  | nothing
  | balances (b : Balances)
  | outcome (o : ExchangeOutcome)
  | rates (r : RateTable)
  | metrics (m : Metrics)
  | count (n : Nat)
  | funding (f : Funding)
  | currencies (codes : List Currency)
  | ledgerStats (users : Option Nat) (settlements : Nat)
  | resolved (r : ResolvedRate)
  | spawned (pair : CurrencyPair)
  | quoted (q : Quote)
  | serviceStats (service : RateService)
  | rate (found : Option Decimal)
  | cacheStats (s : CacheStats)
  | walletError (e : ExchangeError)
  | failure (f : ExchangeFailure)
  | ledgerError (e : LedgerError)
  | rateError (e : RateError)
  | overflowed (o : Overflow)
  | crashed
  | misuse (m : Misuse)
  | together (main : Answer) (beside : List Answer)

namespace Answer

def ofAttempt {ε α : Type} (refused : ε → Answer) (value : α → Answer) : Attempt ε α → Answer
  | .ok a => value a
  | .refused e => refused e
  | .overflowed o => overflowed o

def ofExcept {ε α : Type} (refused : ε → Answer) (value : α → Answer) : Except ε α → Answer
  | .ok a => value a
  | .error e => refused e

def ofRate (r : RateResult) : Answer := ofExcept rateError resolved r

end Answer

end CurrencyWallet.Scenario

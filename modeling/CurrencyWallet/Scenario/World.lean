import CurrencyWallet.Scenario.Parts
import CurrencyWallet.Scenario.Script
import CurrencyWallet.Wallet.Service

/-!
The world of a scenario at one moment, and what an action does to it when it begins. Time is a
number in the world. What an action cannot answer yet is left as a `Wait`, which can be looked at
again and again until it is over.
-/
namespace CurrencyWallet.Scenario

/-- Whose service and cache a resolution asks: those of the world, or those the wallet has for
itself. -/
inductive Side where
  | shared
  | own
  deriving DecidableEq

structure World where
  now : Nat
  vault : Vault
  shared : RateDesk
  own? : Option RateDesk
  exchangeTimeout : Nat
  metrics : Metrics
  jobs : List (Side × RateJob)
  tickets : Table String Nat

structure LiveExchange where
  run : ExchangeRun
  job : Nat
  cancelAt : Nat
  fundedAt : Nat
  funding : Except LedgerError Funding
  /-- Whether the wallet was asked, or the exchange was started without it. -/
  byWallet : Bool

inductive Wait where
  | answer (due : Nat) (event? : Option MetricEvent) (answer : Answer)
  | rate (job : Nat) (finished : Bool)
  | quote (due : Nat) (pair : CurrencyPair)
  | exchange (live : LiveExchange)

namespace World

def desk (w : World) : Side → RateDesk
  | .shared => w.shared
  | .own => w.own?.getD w.shared

def setDesk (w : World) (side : Side) (d : RateDesk) : World :=
  match side with
  | .shared => { w with shared := d }
  | .own => { w with own? := some d }

def walletSide (w : World) : Side := if w.own?.isSome then .own else .shared

def record (w : World) (event? : Option MetricEvent) : World :=
  { w with metrics := event?.elim w.metrics w.metrics.record }

def spawn (w : World) (side : Side) (pair : CurrencyPair) : World × Nat :=
  ({ w with jobs := w.jobs ++ [(side, .start (w.desk side).policy pair)] }, w.jobs.length)

def job? (w : World) (job : Nat) : Option RateJob := (w.jobs[job]?).map (·.2)

def rate? (w : World) (job : Nat) : Option RateResult := (w.job? job).bind (·.resolution.result?)

def isFinished (w : World) (job : Nat) : Bool := (w.job? job).all (·.isFinished)

def runJobs (w : World) : Bool × World :=
  let (moved, w, jobs) := w.jobs.foldl (fun (moved, w, jobs) (side, job) =>
    if (job.step w.now (w.desk side)).isNone then (moved, w, (side, job) :: jobs)
    else
      let (desk, job) := job.run w.now (w.desk side)
      (true, w.setDesk side desk, (side, job) :: jobs)) (false, w, [])
  (moved, { w with jobs := jobs.reverse })

/-! ### Beginning an action -/

def answered (w : World) (a : Answer) : World × Wait := (w, .answer w.now none a)

def answerAfter (w : World) (delay : Nat) (a : Answer) : World × Wait :=
  (w, .answer (w.now + delay) none a)

def callVault (w : World) (call : Ledger.Call) : World × Nat × Ledger.Reply :=
  let (vault, delay, reply) := w.vault.call call
  ({ w with vault }, delay, reply)

def replyAnswer (call : Ledger.Call) : Ledger.Reply → Answer :=
  .ofAttempt .ledgerError fun b => match call with | .settle _ => .nothing | _ => .balances b

def beginCall (w : World) (call : Ledger.Call) : World × Wait :=
  let (w, delay, reply) := w.callVault call
  w.answerAfter delay (replyAnswer call reply)

def beginChecked (w : World) (checked : Except LedgerError Ledger.Call) : World × Wait :=
  match checked with
  | .error e => w.answered (.ledgerError e)
  | .ok call => w.beginCall call

def beginExchange (w : World) (side : Side) (request : ExchangeRequest) (limit : Nat)
    (byWallet : Bool) : World × Wait :=
  let w := w.record (some .exchangeStarted)
  let id := ExchangeId.make w.now w.metrics.started
  let (w, job) := w.spawn side request.pair
  let (delay, funding) := w.vault.fund request.user request.source request.target request.amount
  (w, .exchange
    { run := (ExchangeRun.start id request).step .launched
      job
      cancelAt := w.now + limit
      fundedAt := w.now + delay
      funding
      byWallet })

def walletAnswer : WalletResult → Answer :=
  .ofAttempt .walletError fun
    | .balances b => .balances b
    | .outcome o => .outcome o

def beginWallet (w : World) (request : WalletRequest) : World × Wait :=
  match request.check with
  | .error e => w.answered (.walletError e)
  | .ok (.query call) =>
    let (w, delay, reply) := w.callVault call
    w.answerAfter delay (walletAnswer (Wallet.balancesResult reply))
  | .ok (.move movement call) =>
    let (w, delay, reply) := w.callVault call
    (w, .answer (w.now + delay) (Wallet.movementEvent? movement reply)
      (walletAnswer (Wallet.balancesResult reply)))
  | .ok (.exchange request) =>
    if IsWithinReach w.exchangeTimeout then
      w.beginExchange w.walletSide request w.exchangeTimeout true
    else w.answered (.overflowed .moment)

def changeService (w : World) (f : ScriptedService → ScriptedService) : World × Wait :=
  match w.shared.service.service with
  | .fixed _ => w.answered (.misuse .serviceIsFixed)
  | .scripted s =>
    { w with
      shared := { w.shared with service := { w.shared.service with service := .scripted (f s) } }
    }.answered .done

def beginQuote (w : World) (pair : CurrencyPair) : World × Wait :=
  let asked := { w.shared.service with quotes := w.shared.service.quotes + 1 }
  let w := { w with shared := { w.shared with service := asked } }
  if asked.crashing then w.answered .crashed
  else
    let (service, delay) := asked.service.take
    ({ w with shared := { w.shared with service := { asked with service } } },
      .quote (w.now + delay) pair)

def mapCache (w : World) (f : RateCache → RateCache) : World :=
  { w with shared := w.shared.withCache (f w.shared.cache.cache) }

def cacheStats (w : World) : CacheStats :=
  let p := w.shared.cache
  ⟨p.cache.size, p.cache.freshCount cacheClock, p.cache.expiredCount cacheClock, p.reads, p.writes⟩

def beginRemote (w : World) (f : RemoteLedger → World × Wait) : World × Wait :=
  match w.vault.remote? with
  | none => w.answered (.misuse .ledgerIsInMemory)
  | some r => f r

def begin (w : World) : Action → World × Wait
  | .skip => w.answered .nothing
  | .advance ms => w.answerAfter ms .done
  | .wallet request => w.beginWallet request
  | .walletRates => w.answered (.rates (w.desk w.walletSide).service.service.rates)
  | .metrics => w.answered (.metrics w.metrics)
  | .execute request limit => w.beginExchange .shared request limit false
  | .failedTotal => w.answered (.count w.metrics.failed)
  | .apply user currency delta =>
    w.beginChecked ((checkDelta delta).map (.apply user currency))
  | .move movement user currency amount =>
    w.beginChecked ((movement.signed amount >>= checkDelta).map (.apply user currency))
  | .settle settlement => w.beginCall (.settle settlement)
  | .validate r =>
    let (delay, funding) := w.vault.fund r.user r.source r.target r.amount
    w.answerAfter delay (.ofExcept .ledgerError .funding funding)
  | .ledger call => w.beginCall call
  | .ledgerCurrencies =>
    let (delay, codes) := w.vault.currencies
    w.answerAfter delay (.ofExcept .ledgerError .currencies codes)
  | .ledgerStats =>
    let users := if w.vault.remote?.isSome then none else some w.vault.ledger.users.size
    w.answered (.ledgerStats users w.vault.settlements)
  | .ledgerFaults changes => { w with vault := w.vault.setFailing changes }.answered .done
  | .migrate =>
    w.beginRemote fun r =>
      let (delay, fault) := r.fate .migrate
      w.answerAfter delay (.ledgerError (.storage fault))
  | .closePool =>
    w.beginRemote fun r =>
      { w with vault := { w.vault with remote? := some { r with closed := true } } }.answered .done
  | .resolve pair => let (w, job) := w.spawn .shared pair; (w, .rate job false)
  | .finish pair => let (w, job) := w.spawn .shared pair; (w, .rate job true)
  | .spawnDropped pair => (w.spawn .shared pair).1.answered .done
  | .spawn pair ticket =>
    let (w, job) := w.spawn .shared pair
    { w with tickets := w.tickets.insert ticket job }.answered (.spawned pair)
  | .await ticket finished =>
    match w.tickets.get? ticket with
    | none => w.answered (.misuse .noSuchTicket)
    | some job => ({ w with tickets := w.tickets.erase ticket }, .rate job finished)
  | .allRates => w.answered (.rates w.shared.service.service.rates)
  | .quote pair => w.beginQuote pair
  | .serviceStats => w.answered (.serviceStats w.shared.service.service)
  | .setRate pair rate => w.changeService (·.setRate pair rate)
  | .failWith pair e => w.changeService (·.failWith pair e)
  | .setDelay ms => w.changeService fun s => { s with delay := ms }
  | .setCrashing on =>
    { w with
      shared := { w.shared with service := { w.shared.service with crashing := on } }
    }.answered .done
  | .cacheGet key =>
    let (cache, found) := w.shared.cache.cache.lookup cacheClock key
    (w.mapCache fun _ => cache).answered (.rate found)
  | .cacheSet key rate ttl =>
    (w.mapCache (·.store cacheClock key rate ttl)).answered
      (if IsWithinReach ttl then .done else .overflowed .moment)
  | .cacheRemove key => (w.mapCache (·.remove key)).answered .done
  | .cacheClear => (w.mapCache (·.clear)).answered .done
  | .cacheEvict => (w.mapCache (·.evictExpired cacheClock)).answered .done
  | .cacheStats => w.answered (.cacheStats w.cacheStats)
  | .cacheFaults reads writes readDelay writeDelay =>
    let c := w.shared.cache
    let c := { c with
      failingReads := reads.getD c.failingReads
      failingWrites := writes.getD c.failingWrites
      readDelay := readDelay.getD c.readDelay
      writeDelay := writeDelay.getD c.writeDelay }
    { w with shared := { w.shared with cache := c } }.answered .done

end World

namespace LiveExchange

def view (w : World) (e : LiveExchange) : JoinView where
  cancelled := e.cancelAt ≤ w.now
  funding := if e.fundedAt ≤ w.now then some e.funding else none
  rate := w.rate? e.job

def outcomeAnswer (byWallet : Bool) : Attempt ExchangeFailure ExchangeOutcome → Answer :=
  .ofAttempt (fun f => if byWallet then .walletError f.error else .failure f) .outcome

def carryOut (w : World) (run : ExchangeRun) : World × ExchangeRun :=
  let run := run.step .priced
  match run.pending? with
  | none => (w, run)
  | some settlement =>
    let (w, _, reply) := w.callVault (.settle settlement)
    (w, (run.step (.settled reply)).step .concluded)

def poll (w : World) (e : LiveExchange) : Option (World × Answer) :=
  let (w, run) := carryOut w (e.run.step (.looked (e.view w)))
  run.result?.map fun result =>
    (w.record (Wallet.exchangeEvent? result), outcomeAnswer e.byWallet result)

end LiveExchange

namespace Wait

def poll (w : World) : Wait → Option (World × Answer)
  | answer due event? a => if due ≤ w.now then some (w.record event?, a) else none
  | rate job finished =>
    (w.rate? job).bind fun r =>
      if finished && !w.isFinished job then none else some (w, .ofRate r)
  | quote due pair =>
    if due ≤ w.now then
      some (w, .ofExcept .rateError .quoted (w.shared.service.service.quoteAt pair .epoch))
    else none
  | exchange live => live.poll w

def dues : Wait → List Nat
  | answer due _ _ => [due]
  | rate _ _ => []
  | quote due _ => [due]
  | exchange live => [live.cancelAt, live.fundedAt]

end Wait

end CurrencyWallet.Scenario

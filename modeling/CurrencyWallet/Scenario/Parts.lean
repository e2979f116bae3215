import CurrencyWallet.Ledger.Memory
import CurrencyWallet.Ledger.Remote
import CurrencyWallet.Ledger.Validation
import CurrencyWallet.Rates.Resolution

/-!
What a wallet works with, in a form that can be made slow and made to fail. A `RateDesk` is the
service and the cache that resolutions ask; a `Vault` is the ledger, in memory or remote. A request
is begun, which tells how long it takes, and completed when that time is over.
-/
namespace CurrencyWallet.Scenario

structure FallibleService where
  service : RateService
  crashing : Bool
  quotes : Nat

def FallibleService.around (service : RateService) : FallibleService := ⟨service, false, 0⟩

structure FallibleCache where
  cache : RateCache
  failingReads : Bool
  failingWrites : Bool
  readDelay : Nat
  writeDelay : Nat
  reads : Nat
  writes : Nat

def FallibleCache.around (cache : RateCache) : FallibleCache := ⟨cache, false, false, 0, 0, 0, 0⟩

/-- The age of rates is told by a clock that stands still: a rate without any life is expired from
the start, and every other one stays. -/
def cacheClock : Nat := 0

structure RateDesk where
  policy : RatePolicy
  service : FallibleService
  cache : FallibleCache

inductive Pending where
  | readCache (key : String)
  | quote (pair : CurrencyPair)
  | writeCache (key : String) (rate : Decimal) (ttl : Nat)
  | settled (answer : RateAnswer)

namespace RateDesk

def beginQuote (d : RateDesk) (pair : CurrencyPair) : RateDesk × Nat × Pending :=
  let d := { d with service := { d.service with quotes := d.service.quotes + 1 } }
  if d.service.crashing then (d, 0, .settled .quoteCrashed)
  else
    let (service, delay) := d.service.service.take
    let d := { d with service := { d.service with service } }
    if d.policy.quoteTimeout < delay then (d, d.policy.quoteTimeout, .settled .quoteTimedOut)
    else (d, delay, .quote pair)

/-- Begins a request, and tells how long it takes. What takes longer than its limit is given up
when the limit is reached. -/
def begin (d : RateDesk) : RateCall → RateDesk × Nat × Pending
  | .readCache key =>
    ({ d with cache := { d.cache with reads := d.cache.reads + 1 } }, d.cache.readDelay,
      .readCache key)
  | .quote pair => d.beginQuote pair
  | .writeCache key rate ttl =>
    let d := { d with cache := { d.cache with writes := d.cache.writes + 1 } }
    if d.policy.cacheWriteTimeout < d.cache.writeDelay then
      (d, d.policy.cacheWriteTimeout, .settled .cacheWriteFailed)
    else (d, d.cache.writeDelay, .writeCache key rate ttl)

def withCache (d : RateDesk) (cache : RateCache) : RateDesk :=
  { d with cache := { d.cache with cache } }

def complete (d : RateDesk) : Pending → RateDesk × RateAnswer
  | .readCache key =>
    if d.cache.failingReads then (d, .cacheFailed)
    else
      let (cache, found) := d.cache.cache.lookup cacheClock key
      (d.withCache cache, match found with | some rate => .cached rate | none => .notCached)
  | .quote pair =>
    (d, match d.service.service.quote pair with
      | .ok rate => .quoted rate
      | .error e => .quoteFailed e)
  | .writeCache key rate ttl =>
    if d.cache.failingWrites then (d, .cacheWriteFailed)
    else (d.withCache (d.cache.cache.store cacheClock key rate ttl), .ofWrite ttl)
  | .settled answer => (d, answer)

end RateDesk

structure RateJob where
  resolution : Resolution
  pending : Option (Nat × Pending)

namespace RateJob

def start (policy : RatePolicy) (pair : CurrencyPair) : RateJob := ⟨.start policy pair, none⟩

def isFinished (j : RateJob) : Bool := j.pending.isNone && j.resolution.request?.isNone

def due? (j : RateJob) : Option Nat := j.pending.map (·.1)

def step (now : Nat) (d : RateDesk) (j : RateJob) : Option (RateDesk × RateJob) :=
  match j.pending with
  | some (due, pending) =>
    if due ≤ now then
      let (d, answer) := d.complete pending
      some (d, ⟨j.resolution.advance d.policy answer, none⟩)
    else none
  | none =>
    j.resolution.request?.map fun call =>
      let (d, delay, pending) := d.begin call
      (d, { j with pending := some (now + delay, pending) })

def runSteps (now : Nat) : Nat → RateDesk → RateJob → RateDesk × RateJob
  | 0, d, j => (d, j)
  | steps + 1, d, j =>
    match j.step now d with
    | none => (d, j)
    | some (d, j) => runSteps now steps d j

/-- Goes on until it has to wait. Every request takes two steps. -/
def run (now : Nat) (d : RateDesk) (j : RateJob) : RateDesk × RateJob :=
  runSteps now (2 * j.resolution.callsLeft) d j

end RateJob

/-- A ledger whose calls can be made to fail. If it is remote, no call ever reaches it. -/
structure Vault where
  ledger : Ledger
  remote? : Option RemoteLedger
  failing : List RemoteCall
  settlements : Nat

namespace Vault

def kind : Ledger.Call → RemoteCall
  | .openAccounts _ => .openAccounts
  | .balances _ => .balances
  | .apply _ _ _ => .apply
  | .settle _ => .settle

def fault? (v : Vault) (call : RemoteCall) : Option (Nat × StorageFault) :=
  if call ∈ v.failing then some (0, .connectionReset)
  else v.remote?.map fun r => r.fate call

def countSettlement (v : Vault) : Ledger.Call → Vault
  | .settle _ => { v with settlements := v.settlements + 1 }
  | _ => v

def call (v : Vault) (call : Ledger.Call) : Vault × Nat × Ledger.Reply :=
  let v := v.countSettlement call
  match v.fault? (kind call) with
  | some (delay, fault) => (v, delay, .refused (.storage fault))
  | none =>
    let (ledger, reply) := v.ledger.perform call
    ({ v with ledger }, 0, reply)

def currencies (v : Vault) : Nat × Except LedgerError (List Currency) :=
  match v.fault? .currencies with
  | some (delay, fault) => (delay, .error (.storage fault))
  | none => (0, .ok v.ledger.currencies)

def fund (v : Vault) (user : UserId) (source target : Currency) (amount : Decimal) :
    Nat × Except LedgerError Funding :=
  match v.fault? .balances with
  | some (delay, fault) => (delay, .error (.storage fault))
  | none => (0, Funding.check (v.ledger.balances user) source target amount)

def setFailing (v : Vault) (changes : List (RemoteCall × Bool)) : Vault :=
  changes.foldl (fun v (call, fails) =>
    { v with failing :=
        if fails then call :: v.failing else v.failing.filter (· ≠ call) }) v

end Vault

end CurrencyWallet.Scenario

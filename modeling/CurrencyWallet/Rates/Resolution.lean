import CurrencyWallet.Rates.Cache
import CurrencyWallet.Rates.Service

/-!
Finding the rate of a pair: the cache first, then the service, and a rate that came from the
service is written to the cache after it has been delivered. A `Resolution` is one such search. It
says what it wants next (`request?`) and moves on when it is answered (`advance`), so that its
requests can be served at once (`RateDesk.resolve`) or over a stretch of time. Its result is there
as soon as it is known and does not change afterwards.
-/
namespace CurrencyWallet

structure RatePolicy where
  cacheTtl : Nat
  quoteTimeout : Nat
  cacheWriteTimeout : Nat
  useCache : Bool
  deriving DecidableEq

inductive RateSource where
  | cache
  | remote
  deriving DecidableEq, Repr

def RateSource.name : RateSource → String
  | .cache => "cache"
  | .remote => "remote"

structure ResolvedRate where
  pair : CurrencyPair
  rate : Decimal
  source : RateSource
  deriving DecidableEq

abbrev RateResult := Except RateError ResolvedRate

inductive RateCall where
  | readCache (key : String)
  | quote (pair : CurrencyPair)
  | writeCache (key : String) (rate : Decimal) (ttl : Nat)
  deriving DecidableEq

inductive RateAnswer where
  | cached (rate : Decimal)
  | notCached
  | cacheFailed
  | quoted (rate : Decimal)
  | quoteFailed (e : RateError)
  | quoteTimedOut
  | quoteCrashed
  | cacheWritten
  | cacheWriteFailed
  deriving DecidableEq

/-- The answer to a write to a cache that works: it fails only if it is broken off. -/
def RateAnswer.ofWrite (ttl : Nat) : RateAnswer :=
  if IsWithinReach ttl then .cacheWritten else .cacheWriteFailed

theorem RateAnswer.ofWrite_cases (ttl : Nat) :
    ofWrite ttl = .cacheWritten ∨ ofWrite ttl = .cacheWriteFailed := by
  unfold ofWrite
  split
  · exact Or.inl rfl
  · exact Or.inr rfl

structure Resolution where
  pair : CurrencyPair
  request? : Option RateCall
  result? : Option RateResult

namespace Resolution

def start (policy : RatePolicy) (pair : CurrencyPair) : Resolution :=
  ⟨pair, some (if policy.useCache then .readCache pair.key else .quote pair), none⟩

def finish (r : Resolution) (result : RateResult) : Resolution := ⟨r.pair, none, some result⟩

def deliver (policy : RatePolicy) (r : Resolution) (rate : Decimal) : Resolution :=
  ⟨r.pair, if policy.useCache then some (.writeCache r.pair.key rate policy.cacheTtl) else none,
    some (.ok ⟨r.pair, rate, .remote⟩)⟩

/-- Moves on with the answer to the request. Only a positive rate is believed, wherever it comes
from; a cache that fails is passed over, and a service that crashes counts as one without a rate.
An answer to something that was not asked changes nothing. -/
def advance (policy : RatePolicy) (r : Resolution) (answer : RateAnswer) : Resolution :=
  match r.request?, answer with
  | some (.readCache _), .cached rate =>
    if IsUsableRate rate then r.finish (.ok ⟨r.pair, rate, .cache⟩)
    else { r with request? := some (.quote r.pair) }
  | some (.readCache _), .notCached | some (.readCache _), .cacheFailed =>
    { r with request? := some (.quote r.pair) }
  | some (.quote _), .quoted rate =>
    if IsUsableRate rate then r.deliver policy rate
    else r.finish (.error (.unavailable r.pair))
  | some (.quote _), .quoteFailed e => r.finish (.error e)
  | some (.quote _), .quoteTimedOut => r.finish (.error (.timedOut r.pair))
  | some (.quote _), .quoteCrashed => r.finish (.error (.unavailable r.pair))
  | some (.writeCache _ _ _), .cacheWritten | some (.writeCache _ _ _), .cacheWriteFailed =>
    { r with request? := none }
  | _, _ => r

def run (policy : RatePolicy) (r : Resolution) (answers : List RateAnswer) : Resolution :=
  answers.foldl (advance policy) r

def callsLeft (r : Resolution) : Nat :=
  match r.request? with
  | some (.readCache _) => 3
  | some (.quote _) => 2
  | some (.writeCache _ _ _) => 1
  | none => 0

end Resolution

structure RateDesk where
  policy : RatePolicy
  rates : RateTable
  cache : RateCache

namespace RateDesk

def serve (d : RateDesk) (now : Nat) : RateCall → RateDesk × RateAnswer
  | .readCache key =>
    let (cache, found) := d.cache.lookup now key
    ({ d with cache }, match found with | some rate => .cached rate | none => .notCached)
  | .quote pair =>
    (d, match d.rates.quote pair with | .ok rate => .quoted rate | .error e => .quoteFailed e)
  | .writeCache key rate ttl =>
    ({ d with cache := d.cache.store now key rate ttl }, .ofWrite ttl)

def assist (d : RateDesk) (now : Nat) (r : Resolution) : RateDesk × Resolution :=
  match r.request? with
  | none => (d, r)
  | some call =>
    let (d, answer) := d.serve now call
    (d, r.advance d.policy answer)

def assistAll (now : Nat) : Nat → RateDesk → Resolution → RateDesk × Resolution
  | 0, d, r => (d, r)
  | calls + 1, d, r =>
    let (d, r) := d.assist now r
    assistAll now calls d r

/-- Finds the rate of `pair` and writes the cache, all at the time `now`. -/
def resolve (d : RateDesk) (now : Nat) (pair : CurrencyPair) : RateDesk × RateResult :=
  let r := Resolution.start d.policy pair
  let (d, r) := assistAll now r.callsLeft d r
  (d, r.result?.getD (.error (.unavailable pair)))

end RateDesk

end CurrencyWallet

import CurrencyWallet.Scenario.Activity

/-!
The setting a script starts in.
-/
namespace CurrencyWallet.Scenario

inductive ServiceKind where
  | fixed
  /-- A table that the script can change. -/
  | scripted (name : String)
  /-- A fixed table, and a wallet with a service and a cache of its own. -/
  | configured
  deriving DecidableEq

structure Setting where
  currencies : List Currency
  rates : List (CurrencyPair × Decimal)
  service : ServiceKind
  policy : RatePolicy
  exchangeTimeout : Nat
  capacity : Nat
  remote? : Option RemoteLedger

namespace Setting

def rateTable (s : Setting) : RateTable := RateTable.ofRates s.rates

def sharedService (s : Setting) : RateService :=
  match s.service with
  | .scripted name => .scripted (.named name s.rateTable)
  | _ => .fixed s.rateTable

def ownDesk? (s : Setting) : Option RateDesk :=
  match s.service with
  | .configured =>
    some
      { policy := { s.policy with useCache := true }
        service := .around (.fixed s.rateTable)
        cache := .around (.new RateCache.defaultCapacity) }
  | _ => none

def world (s : Setting) : World where
  now := 0
  vault := ⟨.new s.currencies, s.remote?, [], 0⟩
  shared := ⟨s.policy, .around s.sharedService, .around (.new s.capacity)⟩
  own? := s.ownDesk?
  exchangeTimeout := s.exchangeTimeout
  metrics := .zero
  jobs := []
  tickets := ∅

def play (s : Setting) (script : List Step) : List Answer := Scenario.run s.world script

end Setting

end CurrencyWallet.Scenario

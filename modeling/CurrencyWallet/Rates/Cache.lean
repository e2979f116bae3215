import CurrencyWallet.Currency
import CurrencyWallet.Decimal.Basic
import CurrencyWallet.Overflow

/-!
A store of rates that expire. Time is a number that every operation is told. A rate can be read
strictly before it expires; an expired one is removed by the next read of its key, or by the next
write that finds the store full.
-/
namespace CurrencyWallet

structure CachedRate where
  rate : Decimal
  expires : Nat
  deriving DecidableEq

def CachedRate.IsFresh (now : Nat) (e : CachedRate) : Prop := now < e.expires

instance (now : Nat) (e : CachedRate) : Decidable (e.IsFresh now) :=
  inferInstanceAs (Decidable (now < e.expires))

/-- Expired entries are looked for when a write finds `capacity` entries or more. -/
structure RateCache where
  capacity : Nat
  entries : Table String CachedRate
  deriving DecidableEq

namespace RateCache

def defaultCapacity : Nat := 10000

def new (capacity : Nat) : RateCache := ⟨capacity, ∅⟩

def read? (c : RateCache) (now : Nat) (key : String) : Option Decimal :=
  ((c.entries.get? key).filter (·.IsFresh now)).map (·.rate)

def remove (c : RateCache) (key : String) : RateCache :=
  { c with entries := c.entries.erase key }

def lookup (c : RateCache) (now : Nat) (key : String) : RateCache × Option Decimal :=
  match c.entries.get? key with
  | none => (c, none)
  | some e => if e.IsFresh now then (c, some e.rate) else (c.remove key, none)

def evictExpired (c : RateCache) (now : Nat) : RateCache :=
  { c with entries := c.entries.filter fun _ e => e.IsFresh now }

def makeRoom (c : RateCache) (now : Nat) : RateCache :=
  if c.capacity ≤ c.entries.size then c.evictExpired now else c

/-- Writes a rate that can be read for `ttl`. If there is no moment so far ahead, the write is
broken off when room has been made for it. -/
def store (c : RateCache) (now : Nat) (key : String) (rate : Decimal) (ttl : Nat) : RateCache :=
  let c := c.makeRoom now
  if IsWithinReach ttl then { c with entries := c.entries.insert key ⟨rate, now + ttl⟩ } else c

def clear (c : RateCache) : RateCache := { c with entries := ∅ }

def size (c : RateCache) : Nat := c.entries.size

def freshCount (c : RateCache) (now : Nat) : Nat :=
  (c.entries.toList.filter fun e => e.2.IsFresh now).length

def expiredCount (c : RateCache) (now : Nat) : Nat := c.size - c.freshCount now

theorem store_of_reach {ttl : Nat} (h : IsWithinReach ttl) (c : RateCache) (now : Nat)
    (key : String) (rate : Decimal) : c.store now key rate ttl =
      { c.makeRoom now with entries := (c.makeRoom now).entries.insert key ⟨rate, now + ttl⟩ } :=
  if_pos h

theorem store_of_not_reach {ttl : Nat} (h : ¬ IsWithinReach ttl) (c : RateCache) (now : Nat)
    (key : String) (rate : Decimal) : c.store now key rate ttl = c.makeRoom now := if_neg h

theorem lookup_snd (c : RateCache) (now : Nat) (key : String) :
    (c.lookup now key).2 = c.read? now key := by
  unfold lookup read?
  cases c.entries.get? key with
  | none => rfl
  | some e => by_cases h : e.IsFresh now <;> simp [h, Option.filter]

end RateCache

inductive RateCacheFault where
  | backend (text : String)
  | corrupt (key value : String)
  deriving DecidableEq

def RateCacheFault.message : RateCacheFault → String
  | .backend text => "Cache backend error: " ++ text
  | .corrupt key value => "Corrupt cache value for " ++ key ++ ": " ++ value

end CurrencyWallet

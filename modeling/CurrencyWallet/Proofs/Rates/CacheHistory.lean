import CurrencyWallet.Proofs.Rates.Desk
import Mathlib.Data.List.Induction

/-!
A cache of rates is its history. At any moment a key has the rate of the write that was the last to
bear on it, as long as that rate lives; what a read removes, and what makes room for a write, had
expired and could not be read any more. A cache outgrows its capacity by rates that are alive only.
A write for a time that no clock reaches is broken off: it leaves what can be read as it was, and
the rate before it, if there is one, stands in its place.
-/
namespace CurrencyWallet

namespace RateCache

inductive Call where
  | get (key : String)
  | set (key : String) (rate : Decimal) (ttl : Nat)
  | remove (key : String)
  | clear
  | evict

structure Event where
  time : Nat
  call : Call

def serve (c : RateCache) (e : Event) : RateCache :=
  match e.call with
  | .get key => (c.lookup e.time key).1
  | .set key rate ttl => c.store e.time key rate ttl
  | .remove key => c.remove key
  | .clear => c.clear
  | .evict => c.evictExpired e.time

def run (c : RateCache) (events : List Event) : RateCache := events.foldl serve c

/-- There is a moment at which what is written expires. -/
def Call.IsCarriedOut : Call → Prop
  | .set _ _ ttl => IsWithinReach ttl
  | _ => True

instance (call : Call) : Decidable call.IsCarriedOut :=
  match call with
  | .set _ _ ttl => inferInstanceAs (Decidable (IsWithinReach ttl))
  | .get _ | .remove _ | .clear | .evict => inferInstanceAs (Decidable True)

/-- What stands under a key after a call, if nothing is lost. -/
def Event.leave (key : String) (entry : Option CachedRate) (e : Event) : Option CachedRate :=
  match e.call with
  | .set key' rate ttl => if key = key' then some ⟨rate, e.time + ttl⟩ else entry
  | .remove key' => if key = key' then none else entry
  | .clear => none
  | .get _ | .evict => entry

def left? (log : List Event) (key : String) : Option CachedRate := log.foldl (Event.leave key) none

theorem left?_concat (log : List Event) (e : Event) (key : String) :
    left? (log ++ [e]) key = e.leave key (left? log key) := by
  rw [left?, List.foldl_append]
  rfl

def fresh? (c : RateCache) (now : Nat) (key : String) : Option CachedRate :=
  (c.entries.get? key).filter (·.IsFresh now)

section Calls

variable {c : RateCache} {now later : Nat}

theorem filter_fresh_of_le (h : now ≤ later) (entry : Option CachedRate) :
    (entry.filter (·.IsFresh now)).filter (·.IsFresh later) = entry.filter (·.IsFresh later) := by
  cases entry with
  | none => rfl
  | some e =>
    by_cases hnow : e.IsFresh now
    · rw [Option.filter_some, if_pos (decide_eq_true hnow)]
    · have hlater : ¬ e.IsFresh later := fun hfresh => hnow (Nat.lt_of_le_of_lt h hfresh)
      simp [Option.filter_some, hnow, hlater]

theorem fresh?_evictExpired (h : now ≤ later) (key : String) :
    (c.evictExpired now).fresh? later key = c.fresh? later key := by
  rw [fresh?, evictExpired, Table.get?_filter, filter_fresh_of_le h]
  rfl

theorem fresh?_makeRoom (h : now ≤ later) (key : String) :
    (c.makeRoom now).fresh? later key = c.fresh? later key := by
  unfold makeRoom
  split
  · exact fresh?_evictExpired h key
  · rfl

theorem fresh?_remove (key key' : String) :
    (c.remove key).fresh? later key' = if key' = key then none else c.fresh? later key' := by
  rw [fresh?, remove, Table.get?_erase]
  split <;> rfl

theorem fresh?_lookup (h : now ≤ later) (key key' : String) :
    (c.lookup now key).1.fresh? later key' = c.fresh? later key' := by
  unfold lookup
  cases hentry : c.entries.get? key with
  | none => rfl
  | some e =>
    by_cases hnow : e.IsFresh now
    · simp only [if_pos hnow]
    · simp only [if_neg hnow]
      rw [fresh?_remove]
      split
      · rename_i hkey
        rw [hkey, fresh?, hentry, ← filter_fresh_of_le h, Option.filter_some,
          if_neg (by simpa using hnow), Option.filter_none]
      · rfl

theorem fresh?_store {ttl : Nat} (hreach : IsWithinReach ttl) (h : now ≤ later)
    (key key' : String) (rate : Decimal) :
    (c.store now key rate ttl).fresh? later key' =
      if key' = key then (some ⟨rate, now + ttl⟩ : Option CachedRate).filter (·.IsFresh later)
      else c.fresh? later key' := by
  rw [fresh?, store_of_reach hreach, Table.get?_insert]
  split
  · rfl
  · exact fresh?_makeRoom h key'

end Calls

/-! ### Histories -/

/-- What can be read at `now` or later is what stands in a cache that loses nothing. -/
def Mirrors (c : RateCache) (log : List Event) (now : Nat) : Prop :=
  ∀ later key, now ≤ later → c.fresh? later key = (left? log key).filter (·.IsFresh later)

section Histories

variable {c : RateCache} {log : List Event}

theorem Mirrors.serve {e : Event} (he : e.call.IsCarriedOut) (h : c.Mirrors log e.time) :
    (c.serve e).Mirrors (log ++ [e]) e.time := by
  intro later key hlater
  have hread := h later key hlater
  obtain ⟨time, call⟩ := e
  rw [left?_concat]
  cases call with
  | get key' => exact (fresh?_lookup hlater key' key).trans hread
  | set key' rate ttl =>
    refine (fresh?_store he hlater key' key rate).trans ?_
    simp only [Event.leave]
    split
    · rfl
    · exact hread
  | remove key' =>
    refine (fresh?_remove key' key).trans ?_
    simp only [Event.leave]
    split
    · rfl
    · exact hread
  | clear => rfl
  | evict => exact (fresh?_evictExpired hlater key).trans hread

end Histories

end RateCache

end CurrencyWallet

/-!
The states an exchange goes through. It runs forward only, from `start` to `done` or to one of
five failures.
-/
namespace CurrencyWallet

inductive ExchangeState where
  | start
  | inFlight
  | joined
  | computed
  | committed
  | done
  | validationFailed
  | rateFailed
  | computeFailed
  | commitFailed
  | deadlineExceeded
  deriving DecidableEq, Repr

namespace ExchangeState

def all : List ExchangeState :=
  [start, inFlight, joined, computed, committed, done, validationFailed, rateFailed,
   computeFailed, commitFailed, deadlineExceeded]

def name : ExchangeState → String
  | start => "start"
  | inFlight => "in_flight"
  | joined => "joined"
  | computed => "computed"
  | committed => "committed"
  | done => "done"
  | validationFailed => "validation_failed"
  | rateFailed => "rate_failed"
  | computeFailed => "compute_failed"
  | commitFailed => "commit_failed"
  | deadlineExceeded => "deadline_exceeded"

def ofName? (s : String) : Option ExchangeState := all.find? (·.name = s)

def next : ExchangeState → List ExchangeState
  | start => [inFlight]
  | inFlight => [joined, validationFailed, rateFailed, deadlineExceeded]
  | joined => [computed, computeFailed]
  | computed => [committed, commitFailed]
  | committed => [done]
  | _ => []

def CanBecome (s t : ExchangeState) : Prop := t ∈ s.next

instance (s t : ExchangeState) : Decidable (CanBecome s t) := inferInstanceAs (Decidable (t ∈ _))

def isFailure : ExchangeState → Bool
  | validationFailed | rateFailed | computeFailed | commitFailed | deadlineExceeded => true
  | _ => false

def isTerminal (s : ExchangeState) : Bool := s = done || s.isFailure

def hasMutated : ExchangeState → Bool
  | committed | done => true
  | _ => false

theorem ofName?_name (s : ExchangeState) : ofName? s.name = some s := by
  cases s <;> decide

theorem next_eq_nil_iff (s : ExchangeState) : s.next = [] ↔ s.isTerminal = true := by
  cases s <;> decide

end ExchangeState

end CurrencyWallet

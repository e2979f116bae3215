import CurrencyWallet.Rates.Error
import CurrencyWallet.Decimal.Text

/-!
Where rates come from. A `RateTable` is a fixed list of rates; a `ScriptedService` answers after a
delay from a table that can be changed, and fails for the pairs it is told to.
-/
namespace CurrencyWallet

abbrev RateTable := Table String Decimal

namespace RateTable

/-- Of several rates for one pair the last one counts. -/
def ofRates (rates : List (CurrencyPair × Decimal)) : RateTable :=
  Table.ofList (rates.map fun e => (e.1.key, e.2))

def quote (rates : RateTable) (pair : CurrencyPair) : Except RateError Decimal :=
  match rates.get? pair.key with
  | some rate => .ok rate
  | none => .error (.unsupported pair)

theorem get?_ofRates_key (rates : List (CurrencyPair × Decimal)) (key : String) :
    (ofRates rates).get? key = (rates.reverse.find? (·.1.key = key)).map (·.2) := by
  rw [ofRates, Table.get?_ofList, ← List.map_reverse, List.find?_map, Option.map_map]
  rfl

end RateTable

structure ScriptedService where
  name : String
  rates : RateTable
  failures : Table String RateError
  delay : Nat
  calls : Nat
  deriving DecidableEq

namespace ScriptedService

def named (name : String) (rates : RateTable) : ScriptedService := ⟨name, rates, ∅, 0, 0⟩

def setRate (s : ScriptedService) (pair : CurrencyPair) (rate : Decimal) : ScriptedService :=
  { s with rates := s.rates.insert pair.key rate }

def failWith (s : ScriptedService) (pair : CurrencyPair) (e : RateError) : ScriptedService :=
  { s with failures := s.failures.insert pair.key e }

def quote (s : ScriptedService) (pair : CurrencyPair) : Except RateError Decimal :=
  match s.failures.get? pair.key with
  | some e => .error e
  | none => s.rates.quote pair

end ScriptedService

inductive RateService where
  | fixed (rates : RateTable)
  | scripted (script : ScriptedService)
  deriving DecidableEq

namespace RateService

def name : RateService → String
  | fixed _ => "STATIC"
  | scripted s => s.name

def rates : RateService → RateTable
  | fixed r => r
  | scripted s => s.rates

def take : RateService → RateService × Nat
  | fixed r => (fixed r, 0)
  | scripted s => (scripted { s with calls := s.calls + 1 }, s.delay)

def quote : RateService → CurrencyPair → Except RateError Decimal
  | fixed r => r.quote
  | scripted s => s.quote

end RateService

def IsUsableRate (rate : Decimal) : Prop := rate.IsPositive

instance (rate : Decimal) : Decidable (IsUsableRate rate) :=
  inferInstanceAs (Decidable rate.IsPositive)

end CurrencyWallet

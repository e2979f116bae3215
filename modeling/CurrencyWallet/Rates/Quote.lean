import CurrencyWallet.Rates.Service
import CurrencyWallet.Timestamp

/-!
A quote: the rate a service gave for a pair, and when.
-/
namespace CurrencyWallet

structure Quote where
  pair : CurrencyPair
  rate : Decimal
  observedAt : Timestamp
  source : String
  deriving DecidableEq

def Quote.IsUsable (q : Quote) : Prop := IsUsableRate q.rate

instance (q : Quote) : Decidable q.IsUsable := inferInstanceAs (Decidable (IsUsableRate q.rate))

def RateService.quoteAt (s : RateService) (pair : CurrencyPair) (now : Timestamp) :
    Except RateError Quote :=
  (s.quote pair).map fun rate => ⟨pair, rate, now, s.name⟩

end CurrencyWallet

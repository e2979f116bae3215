import CurrencyWallet.Currency

/-!
Why no rate can be had for a pair.
-/
namespace CurrencyWallet

inductive RateError where
  | unavailable (pair : CurrencyPair)
  | timedOut (pair : CurrencyPair)
  | unsupported (pair : CurrencyPair)
  | service (pair : CurrencyPair) (text : String)
  deriving DecidableEq

namespace RateError

def pair : RateError → CurrencyPair
  | .unavailable p | .timedOut p | .unsupported p | .service p _ => p

def message : RateError → String
  | .unavailable p => s!"Rate not available for {p}"
  | .timedOut p => s!"Rate request timed out for {p}"
  | .unsupported p => s!"Currency pair not supported: {p}"
  | .service p text => s!"Rate service error for {p}: {text}"

end RateError

end CurrencyWallet

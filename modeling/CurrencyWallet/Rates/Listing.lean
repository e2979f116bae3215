import CurrencyWallet.Decimal.Text
import CurrencyWallet.Rates.Service

/-!
Rates in one line of text: `USD/EUR=0.92,EUR/USD=1.087`. Blank entries are skipped, and the first
malformed entry is reported.
-/
namespace CurrencyWallet

open Text

inductive RateEntryError where
  | noRate (entry : String)
  | badPair (text : String)
  | badRate (pair : CurrencyPair) (text : String)
  deriving DecidableEq

def RateEntryError.message : RateEntryError → String
  | .noRate entry => "Invalid rate entry: " ++ entry
  | .badPair text => CurrencyPair.malformed text
  | .badRate pair text => s!"Invalid rate for {pair}: {text}"

namespace RateListing

def trimmed (cs : List Char) : String := String.ofList (trim cs)

def readEntry (entry : List Char) : Except RateEntryError (CurrencyPair × Decimal) :=
  match splitOnce '=' entry with
  | none => .error (.noRate (trimmed entry))
  | some (left, right) =>
    match CurrencyPair.ofText? (trimmed left) with
    | none => .error (.badPair (trimmed left))
    | some pair =>
      match Decimal.ofText? (trimmed right) with
      | none => .error (.badRate pair (trimmed right))
      | some rate => .ok (pair, rate)

def entries (s : String) : List (List Char) :=
  (splitAt ',' s.toList).filter fun entry => !allBlank entry

def ofText (s : String) : Except RateEntryError (List (CurrencyPair × Decimal)) :=
  (entries s).mapM readEntry

def entryText (e : CurrencyPair × Decimal) : List Char :=
  e.1.key.toList ++ '=' :: e.2.chars

def toText (rates : List (CurrencyPair × Decimal)) : String :=
  String.ofList (joinWith ',' (rates.map entryText))

end RateListing

end CurrencyWallet

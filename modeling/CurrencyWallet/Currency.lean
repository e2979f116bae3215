import CurrencyWallet.Table
import CurrencyWallet.Text.Blank
import CurrencyWallet.Text.Split
import CurrencyWallet.Text.Uppercase

/-!
Currencies and pairs of currencies. A currency is a code; `Currency.ofText` trims a text and takes
it to upper case, and a code is valid if it is three ASCII capitals. Codes are ordered by code
point. A pair is written `SOURCE/TARGET`, which is also the key of its rate.
-/
namespace CurrencyWallet

open Text

structure Currency where
  code : String
  deriving DecidableEq

namespace Currency

def ofText (s : String) : Currency := ⟨String.ofList (uppercase (trim s.toList))⟩

def isCapital (c : Char) : Bool := 'A' ≤ c && c ≤ 'Z'

def IsValid (c : Currency) : Prop := c.code.toList.length = 3 ∧ c.code.toList.all isCapital = true

instance (c : Currency) : Decidable c.IsValid := inferInstanceAs (Decidable (_ ∧ _))

instance : ToString Currency := ⟨code⟩

def usd : Currency := ⟨"USD"⟩
def eur : Currency := ⟨"EUR"⟩
def rub : Currency := ⟨"RUB"⟩

theorem code_inj {a b : Currency} : a.code = b.code ↔ a = b := by
  cases a; cases b; simp

instance : KeyOrder Currency where
  lt a b := a.code < b.code
  decLt a b := inferInstanceAs (Decidable (a.code < b.code))
  irrefl a := KeyOrder.irrefl a.code
  trans h₁ h₂ := KeyOrder.trans (κ := String) h₁ h₂
  connected {_ _} h hne := KeyOrder.connected h fun heq => hne (code_inj.1 heq)

/-- The codes of a comma-separated list, in ascending order and each once; blank entries are
skipped. -/
def listOfText (s : String) : List Currency :=
  ascending <| ((splitAt ',' s.toList).filter fun part => !allBlank part).map
    fun part => ofText (String.ofList part)

end Currency

/-- An exchange gives `source` and receives `target`. -/
structure CurrencyPair where
  source : Currency
  target : Currency
  deriving DecidableEq

namespace CurrencyPair

def key (p : CurrencyPair) : String := p.source.code ++ "/" ++ p.target.code

instance : ToString CurrencyPair := ⟨key⟩

def inverse (p : CurrencyPair) : CurrencyPair := ⟨p.target, p.source⟩

/-- The pair a text spells, if both sides of its first slash are valid codes. -/
def ofText? (s : String) : Option CurrencyPair :=
  match splitOnce '/' s.toList with
  | none => none
  | some (left, right) =>
    let pair : CurrencyPair :=
      ⟨Currency.ofText (String.ofList left), Currency.ofText (String.ofList right)⟩
    if pair.source.IsValid ∧ pair.target.IsValid then some pair else none

def malformed (s : String) : String := "Invalid currency pair: " ++ s

end CurrencyPair

structure PairError where
  text : String
  deriving DecidableEq

def PairError.message (e : PairError) : String := CurrencyPair.malformed e.text

def CurrencyPair.ofText (s : String) : Except PairError CurrencyPair :=
  match ofText? s with
  | some pair => .ok pair
  | none => .error ⟨s⟩

end CurrencyWallet

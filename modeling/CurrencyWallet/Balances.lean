import CurrencyWallet.Currency
import CurrencyWallet.Decimal.Text

/-!
Users and their balances, one a currency, in the order of the codes.
-/
namespace CurrencyWallet

structure UserId where
  number : Int
  deriving DecidableEq

namespace UserId

def IsValid (u : UserId) : Prop := 0 < u.number

instance (u : UserId) : Decidable u.IsValid := inferInstanceAs (Decidable (0 < u.number))

instance : ToString UserId := ⟨fun u => toString u.number⟩

instance : KeyOrder UserId where
  lt a b := a.number < b.number
  decLt a b := inferInstanceAs (Decidable (a.number < b.number))
  irrefl a := KeyOrder.irrefl a.number
  trans h₁ h₂ := KeyOrder.trans (κ := Int) h₁ h₂
  connected {a b} h hne := KeyOrder.connected h fun heq => hne (by cases a; cases b; simp_all)

end UserId

abbrev Balances := Table Currency Decimal

namespace Balances

def zeros (currencies : List Currency) : Balances :=
  Table.ofList (currencies.map fun c => (c, Decimal.zero))

def SameValues (a b : Balances) : Prop :=
  a.keys = b.keys ∧ ∀ e ∈ a.toList.zip b.toList, e.1.2.SameValue e.2.2

instance (a b : Balances) : Decidable (SameValues a b) := inferInstanceAs (Decidable (_ ∧ _))

def negativeCount (b : Balances) : Nat := (b.toList.filter fun e => e.2.IsNegative).length

end Balances

end CurrencyWallet

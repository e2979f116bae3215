import CurrencyWallet.Text.Numeral

/-!
What breaks a call off: a sum or a product that is too wide for a decimal, or a moment that is too
far ahead for a clock. Times are in milliseconds. A clock counts its seconds in 64 bits with a
sign, and what it shows already is taken for nothing beside that many, so that a span alone decides
whether there is a moment so far ahead.
-/
namespace CurrencyWallet

inductive Overflow where
  | addition
  | subtraction
  | multiplication
  | moment
  deriving DecidableEq, Repr

def Overflow.message : Overflow → String
  | .addition => "Addition overflowed"
  | .subtraction => "Subtraction overflowed"
  | .multiplication => "Multiplication overflowed"
  | .moment => "overflow when adding duration to instant"

def longestSpan : Nat := 2 ^ 63 * 1000 - 1

/-- There is a moment that far ahead. -/
def IsWithinReach (span : Nat) : Prop := span ≤ longestSpan

instance (span : Nat) : Decidable (IsWithinReach span) :=
  inferInstanceAs (Decidable (span ≤ longestSpan))

end CurrencyWallet

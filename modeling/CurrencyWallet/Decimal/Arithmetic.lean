import CurrencyWallet.Decimal.Rounding
import CurrencyWallet.Overflow

/-!
Sums, differences and products. Each is the exact result brought into range by `Decimal.fit`; a
zero operand is answered without alignment, so its places do not reach the result. A result that
does not fit even without places is an overflow.
-/
namespace CurrencyWallet

namespace Decimal

def coeffAt (d : Decimal) (scale : Nat) : Int := d.coeff * 10 ^ (scale - d.scale)

def addAligned (a b : Decimal) : Option Decimal :=
  let scale := max a.scale b.scale
  let sum := a.coeffAt scale + b.coeffAt scale
  fit sum sum.natAbs scale

def add (a b : Decimal) : Except Overflow Decimal :=
  if a.IsZero then .ok b
  else if b.IsZero then .ok a
  else match addAligned a b with
    | some d => .ok d
    | none => .error .addition

def sub (a b : Decimal) : Except Overflow Decimal :=
  if a.IsZero then .ok (-b)
  else if b.IsZero then .ok a
  else match addAligned a (-b) with
    | some d => .ok d
    | none => .error .subtraction

/-- Two short coefficients whose product would have more than 47 places: the product is taken for
zero. -/
def IsNegligible (a b : Decimal) : Prop :=
  a.coeff.natAbs < 2 ^ 32 ∧ b.coeff.natAbs < 2 ^ 32 ∧ 47 < a.scale + b.scale

instance (a b : Decimal) : Decidable (IsNegligible a b) :=
  inferInstanceAs (Decidable (_ ∧ _ ∧ _))

def mul (a b : Decimal) : Except Overflow Decimal :=
  if a.IsZero ∨ b.IsZero then .ok zero
  else if IsNegligible a b then .ok zero
  else
    let product := a.coeff * b.coeff
    match fit product product.natAbs (a.scale + b.scale) with
    | some d => .ok d
    | none => .error .multiplication

end Decimal

end CurrencyWallet

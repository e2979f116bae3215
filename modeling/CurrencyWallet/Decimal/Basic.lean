import CurrencyWallet.Text.Numeral

/-!
Decimal numbers of fixed width: a whole number of at most 96 bits over a power of ten of at most
28 places. The number of places is part of the number, so `5`, `5.0` and `5.00` are three
decimals of one value. Zero has no sign. Order and sameness of value compare by cross
multiplication, without a fraction.
-/
namespace CurrencyWallet

def coefficientLimit : Nat := 2 ^ 96

def maxScale : Nat := 28

structure Decimal where
  coeff : Int
  scale : Nat
  coeff_lt : coeff.natAbs < coefficientLimit := by decide
  scale_le : scale ≤ maxScale := by decide
  deriving DecidableEq

namespace Decimal

def ofParts? (coeff : Int) (scale : Nat) : Option Decimal :=
  if hc : coeff.natAbs < coefficientLimit then
    if hs : scale ≤ maxScale then some ⟨coeff, scale, hc, hs⟩ else none
  else none

def small (coeff : Int32) (scale : Nat) : Decimal :=
  ⟨coeff.toInt, min scale maxScale, by
    have h := coeff.toInt_lt
    have h' := coeff.le_toInt
    unfold coefficientLimit
    omega, Nat.min_le_right _ _⟩

def zero : Decimal := ⟨0, 0, by decide, by decide⟩

instance : Inhabited Decimal := ⟨zero⟩

def ofInt? (n : Int) : Option Decimal := ofParts? n 0

def toRat (d : Decimal) : Rat := mkRat d.coeff (10 ^ d.scale)

def neg (d : Decimal) : Decimal :=
  ⟨-d.coeff, d.scale, by rw [Int.natAbs_neg]; exact d.coeff_lt, d.scale_le⟩

instance : Neg Decimal := ⟨neg⟩

instance : LT Decimal := ⟨fun a b => a.coeff * 10 ^ b.scale < b.coeff * 10 ^ a.scale⟩

instance : LE Decimal := ⟨fun a b => a.coeff * 10 ^ b.scale ≤ b.coeff * 10 ^ a.scale⟩

instance (a b : Decimal) : Decidable (a < b) :=
  inferInstanceAs (Decidable (a.coeff * 10 ^ b.scale < b.coeff * 10 ^ a.scale))

instance (a b : Decimal) : Decidable (a ≤ b) :=
  inferInstanceAs (Decidable (a.coeff * 10 ^ b.scale ≤ b.coeff * 10 ^ a.scale))

def SameValue (a b : Decimal) : Prop := a.coeff * 10 ^ b.scale = b.coeff * 10 ^ a.scale

instance (a b : Decimal) : Decidable (SameValue a b) :=
  inferInstanceAs (Decidable (a.coeff * 10 ^ b.scale = b.coeff * 10 ^ a.scale))

def IsPositive (d : Decimal) : Prop := 0 < d.coeff

def IsNegative (d : Decimal) : Prop := d.coeff < 0

def IsZero (d : Decimal) : Prop := d.coeff = 0

instance (d : Decimal) : Decidable d.IsPositive := inferInstanceAs (Decidable (0 < d.coeff))

instance (d : Decimal) : Decidable d.IsNegative := inferInstanceAs (Decidable (d.coeff < 0))

instance (d : Decimal) : Decidable d.IsZero := inferInstanceAs (Decidable (d.coeff = 0))

@[simp] theorem coeff_neg (d : Decimal) : (-d).coeff = -d.coeff := rfl

@[simp] theorem scale_neg (d : Decimal) : (-d).scale = d.scale := rfl

theorem coeff_ofParts? {c : Int} {s : Nat} {d : Decimal} (h : ofParts? c s = some d) :
    d.coeff = c ∧ d.scale = s := by
  unfold ofParts? at h
  split at h
  · split at h
    · cases h; exact ⟨rfl, rfl⟩
    · cases h
  · cases h

end Decimal

end CurrencyWallet

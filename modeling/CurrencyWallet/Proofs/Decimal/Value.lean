import CurrencyWallet.Decimal.Arithmetic
import Mathlib.Algebra.Order.Field.Rat
import Mathlib.Tactic.FieldSimp
import Mathlib.Tactic.Linarith
import Mathlib.Tactic.NormNum
import Mathlib.Tactic.Positivity
import Mathlib.Tactic.Ring

/-!
The value of a decimal as a rational number. Comparison and sign of decimals are those of their
values, and written with the most places two decimals of one value have one coefficient.
-/
namespace CurrencyWallet.Decimal

theorem toRat_eq (d : Decimal) : d.toRat = (d.coeff : ℚ) / 10 ^ d.scale := by
  rw [toRat, Rat.mkRat_eq_div]
  norm_cast

theorem pow_scale_pos (d : Decimal) : (0 : ℚ) < 10 ^ d.scale := by positivity

theorem sameValue_iff {a b : Decimal} : a.SameValue b ↔ a.toRat = b.toRat := by
  rw [toRat_eq, toRat_eq, div_eq_div_iff (pow_scale_pos a).ne' (pow_scale_pos b).ne']
  unfold SameValue
  norm_cast

theorem lt_iff_toRat {a b : Decimal} : a < b ↔ a.toRat < b.toRat := by
  rw [toRat_eq, toRat_eq, div_lt_div_iff₀ (pow_scale_pos a) (pow_scale_pos b)]
  change a.coeff * 10 ^ b.scale < b.coeff * 10 ^ a.scale ↔ _
  norm_cast

theorem isNegative_iff {d : Decimal} : d.IsNegative ↔ d.toRat < 0 := by
  rw [toRat_eq, div_lt_iff₀ (pow_scale_pos d), zero_mul]
  unfold IsNegative
  norm_cast

theorem toRat_nonneg_iff {d : Decimal} : 0 ≤ d.toRat ↔ 0 ≤ d.coeff := by
  rw [← not_lt, ← isNegative_iff, IsNegative, not_lt]

theorem isPositive_iff {d : Decimal} : d.IsPositive ↔ 0 < d.toRat := by
  rw [toRat_eq, lt_div_iff₀ (pow_scale_pos d), zero_mul]
  unfold IsPositive
  norm_cast

theorem isZero_iff {d : Decimal} : d.IsZero ↔ d.toRat = 0 := by
  rw [toRat_eq, div_eq_zero_iff, or_iff_left (pow_scale_pos d).ne']
  unfold IsZero
  norm_cast

theorem neg_neg (d : Decimal) : - -d = d := by
  obtain ⟨coeff, scale, hcoeff, hscale⟩ := d
  change neg (neg _) = _
  simp only [neg, Int.neg_neg]

theorem not_lt_iff {a b : Decimal} : ¬ a < b ↔ b ≤ a := Int.not_lt

theorem toRat_neg (d : Decimal) : (-d).toRat = -d.toRat := by
  rw [toRat_eq, toRat_eq, coeff_neg, scale_neg]
  push_cast
  rw [neg_div]

theorem toRat_zero : zero.toRat = 0 := by
  rw [toRat_eq]
  simp [zero]

theorem toRat_eq_coeffAt (d : Decimal) {scale : Nat} (h : d.scale ≤ scale) :
    d.toRat = (d.coeffAt scale : ℚ) / 10 ^ scale := by
  have hpow : (10 : ℚ) ^ scale = 10 ^ (scale - d.scale) * 10 ^ d.scale := by
    rw [← pow_add, Nat.sub_add_cancel h]
  rw [toRat_eq, coeffAt, hpow]
  push_cast
  field_simp

theorem toRat_add_toRat (a b : Decimal) :
    a.toRat + b.toRat =
      ((a.coeffAt (max a.scale b.scale) + b.coeffAt (max a.scale b.scale) : Int) : ℚ) /
        10 ^ max a.scale b.scale := by
  rw [toRat_eq_coeffAt a (le_max_left _ _), toRat_eq_coeffAt b (le_max_right _ _), ← add_div,
    ← Int.cast_add]

theorem coeffAt_maxScale_congr {a b : Decimal} (h : a.toRat = b.toRat) :
    a.coeffAt maxScale = b.coeffAt maxScale := by
  rw [toRat_eq_coeffAt a a.scale_le, toRat_eq_coeffAt b b.scale_le,
    div_left_inj' (by positivity)] at h
  exact_mod_cast h

theorem coeffAt_mul_pow (d : Decimal) {scale : Nat} (h : d.scale ≤ scale) (more : Nat) :
    d.coeffAt (scale + more) = d.coeffAt scale * 10 ^ more := by
  rw [coeffAt, coeffAt, mul_assoc, ← pow_add, Nat.sub_add_comm h]

end CurrencyWallet.Decimal

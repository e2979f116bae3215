import CurrencyWallet.Proofs.Decimal.Faithful
import Mathlib.Data.Rat.Floor

/-!
The nearest cent. Rounding a decimal to an amount gives the whole number of cents nearest to its
value, and two values come to the same cent unless a half cent separates them.
-/
namespace CurrencyWallet

theorem roundDiv_eq_floor (m : Nat) {den : Nat} (hden : 0 < den) :
    (roundDiv m den .awayFromZero : ℤ) = ⌊(m : ℚ) / den + 1 / 2⌋ := by
  refine eq_of_forall_le_iff fun n => ?_
  rw [Int.le_floor]
  obtain hneg | ⟨k, rfl⟩ : n ≤ 0 ∨ ∃ k : Nat, n = k + 1 := by
    obtain hneg | hpos := le_or_gt n 0
    · exact Or.inl hneg
    · exact Or.inr ⟨(n - 1).toNat, by omega⟩
  · refine iff_of_true (by omega) ?_
    have hpos : (0 : ℚ) ≤ m / den := by positivity
    have hle : (n : ℚ) ≤ 0 := by exact_mod_cast hneg
    linarith
  · have hround := succ_le_roundDiv_iff (k := k) (Or.inl rfl) m hden
    have hcast : ((k : ℤ) + 1 : ℤ) ≤ (roundDiv m den .awayFromZero : ℤ) ↔
        k + 1 ≤ roundDiv m den .awayFromZero := by omega
    rw [hcast, hround, ← sub_le_iff_le_add, le_div_iff₀ (by positivity), ← Nat.cast_le (α := ℚ)]
    push_cast
    constructor <;> intro h <;> linarith

/-- The whole number of cents nearest to `x`, a half cent being rounded away from zero. -/
def nearestCent (x : ℚ) : ℚ :=
  ((if x < 0 then -⌊-x * 100 + 1 / 2⌋ else ⌊x * 100 + 1 / 2⌋ : ℤ) : ℚ) / 100

def IsHalfCent (x : ℚ) : Prop := ∃ k : ℤ, x = (2 * k + 1) / 200

theorem nearestCent_of_nonneg {x : ℚ} (h : 0 ≤ x) : nearestCent x = ⌊x * 100 + 1 / 2⌋ / 100 := by
  rw [nearestCent, if_neg (not_lt.2 h)]

theorem succ_le_floor_iff {x : ℚ} (k : ℤ) :
    k + 1 ≤ ⌊x * 100 + 1 / 2⌋ ↔ ((2 * k + 1) / 200 : ℚ) ≤ x := by
  rw [Int.le_floor]
  push_cast
  constructor <;> intro h <;> linarith

/-- A half cent lies between the two, or is the greater of them. -/
def HalfCentBetween (x y : ℚ) : Prop :=
  ∃ half, IsHalfCent half ∧ (x < half ∧ half ≤ y ∨ y < half ∧ half ≤ x)

theorem nearestCent_eq_iff {x y : ℚ} (hx : 0 ≤ x) (hy : 0 ≤ y) :
    nearestCent x = nearestCent y ↔ ¬ HalfCentBetween x y := by
  rw [nearestCent_of_nonneg hx, nearestCent_of_nonneg hy, div_left_inj' (by norm_num), Int.cast_inj]
  constructor
  · rintro h ⟨half, ⟨k, rfl⟩, hbetween⟩
    simp only [← not_le, ← succ_le_floor_iff, h] at hbetween
    obtain ⟨hbelow, habove⟩ | ⟨hbelow, habove⟩ := hbetween <;> exact hbelow habove
  · intro h
    refine eq_of_forall_le_iff fun n => ?_
    have hreach (x : ℚ) : n ≤ ⌊x * 100 + 1 / 2⌋ ↔ ((2 * (n - 1 : ℤ) + 1) / 200 : ℚ) ≤ x := by
      rw [← succ_le_floor_iff, sub_add_cancel]
    rw [hreach, hreach]
    by_contra hdiffer
    refine h ⟨_, ⟨n - 1, rfl⟩, ?_⟩
    rw [← not_le, ← not_le]
    tauto

theorem nearestCent_neg_iff {x : ℚ} : nearestCent x < 0 ↔ x ≤ -(1 / 200) := by
  rw [nearestCent, div_lt_iff₀ (by norm_num), zero_mul, Int.cast_lt_zero]
  split
  · have hfloor := succ_le_floor_iff (x := -x) 0
    rw [zero_add, Int.cast_zero, mul_zero, zero_add] at hfloor
    rw [neg_lt_zero, ← Int.add_one_le_iff, zero_add, hfloor]
    constructor <;> intro h <;> linarith
  · rename_i hx
    rw [not_lt] at hx
    refine iff_of_false (not_lt.2 (Int.floor_nonneg.2 (by linarith))) ?_
    linarith

namespace Decimal

theorem toRat_roundAmount_eq_nearestCent (d : Decimal) :
    d.roundAmount.toRat = nearestCent d.toRat := by
  have hden : 0 < 10 ^ (maxScale - amountScale) := by positivity
  have hvalue : d.toRat * 100 =
      (d.coeffAt maxScale : ℚ) / (10 ^ (maxScale - amountScale) : ℕ) := by
    rw [toRat_eq_coeffAt d d.scale_le]
    norm_num [maxScale, amountScale]
    ring
  have hcents : ((10 : ℚ) ^ amountScale) = 100 := by norm_num [amountScale]
  have hsign : d.coeffAt maxScale < 0 ↔ d.toRat < 0 := by
    rw [toRat_eq_coeffAt d d.scale_le, div_lt_iff₀ (by positivity), zero_mul, Int.cast_lt_zero]
  rw [toRat_roundAmount, withSign, nearestCent, hcents]
  by_cases hneg : d.coeffAt maxScale < 0
  · have habs : ((d.coeffAt maxScale).natAbs : ℚ) = -(d.coeffAt maxScale : ℚ) := by
      rw [← Int.cast_natCast, Int.ofNat_natAbs_of_nonpos hneg.le]
      push_cast
      ring
    rw [if_pos hneg, if_pos (hsign.1 hneg), roundDiv_eq_floor _ hden, habs, neg_div, ← hvalue,
      neg_mul]
  · have habs : ((d.coeffAt maxScale).natAbs : ℚ) = (d.coeffAt maxScale : ℚ) := by
      rw [← Int.cast_natCast, Int.natAbs_of_nonneg (not_lt.1 hneg)]
    rw [if_neg hneg, if_neg (mt hsign.2 hneg), roundDiv_eq_floor _ hden, habs, ← hvalue]

theorem isNegative_roundAmount_iff {d : Decimal} :
    d.roundAmount.IsNegative ↔ d.toRat ≤ -(1 / 200) := by
  rw [isNegative_iff, toRat_roundAmount_eq_nearestCent, nearestCent_neg_iff]

theorem isPositive_roundAmount {d : Decimal} (h : 1 / 200 ≤ d.toRat) :
    d.roundAmount.IsPositive := by
  have hcent := (succ_le_floor_iff (x := d.toRat) 0).2 (by norm_num at h ⊢; exact h)
  have hpos : 0 < ⌊d.toRat * 100 + 1 / 2⌋ := by omega
  rw [isPositive_iff, toRat_roundAmount_eq_nearestCent, nearestCent_of_nonneg (by linarith)]
  positivity

theorem exists_decimal_halfCent {half : ℚ} (h : IsHalfCent half) (hlt : |half| ≤ 10 ^ 25) :
    ∃ g : Decimal, g.toRat = half := by
  obtain ⟨k, rfl⟩ := h
  have hodd : (2 * k + 1).natAbs ≤ 200 * 10 ^ 25 := by
    rw [abs_div, abs_of_pos (by norm_num : (0 : ℚ) < 200), div_le_iff₀ (by norm_num)] at hlt
    have hcast : ((2 * k + 1).natAbs : ℚ) ≤ (200 * 10 ^ 25 : ℕ) := by
      rw [← Int.cast_natCast, Int.natCast_natAbs]
      push_cast
      linarith
    exact_mod_cast hcast
  have hcoeff : (5 * (2 * k + 1)).natAbs < coefficientLimit := by
    rw [Int.natAbs_mul]
    exact (Nat.mul_le_mul_left _ hodd).trans_lt (by decide)
  refine ⟨⟨5 * (2 * k + 1), 3, hcoeff, by decide⟩, ?_⟩
  rw [toRat_eq]
  push_cast
  ring

theorem IsFaithful.nonneg {d : Decimal} {x : ℚ} (h : d.IsFaithful x) (hx : 0 ≤ x) :
    0 ≤ d.toRat := by
  rw [← toRat_zero] at hx ⊢
  exact h.le_toRat _ hx

theorem IsFaithful.le_ten_pow {d : Decimal} {x : ℚ} (h : d.IsFaithful x) (hx : x ≤ 10 ^ 25) :
    d.toRat ≤ 10 ^ 25 := by
  have hvalue : (⟨10 ^ 25, 0, by decide, by decide⟩ : Decimal).toRat = 10 ^ 25 := by
    rw [toRat_eq]
    norm_num
  rw [← hvalue] at hx ⊢
  exact h.toRat_le _ hx

/-- A value that is not too great comes to another cent than the decimal that stands for it only if
it has been rounded up onto a half cent. -/
theorem IsFaithful.onto_halfCent {d : Decimal} {x : ℚ} (h : d.IsFaithful x) (hx : 0 ≤ x)
    (hlt : x ≤ 10 ^ 25) (hbetween : HalfCentBetween x d.toRat) :
    x < d.toRat ∧ IsHalfCent d.toRat := by
  have hzero := h.nonneg hx
  have htop := h.le_ten_pow hlt
  obtain ⟨half, hhalf, ⟨hbelow, habove⟩ | ⟨hbelow, habove⟩⟩ := hbetween
  · obtain ⟨g, rfl⟩ := exists_decimal_halfCent hhalf (abs_le.2 ⟨by linarith, by linarith⟩)
    rw [le_antisymm (h.toRat_le g hbelow.le) habove]
    exact ⟨hbelow, hhalf⟩
  · obtain ⟨g, rfl⟩ := exists_decimal_halfCent hhalf (abs_le.2 ⟨by linarith, by linarith⟩)
    exact absurd (h.le_toRat g habove) (not_le.2 hbelow)

theorem IsFaithful.nearestCent_onto {d : Decimal} {x : ℚ} (h : d.IsFaithful x) (hx : 0 ≤ x)
    (hlt : x ≤ 10 ^ 25) (hbetween : HalfCentBetween x d.toRat) :
    nearestCent d.toRat = nearestCent x + 1 / 100 := by
  have htop := h.le_ten_pow hlt
  obtain ⟨habove, k, hk⟩ := h.onto_halfCent hx hlt hbetween
  have hd : ⌊d.toRat * 100 + 1 / 2⌋ = k + 1 := by
    rw [hk, Int.floor_eq_iff]
    push_cast
    constructor <;> linarith
  have hfloor : ⌊x * 100 + 1 / 2⌋ = k := by
    refine le_antisymm ?_ ?_
    · rw [← Int.lt_add_one_iff, ← not_le, succ_le_floor_iff, ← hk]
      exact not_le.2 habove
    · -- The half cent before would have stopped the rounding.
      rw [← sub_add_cancel k 1, succ_le_floor_iff]
      by_contra hbefore
      rw [not_le] at hbefore
      push_cast at hbefore
      have hhalf : IsHalfCent ((2 * (k - 1 : ℤ) + 1) / 200) := ⟨k - 1, rfl⟩
      obtain ⟨g, hg⟩ := exists_decimal_halfCent hhalf
        (abs_le.2 ⟨by push_cast; linarith, by push_cast; linarith⟩)
      push_cast at hg
      have hle := h.toRat_le g (by rw [hg]; exact hbefore.le)
      rw [hg, hk] at hle
      linarith
  rw [nearestCent_of_nonneg (hx.trans habove.le), nearestCent_of_nonneg hx, hd, hfloor]
  push_cast
  ring

end Decimal

end CurrencyWallet

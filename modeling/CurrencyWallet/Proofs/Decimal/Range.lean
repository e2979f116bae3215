import CurrencyWallet.Proofs.Decimal.Amount

/-!
When a sum, difference or product has no decimal. A number fits unless it is rounded, without any
places, to a coefficient that is too wide, so that an overflow can be told from the values of the
operands: their exact sum, difference or product reaches `rangeLimit`. Two decimals that are not
below zero always have a difference.
-/
namespace CurrencyWallet

theorem succ_le_roundDiv_iff {k : Nat} {tie : Tie} (hup : tie = .awayFromZero ∨ k % 2 = 1) (m : Nat)
    {den : Nat} (hden : 0 < den) : k + 1 ≤ roundDiv m den tie ↔ (2 * k + 1) * den ≤ 2 * m := by
  have hdiv : den * (m / den) + m % den = m := Nat.div_add_mod m den
  have hrest : m % den < den := Nat.mod_lt m hden
  have hhalf : (2 * k + 1) * den = 2 * (den * k) + den := by ring
  simp only [roundDiv, hhalf]
  obtain hlow | hlast | hhigh := Nat.lt_trichotomy (m / den) k
  · have hmul : den * (m / den) + den ≤ den * k := Nat.mul_le_mul_left den hlow
    split
    · omega
    · cases tie <;> simp only <;> split <;> omega
  · rw [hlast] at hdiv ⊢
    split
    · omega
    · obtain rfl | hodd := hup
      · simp only
        split <;> omega
      · cases tie <;> simp only <;> split <;> omega
  · have hmul : den * k + den ≤ den * (m / den) := Nat.mul_le_mul_left den hhigh
    split
    · omega
    · cases tie <;> simp only <;> split <;> omega

namespace Decimal

/-- The least number that is rounded to a coefficient without places that is too wide. -/
def rangeLimit : ℚ := coefficientLimit - 1 / 2

theorem rangeLimit_le_div_iff (m scale : Nat) :
    rangeLimit ≤ (m : ℚ) / 10 ^ scale ↔
      coefficientLimit ≤ roundDiv m (10 ^ scale) .toEven := by
  obtain ⟨k, hk⟩ : ∃ k, coefficientLimit = k + 1 := ⟨2 ^ 96 - 1, by decide⟩
  have hodd : k % 2 = 1 := by
    have heven : coefficientLimit % 2 = 0 := by decide
    omega
  rw [rangeLimit, hk, succ_le_roundDiv_iff (Or.inr hodd) m (by positivity),
    le_div_iff₀ (by positivity), ← Nat.cast_le (α := ℚ)]
  push_cast
  constructor <;> intro h <;> linarith

/-! ### Fitting -/

theorem roundDiv_succ_lt {m k : Nat} (h : roundDiv m (10 ^ k) .toEven < coefficientLimit) :
    roundDiv m (10 ^ (k + 1)) .toEven < coefficientLimit := by
  have hlow := le_roundDiv m (10 ^ k) .toEven
  have hup := roundDiv_le m (10 ^ (k + 1)) .toEven
  rw [pow_succ, ← Nat.div_div_eq_div_mul, ← pow_succ] at hup
  unfold coefficientLimit at *
  omega

theorem roundDiv_add_lt {m k : Nat} (h : roundDiv m (10 ^ k) .toEven < coefficientLimit)
    (more : Nat) : roundDiv m (10 ^ (k + more)) .toEven < coefficientLimit := by
  induction more with
  | zero => exact h
  | succ more ih => exact roundDiv_succ_lt ih

theorem digitsToDrop_eq_none_iff {m drop room : Nat} :
    digitsToDrop m drop room = none ↔
      coefficientLimit ≤ roundDiv m (10 ^ (drop + room)) .toEven := by
  induction room generalizing drop with
  | zero =>
    unfold digitsToDrop
    split
    · exact iff_of_false (by rintro ⟨⟩) (not_le.2 ‹_›)
    · exact iff_of_true rfl (not_lt.1 ‹_›)
  | succ room ih =>
    unfold digitsToDrop
    split
    · exact iff_of_false (by rintro ⟨⟩) (not_le.2 (roundDiv_add_lt ‹_› (room + 1)))
    · rw [ih, Nat.add_right_comm, Nat.add_assoc]

theorem fit_eq_none_iff {sign : Int} {m scale : Nat} :
    fit sign m scale = none ↔ rangeLimit ≤ (m : ℚ) / 10 ^ scale := by
  rw [rangeLimit_le_div_iff, ← Nat.add_sub_of_le (Nat.sub_le scale maxScale),
    ← digitsToDrop_eq_none_iff, Nat.add_sub_of_le (Nat.sub_le scale maxScale)]
  unfold fit
  simp only
  split
  · exact iff_of_true rfl ‹_›
  · rename_i drop hdrop
    obtain ⟨hfits, hle, -, -⟩ := digitsToDrop_eq_some hdrop
    rw [ofParts?_of_lt ((natAbs_withSign _ _).trans_lt hfits) (by omega), hdrop]
    exact iff_of_false nofun nofun

/-- What is below zero is not rounded to zero: digits are dropped from wide numbers only. -/
theorem fit_neg {sign : Int} {scale : Nat} {d : Decimal} (hsign : sign < 0)
    (hs : scale ≤ maxScale) (h : fit sign sign.natAbs scale = some d) : d.toRat < 0 := by
  obtain ⟨drop, -, hcoeff, -⟩ := exists_drop_of_fit h
  rw [withSign, if_pos hsign] at hcoeff
  have hne : d.coeff ≠ 0 := by
    obtain ⟨-, ⟨hexact, -⟩ | ⟨hwide, -⟩⟩ := fit_eq_some hs h
    · rw [hexact, withSign_natAbs]
      exact hsign.ne
    · have htenth : 2 ≤ coefficientLimit / 10 := by decide
      omega
  rw [← isNegative_iff, IsNegative]
  omega

/-! ### Overflow -/

theorem abs_div_pow (n : Int) (scale : Nat) :
    |(n : ℚ) / 10 ^ scale| = (n.natAbs : ℚ) / 10 ^ scale := by
  have hpos : (0 : ℚ) < 10 ^ scale := by positivity
  rw [abs_div, abs_of_pos hpos, ← Int.cast_abs, Int.abs_eq_natAbs, Int.cast_natCast]

theorem div_pow_le (n scale : Nat) : (n : ℚ) / 10 ^ scale ≤ n :=
  div_le_self (Nat.cast_nonneg _) (one_le_pow₀ (by norm_num))

theorem abs_toRat_lt (d : Decimal) : |d.toRat| < rangeLimit := by
  have hcoeff : ((d.coeff.natAbs + 1 : Nat) : ℚ) ≤ coefficientLimit :=
    Nat.cast_le.2 (Nat.succ_le_of_lt d.coeff_lt)
  rw [toRat_eq, abs_div_pow]
  refine (div_pow_le _ _).trans_lt ?_
  rw [rangeLimit]
  push_cast at hcoeff
  linarith

section Results

variable {a b d : Decimal} {o : Overflow}

theorem addAligned_eq_none_iff :
    addAligned a b = none ↔ rangeLimit ≤ |a.toRat + b.toRat| := by
  rw [toRat_add_toRat, abs_div_pow]
  exact fit_eq_none_iff

theorem add_eq_error_iff :
    a.add b = .error o ↔ o = .addition ∧ rangeLimit ≤ |a.toRat + b.toRat| := by
  unfold add
  split
  · rename_i hzero
    rw [isZero_iff.1 hzero, zero_add]
    exact iff_of_false nofun fun h => not_le.2 (abs_toRat_lt b) h.2
  · split
    · rename_i hzero
      rw [isZero_iff.1 hzero, add_zero]
      exact iff_of_false nofun fun h => not_le.2 (abs_toRat_lt a) h.2
    · rw [← addAligned_eq_none_iff]
      cases addAligned a b with
      | some d => exact iff_of_false nofun nofun
      | none => simp [eq_comm]

theorem sub_eq_error_iff :
    a.sub b = .error o ↔ o = .subtraction ∧ rangeLimit ≤ |a.toRat - b.toRat| := by
  unfold sub
  split
  · rename_i hzero
    rw [isZero_iff.1 hzero, zero_sub, abs_neg]
    exact iff_of_false nofun fun h => not_le.2 (abs_toRat_lt b) h.2
  · split
    · rename_i hzero
      rw [isZero_iff.1 hzero, sub_zero]
      exact iff_of_false nofun fun h => not_le.2 (abs_toRat_lt a) h.2
    · rw [sub_eq_add_neg, ← toRat_neg, ← addAligned_eq_none_iff]
      cases addAligned a (-b) with
      | some d => exact iff_of_false nofun nofun
      | none => simp [eq_comm]

theorem abs_toRat_mul (a b : Decimal) :
    |a.toRat * b.toRat| = ((a.coeff * b.coeff).natAbs : ℚ) / 10 ^ (a.scale + b.scale) := by
  rw [toRat_eq, toRat_eq, div_mul_div_comm, ← pow_add, ← Int.cast_mul, abs_div_pow]

theorem IsNegligible.abs_lt_least (h : IsNegligible a b) :
    |a.toRat * b.toRat| < (1 : ℚ) / 10 ^ maxScale := by
  obtain ⟨ha, hb, hscale⟩ := h
  have hcoeff : (a.coeff * b.coeff).natAbs ≤ 2 ^ 32 * 2 ^ 32 := by
    rw [Int.natAbs_mul]
    exact Nat.mul_le_mul ha.le hb.le
  have hpow : 10 ^ 48 ≤ 10 ^ (a.scale + b.scale) := Nat.pow_le_pow_right (by decide) hscale
  rw [abs_toRat_mul, div_lt_div_iff₀ (by positivity) (by positivity), one_mul]
  norm_cast
  calc (a.coeff * b.coeff).natAbs * 10 ^ maxScale
      ≤ 2 ^ 32 * 2 ^ 32 * 10 ^ maxScale := Nat.mul_le_mul_right _ hcoeff
    _ < 10 ^ 48 := by decide
    _ ≤ 10 ^ (a.scale + b.scale) := hpow

theorem IsNegligible.abs_lt (h : IsNegligible a b) : |a.toRat * b.toRat| < rangeLimit :=
  h.abs_lt_least.trans (by norm_num [rangeLimit, coefficientLimit, maxScale])

theorem mul_eq_error_iff :
    a.mul b = .error o ↔ o = .multiplication ∧ rangeLimit ≤ |a.toRat * b.toRat| := by
  unfold mul
  split
  · rename_i hzero
    have hproduct : a.toRat * b.toRat = 0 := by
      rw [mul_eq_zero, ← isZero_iff, ← isZero_iff]
      exact hzero
    rw [hproduct, abs_zero]
    exact iff_of_false nofun fun h => not_le.2 ((abs_nonneg _).trans_lt (abs_toRat_lt a)) h.2
  · split
    · exact iff_of_false nofun fun h => not_le.2 (IsNegligible.abs_lt ‹_›) h.2
    · rw [abs_toRat_mul, ← fit_eq_none_iff]
      simp only
      split
      · rename_i hfit
        exact iff_of_false nofun fun h => by
          rw [hfit] at h
          cases h.2
      · simp [*, eq_comm]

theorem exists_sub_of_nonneg (ha : 0 ≤ a.toRat) (hb : 0 ≤ b.toRat) : ∃ d, a.sub b = .ok d := by
  cases h : a.sub b with
  | ok d => exact ⟨d, rfl⟩
  | error o =>
    have ha' := abs_toRat_lt a
    have hb' := abs_toRat_lt b
    rw [abs_of_nonneg ha] at ha'
    rw [abs_of_nonneg hb] at hb'
    exact absurd (sub_eq_error_iff.1 h).2 (not_le.2 (abs_lt.2 ⟨by linarith, by linarith⟩))

/-! ### Signs -/

theorem toRat_sub_nonneg (hle : b.toRat ≤ a.toRat) (h : a.sub b = .ok d) : 0 ≤ d.toRat := by
  refine toRat_add_nonneg_of_sum ?_ (sub_eq_ok h)
  rw [toRat_neg]
  linarith

theorem toRat_sub_neg (hlt : a.toRat < b.toRat) (h : a.sub b = .ok d) : d.toRat < 0 := by
  have hsum : a.toRat + (-b).toRat < 0 := by
    rw [toRat_neg]
    linarith
  obtain ⟨hzero, rfl⟩ | ⟨hzero, rfl⟩ | h := add_eq_ok (sub_eq_ok h)
  · rwa [hzero, zero_add] at hsum
  · rwa [hzero, add_zero] at hsum
  · refine fit_neg ?_ (max_le a.scale_le (-b).scale_le) h
    rw [toRat_add_toRat, div_lt_iff₀ (by positivity), zero_mul] at hsum
    exact_mod_cast hsum

theorem toRat_mul_nonneg (ha : 0 ≤ a.toRat) (hb : 0 ≤ b.toRat) (h : a.mul b = .ok d) :
    0 ≤ d.toRat := by
  unfold mul at h
  split at h
  · cases h
    rw [toRat_zero]
  · split at h
    · cases h
      rw [toRat_zero]
    · simp only at h
      split at h
      · cases h
        refine fit_nonneg (mul_nonneg ?_ ?_) ‹_›
        · exact toRat_nonneg_iff.1 ha
        · exact toRat_nonneg_iff.1 hb
      · cases h

theorem toRat_roundAmount_nonneg (h : 0 ≤ d.toRat) : 0 ≤ d.roundAmount.toRat := by
  unfold roundAmount
  split
  · exact h
  · refine toRat_nonneg_iff.2 ?_
    simp only [withSign, if_neg (not_lt.2 (toRat_nonneg_iff.1 h))]
    exact Int.natCast_nonneg _

end Results

end Decimal

end CurrencyWallet

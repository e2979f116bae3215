import CurrencyWallet.Proofs.Decimal.Fit

/-!
Amounts of money. Rounding to an amount depends on the value alone, and sums and differences of
amounts are amounts, exact as long as they stay below `amountLimit`.
-/
namespace CurrencyWallet.Decimal

/-- Twenty digits of which two are places. -/
def amountLimit : Nat := 10 ^ 18

/-! ### Rounding to an amount -/

theorem toRat_roundAmount (d : Decimal) :
    d.roundAmount.toRat =
      (withSign (d.coeffAt maxScale)
        (roundDiv (d.coeffAt maxScale).natAbs (10 ^ (maxScale - amountScale)) .awayFromZero) : ℚ)
        / 10 ^ amountScale := by
  obtain hlong | hshort := Nat.lt_or_ge amountScale d.scale
  · have hcoeff : d.coeffAt maxScale = d.coeff * 10 ^ (maxScale - d.scale) := rfl
    have hpow : ((10 : Int) ^ (maxScale - d.scale)).natAbs = 10 ^ (maxScale - d.scale) := by
      rw [Int.natAbs_pow]; rfl
    have hden : 10 ^ (maxScale - amountScale) =
        10 ^ (d.scale - amountScale) * 10 ^ (maxScale - d.scale) := by
      have := d.scale_le
      rw [← pow_add]
      congr 1
      omega
    rw [hcoeff, withSign_mul_pow, Int.natAbs_mul, hpow, hden,
      roundDiv_mul_right _ _ (by positivity), roundAmount, dif_neg (not_le.2 hlong), toRat_eq]
  · have hcoeff : d.coeffAt maxScale = d.coeffAt amountScale * 10 ^ (maxScale - amountScale) :=
      coeffAt_mul_pow d hshort (maxScale - amountScale)
    have hpow : ((10 : Int) ^ (maxScale - amountScale)).natAbs = 10 ^ (maxScale - amountScale) := by
      rw [Int.natAbs_pow]; rfl
    rw [hcoeff, withSign_mul_pow, Int.natAbs_mul, hpow, roundDiv_mul_self _ (by positivity),
      withSign_natAbs, roundAmount_of_scale_le hshort, toRat_eq_coeffAt d hshort]

theorem roundAmount_congr {a b : Decimal} (h : a.toRat = b.toRat) :
    a.roundAmount.toRat = b.roundAmount.toRat := by
  rw [toRat_roundAmount, toRat_roundAmount, coeffAt_maxScale_congr h]

/-! ### Sums of amounts -/

theorem amountLimit_le_of_wide {d : Decimal} (hs : d.scale < amountScale)
    (h : coefficientLimit / 10 ≤ d.coeff.natAbs + 1) : (amountLimit : ℚ) ≤ |d.toRat| := by
  have hcoeff : amountLimit * 10 ^ d.scale ≤ d.coeff.natAbs := by
    have hpow : 10 ^ d.scale ≤ 10 ^ 1 := Nat.pow_le_pow_right (by decide) (by
      unfold amountScale at hs
      omega)
    calc amountLimit * 10 ^ d.scale ≤ amountLimit * 10 ^ 1 := Nat.mul_le_mul_left _ hpow
      _ ≤ coefficientLimit / 10 - 1 := by decide
      _ ≤ d.coeff.natAbs := Nat.sub_le_of_le_add h
  rw [toRat_eq, abs_div, abs_of_pos (pow_scale_pos d), le_div_iff₀ (pow_scale_pos d),
    ← Int.cast_abs, Int.abs_eq_natAbs]
  exact_mod_cast hcoeff

section Sums

variable {a b d : Decimal}

theorem addAligned_exact (ha : a.scale ≤ amountScale) (hb : b.scale ≤ amountScale)
    (h : addAligned a b = some d) (hd : |d.toRat| < amountLimit) :
    d.toRat = a.toRat + b.toRat := by
  obtain ⟨-, hexact | ⟨hwide, hs⟩⟩ := addAligned_eq_some h
  · exact hexact
  · exact absurd hd (not_lt.2 (amountLimit_le_of_wide (hs.trans_le (max_le ha hb)) hwide))

theorem add_eq_ok (h : a.add b = .ok d) :
    a.toRat = 0 ∧ d = b ∨ b.toRat = 0 ∧ d = a ∨ addAligned a b = some d := by
  unfold add at h
  split at h
  · cases h
    exact Or.inl ⟨isZero_iff.1 ‹_›, rfl⟩
  · split at h
    · cases h
      exact Or.inr (Or.inl ⟨isZero_iff.1 ‹_›, rfl⟩)
    · split at h
      · cases h
        exact Or.inr (Or.inr ‹_›)
      · cases h

theorem sub_eq_ok (h : a.sub b = .ok d) : a.add (-b) = .ok d := by
  have hzero : (-b).IsZero ↔ b.IsZero := Int.neg_eq_zero
  unfold sub at h
  unfold add
  simp only [hzero]
  split at h
  · rwa [if_pos ‹_›]
  · rw [if_neg ‹_›]
    split at h
    · rwa [if_pos ‹_›]
    · rw [if_neg ‹_›]
      split at h
      · cases h
        rfl
      · cases h

theorem scale_add_le (h : a.add b = .ok d) : d.scale ≤ max a.scale b.scale := by
  obtain ⟨-, rfl⟩ | ⟨-, rfl⟩ | h := add_eq_ok h
  · exact le_max_right _ _
  · exact le_max_left _ _
  · exact (addAligned_eq_some h).1

theorem toRat_add (ha : a.scale ≤ amountScale) (hb : b.scale ≤ amountScale)
    (h : a.add b = .ok d) (hd : |d.toRat| < amountLimit) : d.toRat = a.toRat + b.toRat := by
  obtain ⟨hzero, rfl⟩ | ⟨hzero, rfl⟩ | h := add_eq_ok h
  · rw [hzero, zero_add]
  · rw [hzero, add_zero]
  · exact addAligned_exact ha hb h hd

theorem scale_sub_le (h : a.sub b = .ok d) : d.scale ≤ max a.scale b.scale := by
  have hle := scale_add_le (sub_eq_ok h)
  rwa [scale_neg] at hle

theorem toRat_sub (ha : a.scale ≤ amountScale) (hb : b.scale ≤ amountScale)
    (h : a.sub b = .ok d) (hd : |d.toRat| < amountLimit) : d.toRat = a.toRat - b.toRat := by
  have hb' : (-b).scale ≤ amountScale := hb
  rw [toRat_add ha hb' (sub_eq_ok h) hd, toRat_neg, sub_eq_add_neg]

theorem addAligned_of_lt
    (h : (a.coeffAt (max a.scale b.scale) + b.coeffAt (max a.scale b.scale)).natAbs <
      coefficientLimit) : (addAligned a b).map toRat = some (a.toRat + b.toRat) := by
  have hfit := fit_of_lt (a.coeffAt (max a.scale b.scale) + b.coeffAt (max a.scale b.scale)) h
    (max_le a.scale_le b.scale_le)
  have haligned : addAligned a b = _ := hfit
  rw [haligned, Option.map_some, toRat_eq, toRat_add_toRat]
  simp only [withSign_natAbs]

theorem toRat_add_nonneg_of_sum (hsum : 0 ≤ a.toRat + b.toRat) (h : a.add b = .ok d) :
    0 ≤ d.toRat := by
  obtain ⟨hzero, rfl⟩ | ⟨hzero, rfl⟩ | h := add_eq_ok h
  · rwa [hzero, zero_add] at hsum
  · rwa [hzero, add_zero] at hsum
  · refine fit_nonneg ?_ h
    rw [toRat_add_toRat, le_div_iff₀ (by positivity), zero_mul] at hsum
    exact_mod_cast hsum

theorem toRat_add_nonneg (ha : 0 ≤ a.toRat) (hb : 0 ≤ b.toRat) (h : a.add b = .ok d) :
    0 ≤ d.toRat :=
  toRat_add_nonneg_of_sum (add_nonneg ha hb) h

end Sums

/-! ### Full cents -/

/-- The value is a number of full cents, with whatever places it is written. -/
def InCents (d : Decimal) : Prop := ∃ cents : ℤ, d.toRat = cents / 10 ^ amountScale

theorem inCents_of_scale_le {d : Decimal} (h : d.scale ≤ amountScale) : d.InCents :=
  ⟨d.coeffAt amountScale, toRat_eq_coeffAt d h⟩

theorem InCents.exists_scale {d : Decimal} (h : d.InCents) (hlt : |d.toRat| < amountLimit) :
    ∃ d' : Decimal, d'.toRat = d.toRat ∧ d'.scale = amountScale ∧
      d'.coeff.natAbs < amountLimit * 10 ^ amountScale := by
  obtain ⟨cents, hcents⟩ := h
  have hnarrow : cents.natAbs < amountLimit * 10 ^ amountScale := by
    have hpos : (0 : ℚ) < 10 ^ amountScale := by positivity
    rw [hcents, abs_div, abs_of_pos hpos, div_lt_iff₀ hpos, ← Int.cast_abs,
      Int.abs_eq_natAbs] at hlt
    exact_mod_cast hlt
  have hfits : cents.natAbs < coefficientLimit := hnarrow.trans (by decide)
  refine ⟨⟨cents, amountScale, hfits, by decide⟩, ?_, rfl, hnarrow⟩
  rw [toRat_eq, hcents]

theorem toRat_add_inCents {a b d : Decimal} (ha : a.InCents) (hb : b.InCents)
    (halt : |a.toRat| < amountLimit) (hblt : |b.toRat| < amountLimit) (h : a.add b = .ok d) :
    d.toRat = a.toRat + b.toRat := by
  obtain ⟨a', haval, hascale, hacoeff⟩ := ha.exists_scale halt
  obtain ⟨b', hbval, hbscale, hbcoeff⟩ := hb.exists_scale hblt
  obtain ⟨hzero, rfl⟩ | ⟨hzero, rfl⟩ | haligned := add_eq_ok h
  · rw [hzero, zero_add]
  · rw [hzero, add_zero]
  · -- With two places the sum has at most twenty-one digits.
    have hsum : (a'.coeffAt (max a'.scale b'.scale) + b'.coeffAt (max a'.scale b'.scale)).natAbs <
        coefficientLimit := by
      have hself : ∀ e : Decimal, e.scale = amountScale → e.coeffAt amountScale = e.coeff :=
        fun e he => by rw [coeffAt, he, Nat.sub_self, pow_zero, mul_one]
      rw [hascale, hbscale, max_self, hself a' hascale, hself b' hbscale]
      calc (a'.coeff + b'.coeff).natAbs ≤ a'.coeff.natAbs + b'.coeff.natAbs := Int.natAbs_add_le _ _
        _ < amountLimit * 10 ^ amountScale + amountLimit * 10 ^ amountScale :=
          Nat.add_lt_add hacoeff hbcoeff
        _ < coefficientLimit := by decide
    have hvalue := (addAligned_congr haval hbval).symm.trans (addAligned_of_lt hsum)
    rw [haligned, Option.map_some, Option.some_inj] at hvalue
    rw [hvalue, haval, hbval]

theorem InCents.neg {d : Decimal} (h : d.InCents) : (-d).InCents := by
  obtain ⟨cents, hcents⟩ := h
  refine ⟨-cents, ?_⟩
  rw [toRat_neg, hcents]
  push_cast
  ring

theorem InCents.of_sub_mul {a b d : Decimal} (ha : a.InCents) (hb : b.InCents) {times : Nat}
    (h : d.toRat = a.toRat - b.toRat * times) : d.InCents := by
  obtain ⟨m, hm⟩ := ha
  obtain ⟨n, hn⟩ := hb
  refine ⟨m - n * times, ?_⟩
  rw [h, hm, hn]
  push_cast
  ring

theorem toRat_sub_inCents {a b d : Decimal} (ha : a.InCents) (hb : b.InCents)
    (halt : |a.toRat| < amountLimit) (hblt : |b.toRat| < amountLimit) (h : a.sub b = .ok d) :
    d.toRat = a.toRat - b.toRat := by
  have hneg : |(-b).toRat| < amountLimit := by rwa [toRat_neg, abs_neg]
  rw [toRat_add_inCents ha hb.neg halt hneg (sub_eq_ok h), toRat_neg, sub_eq_add_neg]

/-! ### Money -/

structure IsMoney (d : Decimal) : Prop where
  places : d.scale ≤ amountScale
  nonneg : 0 ≤ d.toRat

theorem isMoney_zero : zero.IsMoney := ⟨by decide, by rw [toRat_zero]⟩

theorem isMoney_roundAmount {d : Decimal} (h : ¬ d.roundAmount.IsNegative) :
    d.roundAmount.IsMoney :=
  ⟨scale_roundAmount_le d, not_lt.1 fun hneg => h (isNegative_iff.2 hneg)⟩

theorem IsMoney.abs_lt {d : Decimal} (h : d.IsMoney) (hlt : d.toRat < amountLimit) :
    |d.toRat| < amountLimit := by
  rwa [abs_of_nonneg h.nonneg]

end CurrencyWallet.Decimal

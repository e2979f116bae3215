import CurrencyWallet.Proofs.Decimal.Faithful
import CurrencyWallet.Proofs.Ledger.Money
import Mathlib.Data.Sign.Basic

/-!
Overdrafts. A sum that had to be rounded still has its sign, because zero and the least decimals on
both sides of it are decimals that rounding does not pass. A debit is therefore refused exactly if
the account would be overdrawn, and emptied exactly if all of it is asked for.
-/
namespace CurrencyWallet

namespace Decimal

/-! ### The sign of a sum -/

def least : Decimal := ⟨1, maxScale, by decide, le_rfl⟩

theorem toRat_least : least.toRat = 1 / 10 ^ maxScale := by
  rw [toRat_eq]
  simp only [least, Int.cast_one]

theorem toRat_least_pos : 0 < least.toRat := by
  rw [toRat_least]
  positivity

section Sums

variable {a b d : Decimal}

theorem least_le_of_sum_pos (h : 0 < a.toRat + b.toRat) : least.toRat ≤ a.toRat + b.toRat := by
  rw [toRat_add_toRat] at h ⊢
  rw [lt_div_iff₀ (by positivity), zero_mul] at h
  have hone : (1 : ℚ) ≤
      ((a.coeffAt (max a.scale b.scale) + b.coeffAt (max a.scale b.scale) : Int) : ℚ) := by
    exact_mod_cast h
  rw [toRat_least]
  calc (1 : ℚ) / 10 ^ maxScale ≤ 1 / 10 ^ max a.scale b.scale :=
        one_div_le_one_div_of_le (by positivity)
          (pow_le_pow_right₀ (by norm_num) (max_le a.scale_le b.scale_le))
    _ ≤ _ := div_le_div_of_nonneg_right hone (by positivity)

theorem le_neg_least_of_sum_neg (h : a.toRat + b.toRat < 0) :
    a.toRat + b.toRat ≤ (-least).toRat := by
  have hopposite : least.toRat ≤ (-a).toRat + (-b).toRat := by
    refine least_le_of_sum_pos ?_
    rw [toRat_neg, toRat_neg]
    linarith
  rw [toRat_neg] at hopposite ⊢
  rw [toRat_neg] at hopposite
  linarith

theorem sign_add (h : a.add b = .ok d) :
    SignType.sign d.toRat = SignType.sign (a.toRat + b.toRat) := by
  have hfaithful := isFaithful_add h
  obtain hneg | hzero | hpos := lt_trichotomy (a.toRat + b.toRat) 0
  · have hd : d.toRat < 0 := by
      have hle := hfaithful.toRat_le (-least) (le_neg_least_of_sum_neg hneg)
      rw [toRat_neg] at hle
      linarith [toRat_least_pos]
    rw [sign_neg hneg, sign_neg hd]
  · rw [hfaithful.eq_of_decimal (toRat_zero.trans hzero.symm)]
  · have hd : 0 < d.toRat :=
      toRat_least_pos.trans_le (hfaithful.le_toRat least (least_le_of_sum_pos hpos))
    rw [sign_pos hpos, sign_pos hd]

theorem isNegative_add_iff (h : a.add b = .ok d) : d.IsNegative ↔ a.toRat + b.toRat < 0 := by
  rw [isNegative_iff, ← sign_eq_neg_one_iff, sign_add h, sign_eq_neg_one_iff]

theorem isZero_add_iff (h : a.add b = .ok d) : d.IsZero ↔ a.toRat + b.toRat = 0 := by
  rw [isZero_iff, ← sign_eq_zero_iff, sign_add h, sign_eq_zero_iff]

theorem exists_add_of_debit (ha : ¬ a.IsNegative) (hb : b.IsNegative) : ∃ d, a.add b = .ok d := by
  rw [isNegative_iff, not_lt] at ha
  have hdebit : 0 ≤ (-b).toRat := by
    rw [toRat_neg]
    linarith [isNegative_iff.1 hb]
  obtain ⟨d, hd⟩ := exists_sub_of_nonneg ha hdebit
  have hadd := sub_eq_ok hd
  rw [Decimal.neg_neg] at hadd
  exact ⟨d, hadd⟩

end Sums

end Decimal

/-! ### Changes of a balance -/

section Delta

open Decimal

variable {c : Currency} {current delta updated : Decimal}

theorem applyDelta_of_add (hcurrent : ¬ current.IsNegative)
    (hadd : current.add delta = .ok updated) : applyDelta c current delta =
      if current.toRat + delta.toRat < 0 then .refused (.insufficientFunds c (-delta) current)
      else .ok updated := by
  have hnegative := isNegative_add_iff hadd
  rw [isNegative_iff, not_lt] at hcurrent
  unfold applyDelta
  rw [hadd]
  by_cases hsum : current.toRat + delta.toRat < 0
  · have hdebit : delta.IsNegative := isNegative_iff.2 (by linarith)
    rw [if_pos hsum]
    exact if_pos ⟨hdebit, hnegative.2 hsum⟩
  · rw [if_neg hsum]
    exact if_neg fun h => hsum (hnegative.1 h.2)

/-- A change of a balance that is not below zero is refused, for want of the debit and with what is
there, if and only if the exact sum is below zero. A debit is never broken off. A change that
succeeds leaves a balance that is not below zero, and is zero if and only if the exact sum is,
whether or not the sum had to be rounded. -/
theorem refused_iff_overdrawn (hcurrent : ¬ current.IsNegative) :
    (∀ e, applyDelta c current delta = .refused e ↔
      e = .insufficientFunds c (-delta) current ∧ current.toRat + delta.toRat < 0) ∧
    (delta.IsNegative →
      applyDelta c current delta = .refused (.insufficientFunds c (-delta) current) ∨
        ∃ updated, applyDelta c current delta = .ok updated) ∧
    (∀ updated, applyDelta c current delta = .ok updated →
      ¬ updated.IsNegative ∧ (updated.IsZero ↔ current.toRat + delta.toRat = 0)) := by
  cases hadd : current.add delta with
  | error o =>
    have hcredit : ¬ delta.IsNegative := fun hdebit => by
      obtain ⟨updated, hok⟩ := exists_add_of_debit hcurrent hdebit
      rw [hok] at hadd
      cases hadd
    have hbroken : applyDelta c current delta = .overflowed o := by
      unfold applyDelta
      rw [hadd]
    rw [hbroken]
    refine ⟨fun e => iff_of_false nofun fun h => ?_, fun hdebit => absurd hdebit hcredit, nofun⟩
    rw [isNegative_iff, not_lt] at hcurrent hcredit
    linarith [h.2]
  | ok updated =>
    rw [applyDelta_of_add hcurrent hadd]
    by_cases hsum : current.toRat + delta.toRat < 0
    · rw [if_pos hsum]
      refine ⟨fun e => ?_, fun _ => Or.inl rfl, nofun⟩
      simp only [Attempt.refused.injEq, hsum, and_true, eq_comm]
    · rw [if_neg hsum]
      refine ⟨fun e => iff_of_false nofun fun h => hsum h.2, fun _ => Or.inr ⟨updated, rfl⟩, ?_⟩
      rintro _ ⟨⟩
      exact ⟨mt (isNegative_add_iff hadd).1 hsum, isZero_add_iff hadd⟩

def widestDebit : Decimal := ⟨-(2 ^ 96 - 1), 27, by decide, by decide⟩

theorem refused_widestDebit :
    ¬ least.IsNegative ∧ least.toRat + widestDebit.toRat < 0 ∧
      least.add widestDebit = .ok widestDebit ∧
      applyDelta .usd least widestDebit =
        .refused (.insufficientFunds .usd (-widestDebit) least) := by
  have hleast : ¬ least.IsNegative := by decide +kernel
  have hsum : least.toRat + widestDebit.toRat < 0 := by decide +kernel
  exact ⟨hleast, hsum, by decide +kernel, ((refused_iff_overdrawn hleast).1 _).2 ⟨rfl, hsum⟩⟩

end Delta

end CurrencyWallet

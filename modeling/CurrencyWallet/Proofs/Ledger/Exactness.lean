import CurrencyWallet.Proofs.Decimal.Faithful
import CurrencyWallet.Proofs.Ledger.Money

/-!
When a change of a balance is exact. There is no check of magnitude or of precision before a sum is
stored: what succeeds is the sum if the sum is a decimal, and a decimal next to it otherwise. A sum
in cents is a decimal while it has at most 96 bits, and beyond that only with zeros to spare.
-/
namespace CurrencyWallet

open Decimal (amountScale)

theorem Decimal.amountScale_le : amountScale ≤ maxScale := by decide

theorem Decimal.exists_toRat_iff {n : ℤ} {places : Nat} (hplaces : places ≤ maxScale) :
    (∃ d : Decimal, d.toRat = n / 10 ^ places) ↔
      ∃ drop ≤ places, ∃ m : ℤ, n = m * 10 ^ drop ∧ m.natAbs < coefficientLimit := by
  constructor
  · rintro ⟨d, hd⟩
    rw [toRat_eq, div_eq_div_iff (by positivity) (by positivity)] at hd
    have hcross : d.coeff * 10 ^ places = n * 10 ^ d.scale := by exact_mod_cast hd
    obtain hshort | hlong := le_or_gt d.scale places
    · obtain ⟨drop, rfl⟩ := Nat.exists_eq_add_of_le hshort
      refine ⟨drop, Nat.le_add_left _ _, d.coeff, ?_, d.coeff_lt⟩
      refine mul_right_cancel₀ (by positivity : (10 : ℤ) ^ d.scale ≠ 0) ?_
      rw [← hcross, mul_assoc, ← pow_add, Nat.add_comm]
    · obtain ⟨more, hmore⟩ := Nat.exists_eq_add_of_lt hlong
      have hcoeff : d.coeff = n * 10 ^ (more + 1) := by
        refine mul_right_cancel₀ (by positivity : (10 : ℤ) ^ places ≠ 0) ?_
        rw [hcross, mul_assoc, ← pow_add, hmore]
        congr 2
        omega
      have hle : n.natAbs ≤ d.coeff.natAbs := by
        rw [hcoeff, Int.natAbs_mul]
        exact Nat.le_mul_of_pos_right _ (Int.natAbs_pos.2 (by positivity))
      exact ⟨0, Nat.zero_le _, n, by rw [pow_zero, mul_one], hle.trans_lt d.coeff_lt⟩
  · rintro ⟨drop, hdrop, m, rfl, hm⟩
    obtain ⟨rest, rfl⟩ := Nat.exists_eq_add_of_le' hdrop
    refine ⟨⟨m, rest, hm, (Nat.le_add_right _ _).trans hplaces⟩, ?_⟩
    rw [toRat_eq, pow_add]
    push_cast
    rw [mul_div_mul_right _ _ (by positivity)]

section Delta

variable {c : Currency} {current delta updated : Decimal}

theorem isFaithful_of_applyDelta (h : applyDelta c current delta = .ok updated) :
    updated.IsFaithful (current.toRat + delta.toRat) :=
  Decimal.isFaithful_add (applyDelta_eq_ok.1 h).1

theorem toRat_eq_iff_of_applyDelta (h : applyDelta c current delta = .ok updated) :
    updated.toRat = current.toRat + delta.toRat ↔
      ∃ d : Decimal, d.toRat = current.toRat + delta.toRat :=
  ⟨fun hexact => ⟨updated, hexact⟩, fun ⟨_, hd⟩ => (isFaithful_of_applyDelta h).eq_of_decimal hd⟩

end Delta

namespace Ledger

variable {l : Ledger} {u : UserId} {c : Currency} {current delta updated : Decimal}

theorem amount_of_applyDelta (hcurrent : l.balance? u c = some current)
    (h : applyDelta c current delta = .ok updated)
    (hok : (l.perform (.apply u c delta)).2.isOk = true) :
    (l.perform (.apply u c delta)).1.amount u c = updated.toRat := by
  obtain ⟨-, hfailed⟩ | ⟨revision, hcommits⟩ := l.apply_cases u c delta
  · rw [hfailed] at hok
    cases hok
  · obtain ⟨before, after, hbefore, hafter, heq⟩ := hcommits.apply
    rw [hcurrent] at hbefore
    cases hbefore
    rw [h] at hafter
    cases hafter
    have hopen : l.users.contains u = true := hcommits.opened
    rw [heq]
    refine amount_of_balance? ?_
    rw [balance?_commit_one hopen, if_pos ⟨rfl, rfl⟩]

/-- A change of a balance that succeeds is exact if and only if the sum is a decimal; in cents, if
the digits too many are zeros. Otherwise a decimal next to the sum is stored without a word, and the
account has moved by something else than the delta. -/
theorem exact_iff_of_applyDelta (h : applyDelta c current delta = .ok updated) :
    updated.IsFaithful (current.toRat + delta.toRat) ∧
    (updated.toRat = current.toRat + delta.toRat ↔
      ∃ d : Decimal, d.toRat = current.toRat + delta.toRat) ∧
    (∀ cents : ℤ, current.toRat + delta.toRat = cents / 10 ^ amountScale →
      (updated.toRat = current.toRat + delta.toRat ↔
        ∃ drop ≤ amountScale, ∃ m : ℤ, cents = m * 10 ^ drop ∧ m.natAbs < coefficientLimit)) ∧
    ∀ (l : Ledger) (u : UserId), l.balance? u c = some current →
      (l.perform (.apply u c delta)).2.isOk = true →
      ((l.perform (.apply u c delta)).1.amount u c = l.amount u c + delta.toRat ↔
        ∃ d : Decimal, d.toRat = l.amount u c + delta.toRat) := by
  have hexact := toRat_eq_iff_of_applyDelta h
  refine ⟨isFaithful_of_applyDelta h, hexact, fun cents hcents => ?_, fun l u hcurrent hok => ?_⟩
  · rw [hexact, hcents]
    exact Decimal.exists_toRat_iff Decimal.amountScale_le
  · rw [amount_of_applyDelta hcurrent h hok, amount_of_balance? hcurrent]
    exact hexact

def widestCents : Decimal := ⟨2 ^ 96 - 1, amountScale, by decide, Decimal.amountScale_le⟩

theorem exact_iff_widestCents :
    ∃ updated, applyDelta .usd widestCents (.small 1 2) = .ok updated ∧
      updated.toRat = widestCents.toRat + 5 / 100 ∧
      ¬ ∃ d : Decimal, d.toRat = widestCents.toRat + (Decimal.small 1 2).toRat := by
  have hupdated : applyDelta .usd widestCents (.small 1 2) =
      .ok ⟨7922816251426433759354395034, 1, by decide, by decide⟩ :=
    applyDelta_eq_ok.2 ⟨by decide +kernel, by decide +kernel⟩
  have hexact := (exact_iff_of_applyDelta hupdated).2.1
  refine ⟨_, hupdated, by decide +kernel, fun hdecimal => ?_⟩
  have hsum := hexact.2 hdecimal
  revert hsum
  decide +kernel

end Ledger

end CurrencyWallet

import CurrencyWallet.Proofs.Decimal.Monotone
import CurrencyWallet.Proofs.Exchange.Pricing

/-!
Prices keep the order. Who gives more, or gives it at a better rate, receives no less and is left
with no more, however many digits the products and sums have lost on the way.
-/
namespace CurrencyWallet

open Decimal

namespace Pricing

theorem amountAndRate_le {i j : PricingInput} (hrate : i.rate.IsPositive)
    (hamount : j.amount.IsPositive) (hamounts : i.amount ≤ j.amount) (hrates : i.rate ≤ j.rate) :
    i.amount.toRat * i.rate.toRat ≤ j.amount.toRat * j.rate.toRat :=
  mul_le_mul (le_iff_toRat.1 hamounts) (le_iff_toRat.1 hrates) (isPositive_iff.1 hrate).le
    (isPositive_iff.1 hamount).le

/-- Of two exchanges that have a price, let the second one be of no lesser amount at no lesser rate,
from no greater balance to no lesser one; the same balances, to begin with. Then it receives no
less, the balance it pays into is no less afterwards, and the one it pays from no greater. -/
theorem compute_mono {i j : PricingInput} {p q : Pricing} (hi : compute i = .ok p)
    (hj : compute j = .ok q) (hsource : j.sourceBalance ≤ i.sourceBalance)
    (htarget : i.targetBalance ≤ j.targetBalance) (hamount : i.amount ≤ j.amount)
    (hrate : i.rate ≤ j.rate) :
    p.received ≤ q.received ∧ p.targetBalance ≤ q.targetBalance ∧
      q.sourceBalance ≤ p.sourceBalance := by
  obtain ⟨hirate, -, product, rest, sum, hmul, hsub, hadd, -, -, rfl⟩ := compute_eq_ok.1 hi
  obtain ⟨-, hjamount, product', rest', sum', hmul', hsub', hadd', -, -, rfl⟩ := compute_eq_ok.1 hj
  have hproduct : product.toRat ≤ product'.toRat :=
    (standsFor_mul hmul).mono (standsFor_mul hmul') (amountAndRate_le hirate hjamount hamount hrate)
  have hreceived := roundAmount_mono hproduct
  have hsum : sum.toRat ≤ sum'.toRat :=
    (standsFor_add hadd).mono (standsFor_add hadd') (add_le_add (le_iff_toRat.1 htarget) hreceived)
  have hrest : rest'.toRat ≤ rest.toRat :=
    (standsFor_sub hsub').mono (standsFor_sub hsub)
      (sub_le_sub (le_iff_toRat.1 hsource) (le_iff_toRat.1 hamount))
  simp only [le_iff_toRat]
  exact ⟨hreceived, roundAmount_mono hsum, roundAmount_mono hrest⟩

def longestRate : PricingInput where
  source := .usd
  sourceBalance := .small 1000 2
  target := .eur
  targetBalance := .small 5 1
  rate := ⟨79228162514264337593543950334, maxScale, by decide, Nat.le_refl maxScale⟩
  amount := .small 1 0

/-- Two dollars: the product has lost a place. -/
def longestRateTwice : PricingInput := { longestRate with amount := .small 20 1 }

theorem compute_mono_longestRate :
    ∃ p q, compute longestRate = .ok p ∧ compute longestRateTwice = .ok q ∧
      longestRateTwice.sourceBalance ≤ longestRate.sourceBalance ∧
      longestRate.targetBalance ≤ longestRateTwice.targetBalance ∧
      longestRate.amount ≤ longestRateTwice.amount ∧ longestRate.rate ≤ longestRateTwice.rate ∧
      p.received = .small 792 2 ∧ q.received = .small 1585 2 ∧ p.received ≤ q.received ∧
      p.targetBalance ≤ q.targetBalance ∧ q.sourceBalance ≤ p.sourceBalance := by
  have hp : compute longestRate = .ok ⟨.small 900 2, .small 842 2, .small 792 2⟩ :=
    compute_eq_ok.2 ⟨by decide +kernel, by decide +kernel,
      longestRate.rate, .small 900 2, .small 842 2, by decide +kernel,
      by decide +kernel, by decide +kernel, by decide +kernel, by decide +kernel, by decide +kernel⟩
  have hq : compute longestRateTwice = .ok ⟨.small 800 2, .small 1635 2, .small 1585 2⟩ :=
    compute_eq_ok.2 ⟨by decide +kernel, by decide +kernel,
      ⟨15845632502852867518708790067, 27, by decide, by decide⟩, .small 800 2, .small 1635 2,
      by decide +kernel, by decide +kernel, by decide +kernel, by decide +kernel,
      by decide +kernel, by decide +kernel⟩
  refine ⟨_, _, hp, hq, by decide +kernel, by decide +kernel, by decide +kernel, by decide +kernel,
    rfl, rfl, ?_⟩
  exact compute_mono hp hq (by decide +kernel) (by decide +kernel) (by decide +kernel)
    (by decide +kernel)

end Pricing

end CurrencyWallet

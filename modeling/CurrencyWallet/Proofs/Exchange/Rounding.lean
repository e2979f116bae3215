import CurrencyWallet.Proofs.Decimal.Nearest
import CurrencyWallet.Proofs.Exchange.Pricing

/-!
What rounding does to a price. What is received has been rounded twice, to bring the product into
range and then to a cent: it is the nearest cent of the product, unless the first rounding takes the
product to or over a half cent. What is left is rounded before its sign is looked at, so that an
amount is refused for its balance only if it is half a cent above it.
-/
namespace CurrencyWallet

open Decimal

namespace Pricing

variable {i : PricingInput}

/-! ### What is received -/

/-- What is received is the product rounded once, to the nearest cent, if and only if no half cent
lies between the product and the decimal that stands for it. A product that is a decimal is
rounded once. One of at most twenty-five digits before the point that is not has been rounded up
onto a half cent, and a cent too much is received. -/
theorem received_eq_nearestCent_iff {p : Pricing} (h : compute i = .ok p) :
    ∃ product : Decimal, i.amount.mul i.rate = .ok product ∧
      (p.received.toRat = nearestCent (i.amount.toRat * i.rate.toRat) ↔
        ¬ HalfCentBetween (i.amount.toRat * i.rate.toRat) product.toRat) ∧
      ((∃ d : Decimal, d.toRat = i.amount.toRat * i.rate.toRat) →
        p.received.toRat = nearestCent (i.amount.toRat * i.rate.toRat)) ∧
      (i.amount.toRat * i.rate.toRat ≤ 10 ^ 25 →
        p.received.toRat ≠ nearestCent (i.amount.toRat * i.rate.toRat) →
        i.amount.toRat * i.rate.toRat < product.toRat ∧ IsHalfCent product.toRat ∧
          p.received.toRat = nearestCent (i.amount.toRat * i.rate.toRat) + 1 / 100) := by
  obtain ⟨hrate, hamount, product, rest, sum, hmul, -, -, -, -, rfl⟩ := compute_eq_ok.1 h
  have hexact : 0 ≤ i.amount.toRat * i.rate.toRat :=
    mul_nonneg (isPositive_iff.1 hamount).le (isPositive_iff.1 hrate).le
  have hfaithful := isFaithful_mul hmul
  have hcents : product.roundAmount.toRat = nearestCent (i.amount.toRat * i.rate.toRat) ↔
      ¬ HalfCentBetween (i.amount.toRat * i.rate.toRat) product.toRat := by
    rw [toRat_roundAmount_eq_nearestCent, eq_comm,
      nearestCent_eq_iff hexact (hfaithful.nonneg hexact)]
  refine ⟨product, hmul, hcents, ?_, ?_⟩
  · rintro ⟨d, hd⟩
    rw [toRat_roundAmount_eq_nearestCent, hfaithful.eq_of_decimal hd]
  · intro hlt hmissed
    have hbetween := not_not.1 (mt hcents.2 hmissed)
    obtain ⟨hup, hhalf⟩ := hfaithful.onto_halfCent hexact hlt hbetween
    refine ⟨hup, hhalf, ?_⟩
    rw [toRat_roundAmount_eq_nearestCent, hfaithful.nearestCent_onto hexact hlt hbetween]

/-- Half a dollar at a rate just below a hundredth comes to less than half a cent. -/
def thinRate : PricingInput where
  source := .usd
  sourceBalance := .small 1000 0
  target := .eur
  targetBalance := .zero
  rate := ⟨10 ^ 26 - 1, 28, by decide, by decide⟩
  amount := .small 5 1

theorem received_thinRate :
    ∃ p product, compute thinRate = .ok p ∧ thinRate.amount.mul thinRate.rate = .ok product ∧
      p.received.toRat = 1 / 100 ∧
      nearestCent (thinRate.amount.toRat * thinRate.rate.toRat) = 0 ∧
      thinRate.amount.toRat * thinRate.rate.toRat < product.toRat ∧ IsHalfCent product.toRat := by
  have hprice : compute thinRate = .ok ⟨.small 9995 1, .small 1 2, .small 1 2⟩ :=
    compute_eq_ok.2 ⟨by decide +kernel, by decide +kernel,
      ⟨5 * 10 ^ 25, 28, by decide, by decide⟩, .small 9995 1, .small 1 2, by decide +kernel,
      by decide +kernel, by decide +kernel, by decide +kernel, by decide +kernel, by decide +kernel⟩
  have hnearest : nearestCent (thinRate.amount.toRat * thinRate.rate.toRat) = 0 := by
    decide +kernel
  have hreceived : (Decimal.small 1 2).toRat = 1 / 100 := by decide +kernel
  obtain ⟨product, hmul, -, -, hmissed⟩ := received_eq_nearestCent_iff hprice
  obtain ⟨hup, hhalf, -⟩ := hmissed (by decide +kernel) (by rw [hnearest, hreceived]; norm_num)
  exact ⟨_, product, hprice, hmul, hreceived, hnearest, hup, hhalf⟩

/-! ### What is left -/

theorem isNegative_rest_iff {balance amount rest : Decimal} (h : balance.sub amount = .ok rest) :
    rest.roundAmount.IsNegative ↔ balance.toRat + 1 / 200 ≤ amount.toRat := by
  have hfaithful := isFaithful_sub h
  have hhalf : (Decimal.small (-5) 3).toRat = -(1 / 200) := by decide +kernel
  rw [isNegative_roundAmount_iff]
  constructor
  · intro hrest
    by_contra hcovered
    rw [not_le] at hcovered
    -- A difference this close to zero has not been rounded.
    obtain hleft | hshort := le_or_gt amount.toRat balance.toRat
    · have hnonneg := hfaithful.nonneg (sub_nonneg.2 hleft)
      linarith
    · have hsmall : |balance.toRat + (-amount).toRat| < 1 := by
        rw [toRat_neg, abs_lt]
        constructor <;> linarith
      obtain ⟨g, hg⟩ := exists_decimal_add hsmall
      rw [toRat_neg, ← sub_eq_add_neg] at hg
      rw [hfaithful.eq_of_decimal hg] at hrest
      linarith
  · intro hmissing
    rw [← hhalf]
    refine hfaithful.toRat_le _ ?_
    rw [hhalf]
    linarith

theorem exists_arithmetic (hrate : i.rate.IsPositive) (hamount : i.amount.IsPositive)
    (hfits : ∀ o, compute i ≠ .overflowed o) :
    ∃ product rest sum, i.amount.mul i.rate = .ok product ∧
      i.sourceBalance.sub i.amount = .ok rest ∧
      i.targetBalance.add product.roundAmount = .ok sum := by
  unfold compute at hfits
  rw [if_neg (not_not.2 hrate), if_neg (not_not.2 hamount)] at hfits
  cases hmul : i.amount.mul i.rate with
  | error o =>
    rw [hmul] at hfits
    exact absurd rfl (hfits o)
  | ok product =>
    cases hsub : i.sourceBalance.sub i.amount with
    | error o =>
      rw [hmul, hsub] at hfits
      exact absurd rfl (hfits o)
    | ok rest =>
      cases hadd : i.targetBalance.add product.roundAmount with
      | error o =>
        simp only [hmul, hsub, Attempt.ofArithmetic, Attempt.ok_bind, hadd] at hfits
        exact absurd rfl (hfits o)
      | ok sum => exact ⟨product, rest, sum, rfl, rfl, hadd⟩

theorem lt_iff_of_inCents {balance amount : Decimal} (hbalance : balance.InCents)
    (hamount : amount.InCents) :
    balance < amount ↔ balance.toRat + 1 / 200 ≤ amount.toRat := by
  obtain ⟨m, hm⟩ := hbalance
  obtain ⟨n, hn⟩ := hamount
  have hhundred : (10 : ℚ) ^ amountScale = 100 := by norm_num [amountScale]
  rw [lt_iff_toRat, hm, hn, hhundred]
  constructor
  · intro h
    have hlt : m < n := by
      rw [div_lt_div_iff_of_pos_right (by norm_num)] at h
      exact_mod_cast h
    have hle : (m : ℚ) + 1 ≤ n := by exact_mod_cast hlt
    linarith
  · intro h
    linarith

/-- An exchange whose arithmetic comes to an end is refused for the balance that pays if and only if
the amount is at least half a cent above it, and has a price otherwise. With balance and amount in
full cents, it is refused if and only if the amount is above the balance. -/
theorem refused_iff_uncovered (hrate : i.rate.IsPositive) (hamount : i.amount.IsPositive)
    (htarget : ¬ i.targetBalance.IsNegative) (hfits : ∀ o, compute i ≠ .overflowed o) :
    ((∃ balance, compute i = .refused (.negativeBalance i.source balance)) ↔
      i.sourceBalance.toRat + 1 / 200 ≤ i.amount.toRat) ∧
    ((∃ p, compute i = .ok p) ↔ i.amount.toRat < i.sourceBalance.toRat + 1 / 200) ∧
    (i.sourceBalance.InCents → i.amount.InCents →
      ((∃ balance, compute i = .refused (.negativeBalance i.source balance)) ↔
        i.sourceBalance < i.amount)) := by
  obtain ⟨product, rest, sum, hmul, hsub, hadd⟩ := exists_arithmetic hrate hamount hfits
  have hcompute := compute_of_arithmetic hrate hamount htarget hmul hsub hadd
  have hrefused : (∃ balance, compute i = .refused (.negativeBalance i.source balance)) ↔
      i.sourceBalance.toRat + 1 / 200 ≤ i.amount.toRat := by
    rw [← isNegative_rest_iff hsub, hcompute]
    split <;> simp [*]
  refine ⟨hrefused, ?_, fun hbalance hcents => ?_⟩
  · rw [← not_le, ← isNegative_rest_iff hsub, hcompute]
    split <;> simp [*]
  · rw [hrefused, lt_iff_of_inCents hbalance hcents]

def tenthOfCentShort : PricingInput where
  source := .usd
  sourceBalance := .small 10 0
  target := .eur
  targetBalance := .zero
  rate := .small 1 0
  amount := .small 10001 3

def halfCentShort : PricingInput := { tenthOfCentShort with amount := .small 10005 3 }

theorem refused_halfCentShort :
    (∀ o, compute halfCentShort ≠ .overflowed o) ∧
    ∃ balance, compute halfCentShort = .refused (.negativeBalance .usd balance) := by
  have hmul : halfCentShort.amount.mul halfCentShort.rate = .ok (.small 10005 3) := by
    decide +kernel
  have hsub : halfCentShort.sourceBalance.sub halfCentShort.amount = .ok (.small (-5) 3) := by
    decide +kernel
  have hadd : halfCentShort.targetBalance.add (Decimal.small 10005 3).roundAmount =
      .ok (.small 1001 2) := by decide +kernel
  have hcompute := compute_of_arithmetic (by decide +kernel) (by decide +kernel)
    (by decide +kernel) hmul hsub hadd
  rw [if_pos (by decide +kernel)] at hcompute
  have hfits : ∀ o, compute halfCentShort ≠ .overflowed o := by
    intro o
    rw [hcompute]
    exact nofun
  have hrefused := (refused_iff_uncovered (by decide +kernel) (by decide +kernel)
    (by decide +kernel) hfits).1
  exact ⟨hfits, hrefused.2 (by decide +kernel)⟩

theorem not_forall_refused_iff_lt :
    ¬ ∀ i : PricingInput, i.rate.IsPositive → i.amount.IsPositive →
      ¬ i.sourceBalance.IsNegative → ¬ i.targetBalance.IsNegative →
      (∀ o, compute i ≠ .overflowed o) →
      ((∃ balance, compute i = .refused (.negativeBalance i.source balance)) ↔
        i.sourceBalance < i.amount) ∧
      (¬ i.sourceBalance < i.amount → ∃ p, compute i = .ok p) := by
  intro hall
  have hprice : compute tenthOfCentShort = .ok ⟨.small 0 2, .small 1000 2, .small 1000 2⟩ :=
    compute_eq_ok.2 ⟨by decide +kernel, by decide +kernel, .small 10001 3, .small (-1) 3,
      .small 1000 2, by decide +kernel, by decide +kernel, by decide +kernel, by decide +kernel,
      by decide +kernel, by decide +kernel⟩
  have hrefused := (hall tenthOfCentShort (by decide +kernel) (by decide +kernel)
    (by decide +kernel) (by decide +kernel) (by rw [hprice]; exact nofun)).1
  obtain ⟨balance, hbalance⟩ := hrefused.2 (by decide +kernel)
  rw [hprice] at hbalance
  cases hbalance

end Pricing

end CurrencyWallet

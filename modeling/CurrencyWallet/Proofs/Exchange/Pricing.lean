import CurrencyWallet.Exchange.Pricing
import CurrencyWallet.Proofs.Decimal.Range

/-!
What a price consists of. Its values depend on the values of the balances and not on their places,
and an exchange that is covered has a price unless what is received, or the balance with it, is too
wide for a decimal.
-/
namespace CurrencyWallet

open Decimal

namespace Pricing

theorem compute_eq_ok {i : PricingInput} {p : Pricing} :
    compute i = .ok p ↔ i.rate.IsPositive ∧ i.amount.IsPositive ∧ ∃ product rest sum,
      i.amount.mul i.rate = .ok product ∧ i.sourceBalance.sub i.amount = .ok rest ∧
      i.targetBalance.add product.roundAmount = .ok sum ∧
      ¬ rest.roundAmount.IsNegative ∧ ¬ sum.roundAmount.IsNegative ∧
      p = ⟨rest.roundAmount, sum.roundAmount, product.roundAmount⟩ := by
  unfold compute
  by_cases hrate : i.rate.IsPositive
  · by_cases hamount : i.amount.IsPositive
    · simp only [hrate, hamount, not_true_eq_false, if_false, true_and, Attempt.bind_eq_ok,
        Attempt.ofArithmetic_eq_ok]
      refine exists_congr fun product => ?_
      constructor
      · rintro ⟨hmul, rest, hsub, sum, hadd, h⟩
        split at h
        · cases h
        · split at h
          · cases h
          · cases h
            exact ⟨rest, sum, hmul, hsub, hadd, ‹_›, ‹_›, rfl⟩
      · rintro ⟨rest, sum, hmul, hsub, hadd, hrest, hsum, rfl⟩
        refine ⟨hmul, rest, hsub, sum, hadd, ?_⟩
        rw [if_neg hrest, if_neg hsum]
    · simp [hrate, hamount]
  · simp [hrate]

theorem isMoney_of_compute {i : PricingInput} {p : Pricing} (h : compute i = .ok p) :
    p.sourceBalance.IsMoney ∧ p.targetBalance.IsMoney := by
  obtain ⟨-, -, product, rest, sum, -, -, -, hrest, hsum, rfl⟩ := compute_eq_ok.1 h
  exact ⟨isMoney_roundAmount hrest, isMoney_roundAmount hsum⟩

theorem toRat_of_compute {i : PricingInput} {p : Pricing} (h : compute i = .ok p)
    (hsource : i.sourceBalance.scale ≤ amountScale) (htarget : i.targetBalance.scale ≤ amountScale)
    (hamount : i.amount.scale ≤ amountScale) (hs : p.sourceBalance.toRat < amountLimit)
    (ht : p.targetBalance.toRat < amountLimit) :
    p.sourceBalance.toRat = i.sourceBalance.toRat - i.amount.toRat ∧
      p.targetBalance.toRat = i.targetBalance.toRat + p.received.toRat := by
  obtain ⟨hsmoney, htmoney⟩ := isMoney_of_compute h
  obtain ⟨-, -, product, rest, sum, -, hsub, hadd, -, -, rfl⟩ := compute_eq_ok.1 h
  have hreceived := scale_roundAmount_le product
  have hrest : rest.roundAmount = rest :=
    roundAmount_of_scale_le ((scale_sub_le hsub).trans (max_le hsource hamount))
  have hsum : sum.roundAmount = sum :=
    roundAmount_of_scale_le ((scale_add_le hadd).trans (max_le htarget hreceived))
  have hsabs := hsmoney.abs_lt hs
  have htabs := htmoney.abs_lt ht
  simp only [hrest, hsum] at hsabs htabs ⊢
  exact ⟨toRat_sub hsource hamount hsub hsabs, toRat_add htarget hreceived hadd htabs⟩

structure SameValues (p q : Pricing) : Prop where
  source : p.sourceBalance.toRat = q.sourceBalance.toRat
  target : p.targetBalance.toRat = q.targetBalance.toRat
  received : p.received = q.received

theorem map_toRat_eq_ok {x y : Except Overflow Decimal} {a : Decimal}
    (h : x.map toRat = y.map toRat) (hx : x = .ok a) : ∃ b, y = .ok b ∧ a.toRat = b.toRat := by
  subst hx
  cases y with
  | error o => cases h
  | ok b => exact ⟨b, rfl, Except.ok.inj h⟩

theorem compute_congr {i j : PricingInput} {p : Pricing} (h : compute i = .ok p)
    (hsource : i.sourceBalance.toRat = j.sourceBalance.toRat)
    (htarget : i.targetBalance.toRat = j.targetBalance.toRat)
    (hamount : i.amount = j.amount) (hrate : i.rate = j.rate) :
    ∃ q, compute j = .ok q ∧ p.SameValues q := by
  obtain ⟨hrpos, hapos, product, rest, sum, hmul, hsub, hadd, hrest, hsum, rfl⟩ :=
    compute_eq_ok.1 h
  rw [hamount] at hapos hmul hsub
  rw [hrate] at hrpos hmul
  obtain ⟨rest', hsub', hrest'⟩ := map_toRat_eq_ok (map_toRat_sub_congr hsource rfl) hsub
  obtain ⟨sum', hadd', hsum'⟩ := map_toRat_eq_ok (map_toRat_add_congr htarget rfl) hadd
  have hsource' := roundAmount_congr hrest'
  have htarget' := roundAmount_congr hsum'
  rw [isNegative_iff, hsource'] at hrest
  rw [isNegative_iff, htarget'] at hsum
  refine ⟨_, compute_eq_ok.2 ⟨hrpos, hapos, product, rest', sum', hmul, hsub', hadd', ?_, ?_, rfl⟩,
    hsource', htarget', rfl⟩
  · rwa [isNegative_iff]
  · rwa [isNegative_iff]

/-! ### Covered exchanges -/

end Pricing

/-- A positive amount that the source has, at a positive rate, and a target that is not below
zero. -/
structure PricingInput.IsCovered (i : PricingInput) : Prop where
  rate : i.rate.IsPositive
  amount : i.amount.IsPositive
  enough : ¬ i.sourceBalance < i.amount
  target : ¬ i.targetBalance.IsNegative

namespace Pricing

variable {i : PricingInput} {product rest sum : Decimal} {o : Overflow}

theorem received_nonneg (hrate : i.rate.IsPositive) (hamount : i.amount.IsPositive)
    (hmul : i.amount.mul i.rate = .ok product) : 0 ≤ product.roundAmount.toRat :=
  toRat_roundAmount_nonneg
    (toRat_mul_nonneg (toRat_nonneg_iff.2 (le_of_lt hamount))
      (toRat_nonneg_iff.2 (le_of_lt hrate)) hmul)

theorem sum_nonneg (hrate : i.rate.IsPositive) (hamount : i.amount.IsPositive)
    (htarget : ¬ i.targetBalance.IsNegative) (hmul : i.amount.mul i.rate = .ok product)
    (hadd : i.targetBalance.add product.roundAmount = .ok sum) : ¬ sum.roundAmount.IsNegative := by
  rw [isNegative_iff, not_lt] at htarget ⊢
  exact toRat_roundAmount_nonneg
    (toRat_add_nonneg htarget (received_nonneg hrate hamount hmul) hadd)

theorem compute_of_arithmetic (hrate : i.rate.IsPositive) (hamount : i.amount.IsPositive)
    (htarget : ¬ i.targetBalance.IsNegative) (hmul : i.amount.mul i.rate = .ok product)
    (hsub : i.sourceBalance.sub i.amount = .ok rest)
    (hadd : i.targetBalance.add product.roundAmount = .ok sum) :
    compute i =
      if rest.roundAmount.IsNegative then .refused (.negativeBalance i.source rest.roundAmount)
      else .ok ⟨rest.roundAmount, sum.roundAmount, product.roundAmount⟩ := by
  unfold compute
  rw [if_neg (not_not.2 hrate), if_neg (not_not.2 hamount), hmul, hsub]
  simp only [Attempt.ofArithmetic, Attempt.ok_bind, hadd,
    if_neg (sum_nonneg hrate hamount htarget hmul hadd)]

theorem rest_nonneg (h : i.IsCovered) (hsub : i.sourceBalance.sub i.amount = .ok rest) :
    ¬ rest.roundAmount.IsNegative := by
  have henough := h.enough
  rw [lt_iff_toRat, not_lt] at henough
  rw [isNegative_iff, not_lt]
  exact toRat_roundAmount_nonneg (toRat_sub_nonneg henough hsub)

theorem exists_rest (h : i.IsCovered) : ∃ rest, i.sourceBalance.sub i.amount = .ok rest := by
  have hamount : 0 ≤ i.amount.toRat := toRat_nonneg_iff.2 (le_of_lt h.amount)
  have henough := h.enough
  rw [lt_iff_toRat, not_lt] at henough
  exact exists_sub_of_nonneg (hamount.trans henough) hamount

theorem compute_of_covered (h : i.IsCovered) :
    compute i = (do
      let received := (← .ofArithmetic (i.amount.mul i.rate)).roundAmount
      let sourceBalance := (← .ofArithmetic (i.sourceBalance.sub i.amount)).roundAmount
      let targetBalance := (← .ofArithmetic (i.targetBalance.add received)).roundAmount
      .ok ⟨sourceBalance, targetBalance, received⟩) := by
  obtain ⟨rest, hsub⟩ := exists_rest h
  unfold compute
  rw [if_neg (not_not.2 h.rate), if_neg (not_not.2 h.amount)]
  cases hmul : i.amount.mul i.rate with
  | error o => rfl
  | ok product =>
    rw [hsub]
    cases hadd : i.targetBalance.add product.roundAmount with
    | error o => simp only [Attempt.ofArithmetic, Attempt.ok_bind, hadd, Attempt.overflowed_bind]
    | ok sum =>
      simp only [Attempt.ofArithmetic, Attempt.ok_bind, hadd, if_neg (rest_nonneg h hsub),
        if_neg (sum_nonneg h.rate h.amount h.target hmul hadd)]

theorem compute_ne_refused (h : i.IsCovered) (e : PricingError) : compute i ≠ .refused e := by
  obtain ⟨rest, hsub⟩ := exists_rest h
  rw [compute_of_covered h, hsub]
  cases hmul : i.amount.mul i.rate with
  | error o => rintro ⟨⟩
  | ok product =>
    simp only [Attempt.ofArithmetic, Attempt.ok_bind]
    cases i.targetBalance.add product.roundAmount <;> rintro ⟨⟩

theorem compute_eq_overflowed (h : i.IsCovered) :
    compute i = .overflowed o ↔
      o = .multiplication ∧ rangeLimit ≤ i.amount.toRat * i.rate.toRat ∨
      o = .addition ∧ ∃ product, i.amount.mul i.rate = .ok product ∧
        rangeLimit ≤ i.targetBalance.toRat + product.roundAmount.toRat := by
  obtain ⟨rest, hsub⟩ := exists_rest h
  have hproduct : 0 ≤ i.amount.toRat * i.rate.toRat :=
    mul_nonneg (toRat_nonneg_iff.2 (le_of_lt h.amount)) (toRat_nonneg_iff.2 (le_of_lt h.rate))
  have htarget := h.target
  rw [isNegative_iff, not_lt] at htarget
  rw [compute_of_covered h, hsub, ← abs_of_nonneg hproduct, ← mul_eq_error_iff]
  cases hmul : i.amount.mul i.rate with
  | error o' => simp [Attempt.ofArithmetic]
  | ok product =>
    have hsum : 0 ≤ i.targetBalance.toRat + product.roundAmount.toRat :=
      add_nonneg htarget (received_nonneg h.rate h.amount hmul)
    have hadd := add_eq_error_iff (a := i.targetBalance) (b := product.roundAmount) (o := o)
    rw [abs_of_nonneg hsum] at hadd
    simp only [Attempt.ofArithmetic, Attempt.ok_bind, Except.ok.injEq, exists_eq_left', ← hadd,
      reduceCtorEq, false_or]
    cases i.targetBalance.add product.roundAmount <;> simp

end Pricing

end CurrencyWallet

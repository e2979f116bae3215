import CurrencyWallet.Proofs.Decimal.Range

/-!
What bringing a result into range does to its value: no other decimal lies between the exact sum,
difference or product and the decimal that stands for it. A result that is a decimal is therefore
exact, however many digits the way to it has, and one that has to be rounded passes no decimal.
-/
namespace CurrencyWallet

theorem roundDiv_le_of_le {m n den : Nat} (hd : 0 < den) (h : m ≤ n * den) (tie : Tie) :
    roundDiv m den tie ≤ n := by
  obtain hlt | hge := Nat.lt_or_ge (m / den) n
  · exact (roundDiv_le m den tie).trans hlt
  · have hm : n * den ≤ m := (Nat.le_div_iff_mul_le hd).1 hge
    rw [le_antisymm h hm, roundDiv_mul_self n hd]

theorem le_roundDiv_of_le {m n den : Nat} (hd : 0 < den) (h : n * den ≤ m) (tie : Tie) :
    n ≤ roundDiv m den tie :=
  ((Nat.le_div_iff_mul_le hd).2 h).trans (le_roundDiv m den tie)

namespace Decimal

/-- No decimal lies between `d` and `x`. -/
structure IsFaithful (d : Decimal) (x : ℚ) : Prop where
  le_toRat : ∀ g : Decimal, g.toRat ≤ x → g.toRat ≤ d.toRat
  toRat_le : ∀ g : Decimal, x ≤ g.toRat → d.toRat ≤ g.toRat

theorem isFaithful_toRat (d : Decimal) : d.IsFaithful d.toRat := ⟨fun _ => id, fun _ => id⟩

theorem IsFaithful.eq_of_decimal {d g : Decimal} {x : ℚ} (h : d.IsFaithful x) (hg : g.toRat = x) :
    d.toRat = x := by
  refine le_antisymm ?_ ?_
  · rw [← hg]
    exact h.toRat_le g hg.ge
  · rw [← hg]
    exact h.le_toRat g hg.le

/-! ### Fitting -/

section Magnitudes

variable {m places drop : Nat}

def DropsLeast (m places drop : Nat) : Prop :=
  drop = 0 ∨ places = maxScale ∨ coefficientLimit ≤ roundDiv m (10 ^ (drop - 1)) .toEven

theorem dropsLeast_of_digitsToDrop {m scale drop : Nat}
    (h : digitsToDrop m (scale - maxScale) (scale - (scale - maxScale)) = some drop) :
    drop ≤ scale ∧ DropsLeast m (scale - drop) drop := by
  obtain ⟨-, hsurplus, hroom, hleast⟩ := digitsToDrop_eq_some h
  refine ⟨by omega, ?_⟩
  obtain hmore | hsame := hsurplus.lt_or_eq
  · exact Or.inr (Or.inr (hleast hmore))
  · by_cases hdrop : drop = 0
    · exact Or.inl hdrop
    · right
      left
      omega

theorem le_of_wide (h : coefficientLimit ≤ roundDiv m (10 ^ drop) .toEven) :
    (2 * coefficientLimit - 1) * 10 ^ drop ≤ 2 * m :=
  (succ_le_roundDiv_iff (k := coefficientLimit - 1) (Or.inr (by decide)) m (by positivity)).1 h

theorem limit_le_of_wide (h : coefficientLimit ≤ roundDiv m (10 ^ drop) .toEven) :
    coefficientLimit ≤ 10 * roundDiv m (10 ^ (drop + 1)) .toEven := by
  obtain ⟨k, hk, hodd⟩ : ∃ k, k = coefficientLimit / 10 ∧ k % 2 = 1 := ⟨_, rfl, by decide⟩
  have hten : (2 * k + 1) * 10 ≤ 2 * coefficientLimit - 1 := by
    rw [hk]
    decide
  have hwide : (2 * k + 1) * 10 ^ (drop + 1) ≤ 2 * m :=
    calc (2 * k + 1) * 10 ^ (drop + 1) = (2 * k + 1) * 10 * 10 ^ drop := by ring
      _ ≤ (2 * coefficientLimit - 1) * 10 ^ drop := Nat.mul_le_mul_right _ hten
      _ ≤ 2 * m := le_of_wide h
  have hround : k + 1 ≤ roundDiv m (10 ^ (drop + 1)) .toEven :=
    (succ_le_roundDiv_iff (Or.inr hodd) m (by positivity)).2 hwide
  omega

variable {c s : Nat}

theorem le_roundDiv_of_coefficient (hleast : DropsLeast m places drop) (hc : c < coefficientLimit)
    (hs : s ≤ maxScale) (h : c * 10 ^ (places + drop) ≤ m * 10 ^ s) :
    c * 10 ^ places ≤ roundDiv m (10 ^ drop) .toEven * 10 ^ s := by
  obtain hshort | hlong := le_or_gt s places
  · obtain ⟨more, rfl⟩ := Nat.exists_eq_add_of_le hshort
    have hm : c * 10 ^ more * 10 ^ drop ≤ m := by
      refine Nat.le_of_mul_le_mul_right ?_ (by positivity : 0 < 10 ^ s)
      calc c * 10 ^ more * 10 ^ drop * 10 ^ s = c * 10 ^ (s + more + drop) := by ring
        _ ≤ m * 10 ^ s := h
    calc c * 10 ^ (s + more) = c * 10 ^ more * 10 ^ s := by ring
      _ ≤ roundDiv m (10 ^ drop) .toEven * 10 ^ s :=
        Nat.mul_le_mul_right _ (le_roundDiv_of_le (by positivity) hm _)
  · obtain rfl | rfl | hwide := hleast
    · rwa [pow_zero, roundDiv_one]
    · exact absurd hlong (not_lt.2 hs)
    · cases drop with
      | zero =>
        rw [pow_zero, roundDiv_one]
        exact h
      | succ drop =>
        have hlimit := limit_le_of_wide hwide
        obtain ⟨more, rfl⟩ := Nat.exists_eq_add_of_lt hlong
        calc c * 10 ^ places
            ≤ 10 * roundDiv m (10 ^ (drop + 1)) .toEven * 10 ^ places :=
              Nat.mul_le_mul_right _ (hc.le.trans hlimit)
          _ = roundDiv m (10 ^ (drop + 1)) .toEven * 10 ^ (places + 1) := by ring
          _ ≤ roundDiv m (10 ^ (drop + 1)) .toEven * 10 ^ (places + more + 1) :=
            Nat.mul_le_mul_left _ (Nat.pow_le_pow_right (by decide) (by omega))

theorem roundDiv_le_of_coefficient (hleast : DropsLeast m places drop) (hc : c < coefficientLimit)
    (hs : s ≤ maxScale) (h : m * 10 ^ s ≤ c * 10 ^ (places + drop)) :
    roundDiv m (10 ^ drop) .toEven * 10 ^ s ≤ c * 10 ^ places := by
  obtain hshort | hlong := le_or_gt s places
  · obtain ⟨more, rfl⟩ := Nat.exists_eq_add_of_le hshort
    have hm : m ≤ c * 10 ^ more * 10 ^ drop := by
      refine Nat.le_of_mul_le_mul_right ?_ (by positivity : 0 < 10 ^ s)
      calc m * 10 ^ s ≤ c * 10 ^ (s + more + drop) := h
        _ = c * 10 ^ more * 10 ^ drop * 10 ^ s := by ring
    calc roundDiv m (10 ^ drop) .toEven * 10 ^ s
        ≤ c * 10 ^ more * 10 ^ s :=
          Nat.mul_le_mul_right _ (roundDiv_le_of_le (by positivity) hm _)
      _ = c * 10 ^ (s + more) := by ring
  · obtain rfl | rfl | hwide := hleast
    · rwa [pow_zero, roundDiv_one]
    · exact absurd hlong (not_lt.2 hs)
    · cases drop with
      | zero =>
        rw [pow_zero, roundDiv_one]
        exact h
      | succ drop =>
        -- With a place more the number would be too wide, so that `c` is too small to be above it.
        exfalso
        obtain ⟨more, rfl⟩ := Nat.exists_eq_add_of_lt hlong
        have hpos : 0 < 10 ^ (places + drop + 1) := by positivity
        have htwice : (2 * coefficientLimit - 1) * 10 ^ (places + drop + 1) ≤
            2 * c * 10 ^ (places + drop + 1) :=
          calc (2 * coefficientLimit - 1) * 10 ^ (places + drop + 1)
              = (2 * coefficientLimit - 1) * 10 ^ drop * 10 ^ (places + 1) := by ring
            _ ≤ 2 * m * 10 ^ (places + 1) := Nat.mul_le_mul_right _ (le_of_wide hwide)
            _ ≤ 2 * m * 10 ^ (places + more + 1) :=
              Nat.mul_le_mul_left _ (Nat.pow_le_pow_right (by decide) (by omega))
            _ = 2 * (m * 10 ^ (places + more + 1)) := by ring
            _ ≤ 2 * (c * 10 ^ (places + (drop + 1))) := Nat.mul_le_mul_left _ h
            _ = 2 * c * 10 ^ (places + drop + 1) := by ring
        have := Nat.le_of_mul_le_mul_right htwice hpos
        omega

end Magnitudes

theorem toRat_eq_natAbs {d : Decimal} (h : 0 ≤ d.coeff) :
    d.toRat = (d.coeff.natAbs : ℚ) / 10 ^ d.scale := by
  rw [toRat_eq, ← Int.cast_natCast, Int.natAbs_of_nonneg h]

theorem div_pow_le_div_pow_iff {m n k l : Nat} :
    (m : ℚ) / 10 ^ k ≤ (n : ℚ) / 10 ^ l ↔ m * 10 ^ l ≤ n * 10 ^ k := by
  rw [div_le_div_iff₀ (by positivity) (by positivity)]
  norm_cast

theorem isFaithful_of_dropsLeast {d : Decimal} {m drop : Nat} (hsign : 0 ≤ d.coeff)
    (hcoeff : d.coeff.natAbs = roundDiv m (10 ^ drop) .toEven)
    (hleast : DropsLeast m d.scale drop) : d.IsFaithful ((m : ℚ) / 10 ^ (d.scale + drop)) where
  le_toRat g hg := by
    obtain hneg | hpos := lt_or_ge g.coeff 0
    · exact (isNegative_iff.1 hneg).le.trans (toRat_nonneg_iff.2 hsign)
    · rw [toRat_eq_natAbs hpos, div_pow_le_div_pow_iff] at hg
      rw [toRat_eq_natAbs hpos, toRat_eq_natAbs hsign, div_pow_le_div_pow_iff, hcoeff]
      exact le_roundDiv_of_coefficient hleast g.coeff_lt g.scale_le hg
  toRat_le g hg := by
    have hpos : 0 ≤ g.coeff := toRat_nonneg_iff.1 (le_trans (by positivity) hg)
    rw [toRat_eq_natAbs hpos, div_pow_le_div_pow_iff] at hg
    rw [toRat_eq_natAbs hpos, toRat_eq_natAbs hsign, div_pow_le_div_pow_iff, hcoeff]
    exact roundDiv_le_of_coefficient hleast g.coeff_lt g.scale_le hg

theorem IsFaithful.neg {d : Decimal} {x : ℚ} (h : d.IsFaithful x) : (-d).IsFaithful (-x) where
  le_toRat g hg := by
    have hle := h.toRat_le (-g) (by rw [toRat_neg]; linarith)
    rw [toRat_neg] at hle ⊢
    linarith
  toRat_le g hg := by
    have hle := h.le_toRat (-g) (by rw [toRat_neg]; linarith)
    rw [toRat_neg] at hle ⊢
    linarith

theorem isFaithful_of_fit {n : Int} {scale : Nat} {d : Decimal}
    (h : fit n n.natAbs scale = some d) : d.IsFaithful ((n : ℚ) / 10 ^ scale) := by
  obtain ⟨drop, hdrop, hcoeff, hscale⟩ := exists_drop_of_fit h
  obtain ⟨hle, hleast⟩ := dropsLeast_of_digitsToDrop hdrop
  rw [← hscale] at hleast
  have hplaces : d.scale + drop = scale := by omega
  have hmagnitude : d.coeff.natAbs = roundDiv n.natAbs (10 ^ drop) .toEven := by
    rw [hcoeff, natAbs_withSign]
  obtain hneg | hpos := lt_or_ge n 0
  · have hsign : 0 ≤ (-d).coeff := by
      rw [coeff_neg, hcoeff, withSign, if_pos hneg]
      omega
    have hopposite := isFaithful_of_dropsLeast hsign ((Int.natAbs_neg _).trans hmagnitude) hleast
    have hvalue : (n : ℚ) = -(n.natAbs : ℚ) := by
      rw [← Int.cast_natCast, Int.ofNat_natAbs_of_nonpos hneg.le]
      push_cast
      ring
    rw [hvalue, neg_div, ← hplaces, ← neg_neg d]
    exact hopposite.neg
  · have hsign : 0 ≤ d.coeff := by
      rw [hcoeff, withSign, if_neg (not_lt.2 hpos)]
      exact Int.natCast_nonneg _
    have hvalue : (n : ℚ) = (n.natAbs : ℚ) := by
      rw [← Int.cast_natCast, Int.natAbs_of_nonneg hpos]
    rw [hvalue, ← hplaces]
    exact isFaithful_of_dropsLeast hsign hmagnitude hleast

/-! ### Results -/

section Results

variable {a b d : Decimal}

theorem isFaithful_add (h : a.add b = .ok d) : d.IsFaithful (a.toRat + b.toRat) := by
  obtain ⟨hzero, rfl⟩ | ⟨hzero, rfl⟩ | h := add_eq_ok h
  · rw [hzero, zero_add]
    exact isFaithful_toRat d
  · rw [hzero, add_zero]
    exact isFaithful_toRat d
  · rw [toRat_add_toRat]
    exact isFaithful_of_fit h

theorem isFaithful_sub (h : a.sub b = .ok d) : d.IsFaithful (a.toRat - b.toRat) := by
  rw [sub_eq_add_neg, ← toRat_neg]
  exact isFaithful_add (sub_eq_ok h)

theorem exists_decimal_add (h : |a.toRat + b.toRat| < 1) :
    ∃ g : Decimal, g.toRat = a.toRat + b.toRat := by
  rw [toRat_add_toRat, abs_div_pow, div_lt_one (by positivity)] at h
  have hplaces : max a.scale b.scale ≤ maxScale := max_le a.scale_le b.scale_le
  have hcoeff : (a.coeffAt (max a.scale b.scale) + b.coeffAt (max a.scale b.scale)).natAbs <
      coefficientLimit :=
    calc (a.coeffAt (max a.scale b.scale) + b.coeffAt (max a.scale b.scale)).natAbs
        < 10 ^ max a.scale b.scale := by exact_mod_cast h
      _ ≤ 10 ^ maxScale := Nat.pow_le_pow_right (by decide) hplaces
      _ ≤ coefficientLimit := by decide
  refine ⟨⟨_, _, hcoeff, hplaces⟩, ?_⟩
  rw [toRat_add_toRat, toRat_eq]

theorem le_toRat_of_pos (h : 0 < d.toRat) : (1 : ℚ) / 10 ^ maxScale ≤ d.toRat := by
  have hcoeff : 1 ≤ d.coeff.natAbs := by
    have hpos : 0 < d.coeff := isPositive_iff.2 h
    omega
  rw [toRat_eq_natAbs (toRat_nonneg_iff.1 h.le), ← Nat.cast_one, div_pow_le_div_pow_iff]
  exact Nat.mul_le_mul hcoeff (Nat.pow_le_pow_right (by decide) d.scale_le)

theorem isFaithful_zero {x : ℚ} (h : |x| < (1 : ℚ) / 10 ^ maxScale) : zero.IsFaithful x where
  le_toRat g hg := by
    rw [toRat_zero]
    by_contra hpos
    exact absurd (le_toRat_of_pos (not_le.1 hpos)) (not_le.2 (hg.trans_lt (abs_lt.1 h).2))
  toRat_le g hg := by
    rw [toRat_zero]
    by_contra hneg
    have hpos : 0 < (-g).toRat := by
      rw [toRat_neg]
      linarith
    have hleast := le_toRat_of_pos hpos
    rw [toRat_neg] at hleast
    linarith [(abs_lt.1 h).1]

theorem isFaithful_mul (h : a.mul b = .ok d) : d.IsFaithful (a.toRat * b.toRat) := by
  unfold mul at h
  split at h
  · rename_i hzero
    cases h
    rw [isZero_iff, isZero_iff, ← mul_eq_zero] at hzero
    rw [hzero, ← toRat_zero]
    exact isFaithful_toRat zero
  · split at h
    · cases h
      exact isFaithful_zero (IsNegligible.abs_lt_least ‹_›)
    · simp only at h
      split at h
      · cases h
        have hproduct : a.toRat * b.toRat =
            ((a.coeff * b.coeff : Int) : ℚ) / 10 ^ (a.scale + b.scale) := by
          rw [toRat_eq, toRat_eq, div_mul_div_comm, ← pow_add, ← Int.cast_mul]
        rw [hproduct]
        exact isFaithful_of_fit ‹_›
      · cases h

end Results

end Decimal

end CurrencyWallet

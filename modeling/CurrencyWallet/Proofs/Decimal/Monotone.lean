import CurrencyWallet.Proofs.Decimal.Nearest

/-!
Rounding keeps the order. The decimal that stands for a sum, difference or product depends on its
exact value alone, and a greater value never has a lesser decimal, although the places that are left
change with the magnitude: where two values are brought to different places, a decimal or the end of
the range lies between them.
-/
namespace CurrencyWallet

theorem roundDiv_le_roundDiv {m n : Nat} (h : m ≤ n) (den : Nat) (tie : Tie) :
    roundDiv m den tie ≤ roundDiv n den tie := by
  obtain hlt | heq := (Nat.div_le_div_right (c := den) h).lt_or_eq
  · exact ((roundDiv_le m den tie).trans hlt).trans (le_roundDiv n den tie)
  · -- With one quotient the greater number has the greater rest.
    have hm := Nat.div_add_mod m den
    have hn := Nat.div_add_mod n den
    rw [heq] at hm
    have hrest : m % den ≤ n % den := by omega
    cases tie <;> simp only [roundDiv, heq] <;> split_ifs <;> omega

theorem roundDiv_mono {m n k l : Nat} (hk : 0 < k) (hl : 0 < l) (h : m * l ≤ n * k) (tie : Tie) :
    roundDiv m k tie ≤ roundDiv n l tie := by
  rw [← roundDiv_mul_right m k hl, ← roundDiv_mul_right n l hk, Nat.mul_comm l k]
  exact roundDiv_le_roundDiv h (k * l) tie

theorem roundDiv_eq_zero {m den : Nat} (h : 2 * m < den) (tie : Tie) : roundDiv m den tie = 0 := by
  have hlt : m < den := by omega
  simp only [roundDiv, Nat.div_eq_of_lt hlt, Nat.mod_eq_of_lt hlt]
  rw [if_neg (by omega), if_neg (by omega)]

theorem nearestCent_mono {x y : ℚ} (h : x ≤ y) : nearestCent x ≤ nearestCent y := by
  unfold nearestCent
  refine div_le_div_of_nonneg_right (Int.cast_le.2 ?_) (by norm_num)
  by_cases hx : x < 0
  · rw [if_pos hx]
    by_cases hy : y < 0
    · rw [if_pos hy]
      exact neg_le_neg (Int.floor_le_floor (by linarith))
    · rw [if_neg hy]
      have hbelow : 0 ≤ ⌊-x * 100 + 1 / 2⌋ := Int.floor_nonneg.2 (by linarith)
      have habove : 0 ≤ ⌊y * 100 + 1 / 2⌋ := Int.floor_nonneg.2 (by linarith)
      omega
  · rw [if_neg hx, if_neg (by linarith)]
    exact Int.floor_le_floor (by linarith)

namespace Decimal

theorem le_iff_toRat {a b : Decimal} : a ≤ b ↔ a.toRat ≤ b.toRat := by
  rw [← not_lt_iff, lt_iff_toRat, not_lt]

theorem roundAmount_mono {a b : Decimal} (h : a.toRat ≤ b.toRat) :
    a.roundAmount.toRat ≤ b.roundAmount.toRat := by
  rw [toRat_roundAmount_eq_nearestCent, toRat_roundAmount_eq_nearestCent]
  exact nearestCent_mono h

/-! ### Magnitudes -/

theorem div_pow_add (m places drop : Nat) :
    (m : ℚ) / 10 ^ (places + drop) = m / 10 ^ drop / 10 ^ places := by
  rw [div_div, ← pow_add, Nat.add_comm]

theorem rangeLimit_div_le {k l : Nat} (h : k ≤ l) : rangeLimit / 10 ^ l ≤ rangeLimit / 10 ^ k :=
  div_le_div_of_nonneg_left (by norm_num [rangeLimit, coefficientLimit]) (by positivity)
    (pow_le_pow_right₀ (by norm_num) h)

theorem toRat_lt_range {d : Decimal} (h : 0 ≤ d.coeff) : d.toRat < rangeLimit / 10 ^ d.scale := by
  have hcoeff := (rangeLimit_le_div_iff d.coeff.natAbs 0).not.2 (by
    rw [pow_zero, roundDiv_one, not_le]
    exact d.coeff_lt)
  rw [pow_zero, div_one, not_le] at hcoeff
  rw [toRat_eq_natAbs h]
  exact div_lt_div_of_pos_right hcoeff (by positivity)

structure IsFitOf (d : Decimal) (x : ℚ) : Prop where
  nonneg : 0 ≤ d.coeff
  exists_drop : ∃ m drop : Nat, x = (m : ℚ) / 10 ^ (d.scale + drop) ∧
    d.coeff.natAbs = roundDiv m (10 ^ drop) .toEven ∧ DropsLeast m d.scale drop

namespace IsFitOf

variable {d e : Decimal} {x y : ℚ}

theorem isFaithful (h : d.IsFitOf x) : d.IsFaithful x := by
  obtain ⟨m, drop, rfl, hcoeff, hleast⟩ := h.exists_drop
  exact isFaithful_of_dropsLeast h.nonneg hcoeff hleast

theorem lt_range (h : d.IsFitOf x) : x < rangeLimit / 10 ^ d.scale := by
  obtain ⟨m, drop, rfl, hcoeff, -⟩ := h.exists_drop
  rw [div_pow_add]
  refine div_lt_div_of_pos_right ?_ (by positivity)
  rw [← not_le, rangeLimit_le_div_iff, not_le, ← hcoeff]
  exact d.coeff_lt

theorem cases (h : d.IsFitOf x) :
    d.toRat = x ∨ d.scale = maxScale ∨ rangeLimit / 10 ^ (d.scale + 1) ≤ x := by
  obtain ⟨m, drop, rfl, hcoeff, hleast⟩ := h.exists_drop
  cases drop with
  | zero =>
    left
    rw [toRat_eq_natAbs h.nonneg, hcoeff, pow_zero, roundDiv_one, Nat.add_zero]
  | succ drop =>
    obtain hzero | hmost | hwide := hleast
    · cases hzero
    · exact Or.inr (Or.inl hmost)
    · right
      right
      rw [Nat.add_sub_cancel, ← rangeLimit_le_div_iff] at hwide
      rw [← Nat.add_assoc, Nat.add_right_comm, div_pow_add]
      exact div_le_div_of_nonneg_right hwide (by positivity)

theorem mono_of_scale_eq (hd : d.IsFitOf x) (he : e.IsFitOf y) (hscale : d.scale = e.scale)
    (h : x ≤ y) : d.toRat ≤ e.toRat := by
  obtain ⟨m, drop, rfl, hdcoeff, -⟩ := hd.exists_drop
  obtain ⟨n, more, rfl, hecoeff, -⟩ := he.exists_drop
  rw [hscale, div_pow_add, div_pow_add, div_le_div_iff_of_pos_right (by positivity),
    div_pow_le_div_pow_iff] at h
  rw [toRat_eq_natAbs hd.nonneg, toRat_eq_natAbs he.nonneg, hscale, hdcoeff, hecoeff]
  refine div_le_div_of_nonneg_right (Nat.cast_le.2 ?_) (by positivity)
  exact roundDiv_mono (by positivity) (by positivity) h _

theorem mono (hd : d.IsFitOf x) (he : e.IsFitOf y) (h : x ≤ y) : d.toRat ≤ e.toRat := by
  obtain hfewer | hsame | hmore := Nat.lt_trichotomy d.scale e.scale
  · obtain hexact | hmost | hwide := hd.cases
    · exact he.isFaithful.le_toRat d (hexact.le.trans h)
    · exact absurd e.scale_le (not_le.2 (hmost ▸ hfewer))
    · -- The lesser number is out of the range that the greater one is in.
      have hrange := he.lt_range.trans_le (rangeLimit_div_le hfewer)
      exact absurd h (not_le.2 (hrange.trans_le hwide))
  · exact hd.mono_of_scale_eq he hsame h
  · obtain hexact | hmost | hwide := he.cases
    · exact hd.isFaithful.toRat_le e (h.trans hexact.ge)
    · exact absurd d.scale_le (not_le.2 (hmost ▸ hmore))
    · -- Every decimal with the places of the lesser number is below the greater one.
      have hrange := (toRat_lt_range hd.nonneg).trans_le (rangeLimit_div_le hmore)
      exact he.isFaithful.le_toRat d (hrange.le.trans hwide)

end IsFitOf

/-! ### Results -/

/-- `d` has the value that `x` is brought into range as, its magnitude first and then the sign. -/
def StandsFor (d : Decimal) (x : ℚ) : Prop :=
  ∃ e : Decimal, d.toRat = e.toRat ∧ (0 ≤ x ∧ e.IsFitOf x ∨ x < 0 ∧ (-e).IsFitOf (-x))

theorem standsFor_of_fit {n : Int} {scale : Nat} {d : Decimal}
    (h : fit n n.natAbs scale = some d) : d.StandsFor ((n : ℚ) / 10 ^ scale) := by
  obtain ⟨drop, hdrop, hcoeff, hscale⟩ := exists_drop_of_fit h
  obtain ⟨hle, hleast⟩ := dropsLeast_of_digitsToDrop hdrop
  rw [← hscale] at hleast
  have hplaces : scale = d.scale + drop := by omega
  have hmagnitude : d.coeff.natAbs = roundDiv n.natAbs (10 ^ drop) .toEven := by
    rw [hcoeff, natAbs_withSign]
  refine ⟨d, rfl, ?_⟩
  obtain hneg | hpos := lt_or_ge n 0
  · refine Or.inr ⟨div_neg_of_neg_of_pos (Int.cast_lt_zero.2 hneg) (by positivity), ?_, ?_⟩
    · rw [coeff_neg, hcoeff, withSign, if_pos hneg]
      omega
    · refine ⟨n.natAbs, drop, ?_, (Int.natAbs_neg _).trans hmagnitude, hleast⟩
      rw [scale_neg, ← hplaces, ← neg_div, ← Int.cast_neg, ← Int.cast_natCast (R := ℚ),
        Int.ofNat_natAbs_of_nonpos hneg.le]
  · refine Or.inl ⟨div_nonneg (Int.cast_nonneg hpos) (by positivity), ?_, ?_⟩
    · rw [hcoeff, withSign, if_neg (not_lt.2 hpos)]
      exact Int.natCast_nonneg _
    · refine ⟨n.natAbs, drop, ?_, hmagnitude, hleast⟩
      rw [← hplaces, ← Int.cast_natCast (R := ℚ), Int.natAbs_of_nonneg hpos]

theorem standsFor_toRat (d : Decimal) : d.StandsFor d.toRat := by
  have hfit := fit_of_lt d.coeff d.coeff_lt d.scale_le
  simp only [withSign_natAbs] at hfit
  rw [toRat_eq]
  exact standsFor_of_fit hfit

namespace StandsFor

variable {d e : Decimal} {x y : ℚ}

theorem nonneg (h : d.StandsFor x) (hx : 0 ≤ x) : 0 ≤ d.toRat := by
  obtain ⟨f, hvalue, ⟨-, hf⟩ | ⟨hneg, -⟩⟩ := h
  · rw [hvalue]
    exact toRat_nonneg_iff.2 hf.nonneg
  · exact absurd hx (not_le.2 hneg)

theorem nonpos (h : d.StandsFor x) (hx : x < 0) : d.toRat ≤ 0 := by
  obtain ⟨f, hvalue, ⟨hpos, -⟩ | ⟨-, hf⟩⟩ := h
  · exact absurd hpos (not_le.2 hx)
  · rw [hvalue, ← neg_nonneg, ← toRat_neg]
    exact toRat_nonneg_iff.2 hf.nonneg

theorem mono (hd : d.StandsFor x) (he : e.StandsFor y) (h : x ≤ y) : d.toRat ≤ e.toRat := by
  obtain hx | hx := lt_or_ge x 0
  · obtain hy | hy := lt_or_ge y 0
    · obtain ⟨f, hdvalue, ⟨hpos, -⟩ | ⟨-, hf⟩⟩ := hd
      · exact absurd hpos (not_le.2 hx)
      · obtain ⟨g, hevalue, ⟨hpos, -⟩ | ⟨-, hg⟩⟩ := he
        · exact absurd hpos (not_le.2 hy)
        · have hopposite := hg.mono hf (neg_le_neg h)
          rw [toRat_neg, toRat_neg, neg_le_neg_iff] at hopposite
          rwa [hdvalue, hevalue]
    · exact (hd.nonpos hx).trans (he.nonneg hy)
  · obtain ⟨f, hdvalue, ⟨-, hf⟩ | ⟨hneg, -⟩⟩ := hd
    · obtain ⟨g, hevalue, ⟨-, hg⟩ | ⟨hneg, -⟩⟩ := he
      · rw [hdvalue, hevalue]
        exact hf.mono hg h
      · exact absurd (hx.trans h) (not_le.2 hneg)
    · exact absurd hx (not_le.2 hneg)

end StandsFor

section Results

variable {a b d : Decimal}

theorem standsFor_add (h : a.add b = .ok d) : d.StandsFor (a.toRat + b.toRat) := by
  obtain ⟨hzero, rfl⟩ | ⟨hzero, rfl⟩ | h := add_eq_ok h
  · rw [hzero, zero_add]
    exact standsFor_toRat d
  · rw [hzero, add_zero]
    exact standsFor_toRat d
  · rw [toRat_add_toRat]
    exact standsFor_of_fit h

theorem standsFor_sub (h : a.sub b = .ok d) : d.StandsFor (a.toRat - b.toRat) := by
  rw [sub_eq_add_neg, ← toRat_neg]
  exact standsFor_add (sub_eq_ok h)

/-- What is taken for zero would be brought to zero with the most places. -/
theorem IsNegligible.standsFor (h : IsNegligible a b) : zero.StandsFor (a.toRat * b.toRat) := by
  obtain ⟨ha, hb, hscale⟩ := h
  obtain ⟨drop, hdrop⟩ := Nat.exists_eq_add_of_lt hscale
  have hproduct : 2 * (a.coeff * b.coeff).natAbs < 10 ^ (drop + 20) :=
    calc 2 * (a.coeff * b.coeff).natAbs ≤ 2 * (2 ^ 32 * 2 ^ 32) := by
          rw [Int.natAbs_mul]
          exact Nat.mul_le_mul_left 2 (Nat.mul_le_mul ha.le hb.le)
      _ < 10 ^ 20 := by decide
      _ ≤ 10 ^ (drop + 20) := Nat.pow_le_pow_right (by decide) (Nat.le_add_left _ _)
  have hnothing : (⟨0, maxScale, by decide, by decide⟩ : Decimal).IsFitOf |a.toRat * b.toRat| := by
    refine ⟨le_rfl, (a.coeff * b.coeff).natAbs, drop + 20, ?_, ?_, Or.inr (Or.inl rfl)⟩
    · rw [abs_toRat_mul, hdrop]
      congr 2
      simp only [maxScale]
      omega
    · rw [roundDiv_eq_zero hproduct]
      rfl
  refine ⟨⟨0, maxScale, by decide, by decide⟩, by decide +kernel, ?_⟩
  obtain hneg | hpos := lt_or_ge (a.toRat * b.toRat) 0
  · rw [abs_of_neg hneg] at hnothing
    exact Or.inr ⟨hneg, hnothing⟩
  · rw [abs_of_nonneg hpos] at hnothing
    exact Or.inl ⟨hpos, hnothing⟩

theorem standsFor_mul (h : a.mul b = .ok d) : d.StandsFor (a.toRat * b.toRat) := by
  unfold mul at h
  split at h
  · rename_i hzero
    cases h
    rw [isZero_iff, isZero_iff, ← mul_eq_zero] at hzero
    rw [hzero, ← toRat_zero]
    exact standsFor_toRat zero
  · split at h
    · cases h
      exact IsNegligible.standsFor ‹_›
    · simp only at h
      split at h
      · cases h
        have hproduct : a.toRat * b.toRat =
            ((a.coeff * b.coeff : Int) : ℚ) / 10 ^ (a.scale + b.scale) := by
          rw [toRat_eq, toRat_eq, div_mul_div_comm, ← pow_add, ← Int.cast_mul]
        rw [hproduct]
        exact standsFor_of_fit ‹_›
      · cases h

end Results

end Decimal

end CurrencyWallet

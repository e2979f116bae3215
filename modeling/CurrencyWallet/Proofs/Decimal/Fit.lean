import CurrencyWallet.Proofs.Decimal.Value

/-!
What fitting keeps. Zeros appended to a number do not change the value it is fitted to, so that the
value of a sum or difference, and of an amount in full cents, depends on the values of the operands
alone and not on their places. A number that is fitted to a small one has lost no digit.
-/
namespace CurrencyWallet

theorem roundDiv_mul_right (num den : Nat) {k : Nat} (hk : 0 < k) (tie : Tie) :
    roundDiv (num * k) (den * k) tie = roundDiv num den tie := by
  have hlt : den * k < 2 * (num % den * k) ↔ den < 2 * (num % den) := by
    rw [← mul_assoc, Nat.mul_lt_mul_right hk]
  have heq : 2 * (num % den * k) = den * k ↔ 2 * (num % den) = den := by
    rw [← mul_assoc, Nat.mul_left_inj hk.ne']
  simp only [roundDiv, Nat.mul_div_mul_right _ _ hk, Nat.mul_mod_mul_right, hlt, heq]

theorem roundDiv_mul_self (num : Nat) {den : Nat} (hd : 0 < den) (tie : Tie) :
    roundDiv (num * den) den tie = num := by
  have h := roundDiv_mul_right num 1 hd tie
  rwa [one_mul, roundDiv_one] at h

namespace Decimal

theorem withSign_natAbs (n : Int) : withSign n n.natAbs = n := by
  unfold withSign
  split <;> omega

theorem withSign_mul (sign : Int) (m k : Nat) :
    withSign sign (m * k) = withSign sign m * k := by
  unfold withSign
  split <;> push_cast <;> ring

theorem withSign_mul_pow (sign : Int) (m k : Nat) :
    withSign (sign * 10 ^ k) m = withSign sign m := by
  have hpos : (0 : Int) < 10 ^ k := by positivity
  simp only [withSign, mul_neg_iff, hpos, hpos.le.not_gt, and_true, and_false, false_or]

/-! ### The digits that are dropped -/

theorem digitsToDrop_of_lt {m : Nat} (h : m < coefficientLimit) (room : Nat) :
    digitsToDrop m 0 room = some 0 := by
  cases room <;> simp [digitsToDrop, roundDiv_one, h]

theorem digitsToDrop_mul_ten (m drop room : Nat) :
    digitsToDrop (m * 10) (drop + 1) room = (digitsToDrop m drop room).map (· + 1) := by
  induction room generalizing drop with
  | zero =>
    rw [digitsToDrop, digitsToDrop, pow_succ, roundDiv_mul_right _ _ (by decide)]
    split <;> rfl
  | succ room ih =>
    rw [digitsToDrop, digitsToDrop, pow_succ, roundDiv_mul_right _ _ (by decide), ih]
    split <;> rfl

theorem digitsToDrop_eq_some {m drop room d : Nat} (h : digitsToDrop m drop room = some d) :
    roundDiv m (10 ^ d) .toEven < coefficientLimit ∧ drop ≤ d ∧ d ≤ drop + room ∧
      (drop < d → coefficientLimit ≤ roundDiv m (10 ^ (d - 1)) .toEven) := by
  induction room generalizing drop with
  | zero =>
    unfold digitsToDrop at h
    split at h
    · cases h
      exact ⟨‹_›, le_rfl, le_rfl, fun hlt => absurd hlt (lt_irrefl _)⟩
    · cases h
  | succ room ih =>
    unfold digitsToDrop at h
    split at h
    · cases h
      exact ⟨‹_›, le_rfl, by omega, fun hlt => absurd hlt (lt_irrefl _)⟩
    · rename_i hwide
      obtain ⟨hfits, hle, hroom, hleast⟩ := ih h
      refine ⟨hfits, by omega, by omega, fun _ => ?_⟩
      obtain hlt | hge := Nat.lt_or_ge (drop + 1) d
      · exact hleast hlt
      · rw [show d - 1 = drop by omega]
        exact not_lt.1 hwide

/-! ### Fitting -/

theorem ofParts?_of_lt {c : Int} {s : Nat} (hc : c.natAbs < coefficientLimit) (hs : s ≤ maxScale) :
    ofParts? c s = some ⟨c, s, hc, hs⟩ := by
  simp [ofParts?, hc, hs]

theorem fit_eq_bind (sign : Int) (m : Nat) {scale : Nat} (hs : scale ≤ maxScale) :
    fit sign m scale = (digitsToDrop m 0 scale).bind fun drop =>
      ofParts? (withSign sign (roundDiv m (10 ^ drop) .toEven)) (scale - drop) := by
  have h : scale - maxScale = 0 := Nat.sub_eq_zero_of_le hs
  unfold fit
  simp only [h, Nat.sub_zero]
  cases digitsToDrop m 0 scale <;> rfl

theorem fit_of_lt (sign : Int) {m scale : Nat} (hm : m < coefficientLimit) (hs : scale ≤ maxScale) :
    fit sign m scale =
      some ⟨withSign sign m, scale, (natAbs_withSign sign m).trans_lt hm, hs⟩ := by
  rw [fit_eq_bind sign m hs, digitsToDrop_of_lt hm, Option.bind_some, pow_zero, roundDiv_one,
    Nat.sub_zero]
  exact ofParts?_of_lt _ _

theorem fit_mul_ten (sign : Int) (m : Nat) {scale : Nat} (hs : scale + 1 ≤ maxScale) :
    (fit sign (m * 10) (scale + 1)).map toRat = (fit sign m scale).map toRat := by
  obtain hlt | hge := Nat.lt_or_ge (m * 10) coefficientLimit
  · have hm : m < coefficientLimit := (Nat.le_mul_of_pos_right m (by decide)).trans_lt hlt
    rw [fit_of_lt sign hlt hs, fit_of_lt sign hm (by omega)]
    simp only [Option.map_some, toRat_eq, withSign_mul, pow_succ]
    push_cast
    rw [mul_div_mul_right _ _ (by norm_num)]
  · have hdrop : digitsToDrop (m * 10) 0 (scale + 1) = (digitsToDrop m 0 scale).map (· + 1) := by
      rw [digitsToDrop, pow_zero, roundDiv_one, if_neg (not_lt.2 hge), digitsToDrop_mul_ten]
    rw [fit_eq_bind sign _ hs, fit_eq_bind sign m (Nat.le_of_succ_le hs), hdrop]
    cases digitsToDrop m 0 scale with
    | none => rfl
    | some d =>
      rw [Option.map_some, Option.bind_some, Option.bind_some, pow_succ,
        roundDiv_mul_right _ _ (by decide), Nat.add_sub_add_right]

theorem fit_mul_pow (sign : Int) (m : Nat) {scale more : Nat} (hs : scale + more ≤ maxScale) :
    (fit sign (m * 10 ^ more) (scale + more)).map toRat = (fit sign m scale).map toRat := by
  induction more with
  | zero => simp
  | succ more ih =>
    rw [pow_succ, ← mul_assoc, ← add_assoc, fit_mul_ten sign _ (by omega), ih (by omega)]

theorem fit_mul_pow_sign (sign : Int) (k m : Nat) {scale : Nat} (hs : scale ≤ maxScale) :
    fit (sign * 10 ^ k) m scale = fit sign m scale := by
  simp only [fit_eq_bind _ m hs, withSign_mul_pow]

theorem fit_eq_some {sign : Int} {m scale : Nat} {d : Decimal} (hs : scale ≤ maxScale)
    (h : fit sign m scale = some d) :
    d.scale ≤ scale ∧ (d.coeff = withSign sign m ∧ d.scale = scale ∨
      coefficientLimit / 10 ≤ d.coeff.natAbs + 1 ∧ d.scale < scale) := by
  rw [fit_eq_bind sign m hs] at h
  obtain ⟨drop, hdrop, hparts⟩ := Option.bind_eq_some_iff.1 h
  obtain ⟨-, -, hle, hleast⟩ := digitsToDrop_eq_some hdrop
  obtain ⟨hcoeff, hscale⟩ := coeff_ofParts? hparts
  refine ⟨by omega, ?_⟩
  obtain hzero | hpos := Nat.eq_zero_or_pos drop
  · subst hzero
    rw [pow_zero, roundDiv_one] at hcoeff
    exact Or.inl ⟨hcoeff, by omega⟩
  · -- One digit fewer would have left a coefficient too wide, so that a tenth of it remains.
    right
    have hwide := hleast hpos
    have hup := roundDiv_le m (10 ^ (drop - 1)) .toEven
    have hdown := le_roundDiv m (10 ^ drop) .toEven
    have htenth : m / 10 ^ drop = m / 10 ^ (drop - 1) / 10 := by
      rw [Nat.div_div_eq_div_mul, ← pow_succ, Nat.sub_add_cancel hpos]
    rw [hcoeff, natAbs_withSign]
    omega

theorem exists_drop_of_fit {sign : Int} {m scale : Nat} {d : Decimal}
    (h : fit sign m scale = some d) :
    ∃ drop, digitsToDrop m (scale - maxScale) (scale - (scale - maxScale)) = some drop ∧
      d.coeff = withSign sign (roundDiv m (10 ^ drop) .toEven) ∧ d.scale = scale - drop := by
  unfold fit at h
  simp only at h
  split at h
  · cases h
  · rename_i drop hdrop
    exact ⟨drop, hdrop, coeff_ofParts? h⟩

theorem fit_nonneg {sign : Int} {m scale : Nat} {d : Decimal} (hsign : 0 ≤ sign)
    (h : fit sign m scale = some d) : 0 ≤ d.toRat := by
  obtain ⟨drop, -, hcoeff, -⟩ := exists_drop_of_fit h
  rw [toRat_nonneg_iff, hcoeff, withSign, if_neg (not_lt.2 hsign)]
  exact Int.natCast_nonneg _

/-! ### Sums and differences -/

theorem addAligned_eq_fit (a b : Decimal) :
    (addAligned a b).map toRat =
      (fit (a.coeffAt maxScale + b.coeffAt maxScale)
        (a.coeffAt maxScale + b.coeffAt maxScale).natAbs maxScale).map toRat := by
  have hs : max a.scale b.scale ≤ maxScale := max_le a.scale_le b.scale_le
  obtain ⟨more, hmore⟩ := Nat.exists_eq_add_of_le hs
  have hsum : a.coeffAt maxScale + b.coeffAt maxScale =
      (a.coeffAt (max a.scale b.scale) + b.coeffAt (max a.scale b.scale)) * 10 ^ more := by
    rw [hmore, coeffAt_mul_pow a (le_max_left _ _), coeffAt_mul_pow b (le_max_right _ _), add_mul]
  have hpow : ((10 : Int) ^ more).natAbs = 10 ^ more := by rw [Int.natAbs_pow]; rfl
  rw [hsum, Int.natAbs_mul, hpow, fit_mul_pow_sign _ _ _ le_rfl, hmore, fit_mul_pow _ _ hmore.ge]
  rfl

theorem addAligned_congr {a a' b b' : Decimal} (ha : a.toRat = a'.toRat)
    (hb : b.toRat = b'.toRat) :
    (addAligned a b).map toRat = (addAligned a' b').map toRat := by
  rw [addAligned_eq_fit, addAligned_eq_fit, coeffAt_maxScale_congr ha, coeffAt_maxScale_congr hb]

theorem map_toRat_add (a b : Decimal) :
    (a.add b).map toRat =
      if a.toRat = 0 then .ok b.toRat
      else if b.toRat = 0 then .ok a.toRat
      else ((addAligned a b).map toRat).elim (.error .addition) .ok := by
  simp only [add, isZero_iff]
  split
  · rfl
  · split
    · rfl
    · cases addAligned a b <;> rfl

theorem map_toRat_sub (a b : Decimal) :
    (a.sub b).map toRat =
      if a.toRat = 0 then .ok (-b).toRat
      else if b.toRat = 0 then .ok a.toRat
      else ((addAligned a (-b)).map toRat).elim (.error .subtraction) .ok := by
  simp only [sub, isZero_iff]
  split
  · rfl
  · split
    · rfl
    · cases addAligned a (-b) <;> rfl

theorem map_toRat_add_congr {a a' b b' : Decimal} (ha : a.toRat = a'.toRat)
    (hb : b.toRat = b'.toRat) : (a.add b).map toRat = (a'.add b').map toRat := by
  rw [map_toRat_add, map_toRat_add, addAligned_congr ha hb, ha, hb]

theorem map_toRat_sub_congr {a a' b b' : Decimal} (ha : a.toRat = a'.toRat)
    (hb : b.toRat = b'.toRat) : (a.sub b).map toRat = (a'.sub b').map toRat := by
  have hneg : (-b).toRat = (-b').toRat := by rw [toRat_neg, toRat_neg, hb]
  rw [map_toRat_sub, map_toRat_sub, addAligned_congr ha hneg, ha, hb, hneg]

theorem addAligned_eq_some {a b d : Decimal} (h : addAligned a b = some d) :
    d.scale ≤ max a.scale b.scale ∧ (d.toRat = a.toRat + b.toRat ∨
      coefficientLimit / 10 ≤ d.coeff.natAbs + 1 ∧ d.scale < max a.scale b.scale) := by
  obtain ⟨hle, ⟨hcoeff, hscale⟩ | hwide⟩ := fit_eq_some (max_le a.scale_le b.scale_le) h
  · refine ⟨hle, Or.inl ?_⟩
    rw [withSign_natAbs] at hcoeff
    rw [toRat_eq, hcoeff, hscale, toRat_add_toRat]
  · exact ⟨hle, Or.inr hwide⟩

end Decimal

end CurrencyWallet

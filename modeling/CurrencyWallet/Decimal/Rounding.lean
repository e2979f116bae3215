import CurrencyWallet.Decimal.Basic

/-!
Rounding of quotients and of decimals. `roundDiv` is the one rule, with the tie as a parameter;
`fit` drops as few low digits as bring a number into range, ties to even, and `roundAmount` keeps
two places, ties away from zero.
-/
namespace CurrencyWallet

inductive Tie where
  | toEven
  | awayFromZero
  deriving DecidableEq

def roundDiv (num den : Nat) (tie : Tie) : Nat :=
  let q := num / den
  let r := num % den
  if den < 2 * r then q + 1
  else if 2 * r = den then
    match tie with
    | .toEven => q + q % 2
    | .awayFromZero => q + 1
  else q

theorem roundDiv_le (num den : Nat) (tie : Tie) : roundDiv num den tie ≤ num / den + 1 := by
  unfold roundDiv
  cases tie <;> simp only <;> split <;> (try split) <;> omega

theorem le_roundDiv (num den : Nat) (tie : Tie) : num / den ≤ roundDiv num den tie := by
  unfold roundDiv
  cases tie <;> simp only <;> split <;> (try split) <;> omega

theorem roundDiv_one (num : Nat) (tie : Tie) : roundDiv num 1 tie = num := by
  unfold roundDiv
  cases tie <;> simp [Nat.mod_one]

namespace Decimal

def withSign (sign : Int) (m : Nat) : Int := if sign < 0 then -(m : Int) else m

theorem natAbs_withSign (sign : Int) (m : Nat) : (withSign sign m).natAbs = m := by
  unfold withSign
  split <;> omega

/-- The fewest low digits, from `drop` on and at most `room` more, whose dropping brings `m` below
the coefficient limit. -/
def digitsToDrop (m drop : Nat) : Nat → Option Nat
  | 0 => if roundDiv m (10 ^ drop) .toEven < coefficientLimit then some drop else none
  | room + 1 =>
    if roundDiv m (10 ^ drop) .toEven < coefficientLimit then some drop
    else digitsToDrop m (drop + 1) room

/-- The decimal nearest `m / 10 ^ scale` with the sign of `sign`, or none if even without places it
is too wide. -/
def fit (sign : Int) (m scale : Nat) : Option Decimal :=
  let surplus := scale - maxScale
  match digitsToDrop m surplus (scale - surplus) with
  | none => none
  | some drop => ofParts? (withSign sign (roundDiv m (10 ^ drop) .toEven)) (scale - drop)

def amountScale : Nat := 2

/-- The amount with at most two places: a longer one is rounded to exactly two, a half away from
zero. -/
def roundAmount (d : Decimal) : Decimal :=
  if h : d.scale ≤ amountScale then d
  else
    { coeff := withSign d.coeff
        (roundDiv d.coeff.natAbs (10 ^ (d.scale - amountScale)) .awayFromZero)
      scale := amountScale
      coeff_lt := by
        rw [natAbs_withSign]
        have hlt := d.coeff_lt
        have hle := roundDiv_le d.coeff.natAbs (10 ^ (d.scale - amountScale)) .awayFromZero
        have hpow : 10 ≤ 10 ^ (d.scale - amountScale) :=
          Nat.le_self_pow (by omega) 10
        have hdiv : d.coeff.natAbs / 10 ^ (d.scale - amountScale) ≤ d.coeff.natAbs / 10 :=
          Nat.div_le_div_left hpow (by decide)
        unfold coefficientLimit at *
        omega
      scale_le := by decide }

theorem roundAmount_of_scale_le {d : Decimal} (h : d.scale ≤ amountScale) :
    d.roundAmount = d := by
  simp [roundAmount, h]

theorem scale_roundAmount_le (d : Decimal) : d.roundAmount.scale ≤ amountScale := by
  unfold roundAmount
  split
  · assumption
  · exact Nat.le_refl _

end Decimal

end CurrencyWallet

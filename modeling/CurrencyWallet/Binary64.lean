import CurrencyWallet.Decimal.Rounding
import CurrencyWallet.Text.Numeral

/-!
Magnitudes of binary numbers with 53 significant bits. `Binary64.nearest` rounds a fraction to one
of them, ties to even; `Binary64.digits` gives the fewest decimal digits that are nearer to a
number than to any other, and of those the nearest.
-/
namespace CurrencyWallet

/-- The number `significand * 2 ^ exponent`. -/
structure Binary64 where
  significand : Nat
  exponent : Int
  deriving DecidableEq

namespace Binary64

def minExponent : Int := -1074

def sizeLimit : Int := 1024

def shift (n d : Nat) (e : Int) : Nat × Nat :=
  if 0 ≤ e then (n * 2 ^ e.toNat, d) else (n, d * 2 ^ (-e).toNat)

def nearest (num den : Nat) : Option Binary64 :=
  if num = 0 then some ⟨0, minExponent⟩
  else
    let guess : Int := (Nat.log2 num : Int) - Nat.log2 den - 52
    let (n, d) := shift num den (-guess)
    let e := max minExponent (if n / d < 2 ^ 52 then guess - 1 else guess)
    let (n, d) := shift num den (-e)
    let m := roundDiv n d .toEven
    let r : Binary64 := if m = 2 ^ 53 then ⟨2 ^ 52, e + 1⟩ else ⟨m, e⟩
    if r.exponent + 53 ≤ sizeLimit then some r else none

def fraction (b : Binary64) : Nat × Nat := shift b.significand 1 b.exponent

def mul (a b : Binary64) : Option Binary64 :=
  nearest (a.fraction.1 * b.fraction.1) (a.fraction.2 * b.fraction.2)

def div (a b : Binary64) : Option Binary64 :=
  nearest (a.fraction.1 * b.fraction.2) (a.fraction.2 * b.fraction.1)

def tenPower (k : Nat) : Option Binary64 := nearest (10 ^ k) 1

def maxTenPower : Nat := 308

def lower (b : Binary64) (k : Nat) : Option Binary64 :=
  if k ≤ maxTenPower then (tenPower k).bind b.div
  else if b.significand = 0 then some b
  else ((tenPower maxTenPower).bind b.div).bind fun b => b.lower (k - maxTenPower)
  termination_by k
  decreasing_by unfold maxTenPower at *; omega

def raise (b : Binary64) (k : Nat) : Option Binary64 :=
  if b.significand = 0 then some b
  else if k ≤ maxTenPower then (tenPower k).bind b.mul
  else none

/-- The number that stands for `significand * 10 ^ power`: the significand is rounded, and then its
product with the power or its quotient by it. -/
def ofScientific (significand : Nat) (power : Int) : Option Binary64 := do
  let b ← nearest significand 1
  if 0 ≤ power then b.raise power.toNat else b.lower (-power).toNat

def neighbourhood (b : Binary64) : (Nat × Nat) × (Nat × Nat) :=
  let above := shift (2 * b.significand + 1) 1 (b.exponent - 1)
  let below :=
    if b.significand = 2 ^ 52 ∧ minExponent < b.exponent then
      shift (4 * b.significand - 1) 1 (b.exponent - 2)
    else shift (2 * b.significand - 1) 1 (b.exponent - 1)
  (below, above)

/-- Whether `x` is read back as `b`. The ends of the neighbourhood belong to even numbers. -/
def IsReadAs (x : Nat × Nat) (b : Binary64) : Prop :=
  let (below, above) := b.neighbourhood
  if b.significand % 2 = 0 then
    below.1 * x.2 ≤ x.1 * below.2 ∧ x.1 * above.2 ≤ above.1 * x.2
  else below.1 * x.2 < x.1 * below.2 ∧ x.1 * above.2 < above.1 * x.2

instance (x : Nat × Nat) (b : Binary64) : Decidable (IsReadAs x b) := by
  unfold IsReadAs; infer_instance

def tenths (m : Nat) (power : Int) : Nat × Nat :=
  if 0 ≤ power then (m * 10 ^ power.toNat, 1) else (m, 10 ^ (-power).toNat)

/-- The multiple of `10 ^ power` that is nearest to `b` of those read back as `b`, the larger one
of two that are equally near. -/
def onGrid (b : Binary64) (power : Int) : Option Nat :=
  let (num, den) := b.fraction
  let (n, d) := if 0 ≤ power then (num, den * 10 ^ power.toNat)
    else (num * 10 ^ (-power).toNat, den)
  let low := n / d
  let lowFits := decide (IsReadAs (tenths low power) b)
  let highFits := decide (IsReadAs (tenths (low + 1) power) b)
  if lowFits && highFits then some (roundDiv n d .awayFromZero)
  else if lowFits then some low
  else if highFits then some (low + 1)
  else none

def digitsFrom (b : Binary64) (power : Int) : Nat → Nat × Int
  | 0 => ((b.onGrid power).getD 0, power)
  | finer + 1 =>
    match b.onGrid power with
    | some m => (m, power)
    | none => b.digitsFrom (power - 1) finer

def powerAbove (b : Binary64) : Int :=
  let (num, den) := b.fraction
  if den ≤ num then ((Nat.toDigits 10 (num / den)).length : Int)
  else 1 - ((Nat.toDigits 10 (den / num)).length : Int)

def digits (b : Binary64) : Nat × Int :=
  if b.significand = 0 then (0, 0) else b.digitsFrom (b.powerAbove) 18

def plainText (b : Binary64) : List Char :=
  let (m, power) := b.digits
  if 0 ≤ power then Text.natDigits (m * 10 ^ power.toNat)
  else
    let places := (-power).toNat
    let ds := Text.natDigits m
    let ds := List.replicate (places + 1 - ds.length) '0' ++ ds
    ds.take (ds.length - places) ++ '.' :: ds.drop (ds.length - places)

end Binary64

end CurrencyWallet

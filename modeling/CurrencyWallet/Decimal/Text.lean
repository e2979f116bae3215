import CurrencyWallet.Decimal.Arithmetic
import CurrencyWallet.Text.Numeral
import CurrencyWallet.Text.Split

/-!
Written decimals. A decimal is written with all its places and at least one digit before the
point. Read are an optional sign and digits with at most one point, where underscores may stand
anywhere after the first digit, and the same followed by `e` or `E` and a power of ten. Digits
that no longer fit are rounded off at the first of them, a half upwards.
-/
namespace CurrencyWallet.Decimal

open Text

def padded (width n : Nat) : List Char :=
  let ds := natDigits n
  List.replicate (width - ds.length) '0' ++ ds

def magnitudeText (m scale : Nat) : List Char :=
  if scale = 0 then natDigits m
  else
    let ds := padded (scale + 1) m
    ds.take (ds.length - scale) ++ '.' :: ds.drop (ds.length - scale)

def chars (d : Decimal) : List Char :=
  let magnitude := magnitudeText d.coeff.natAbs d.scale
  if d.coeff < 0 then '-' :: magnitude else magnitude

def toText (d : Decimal) : String := String.ofList d.chars

instance : ToString Decimal := ⟨toText⟩

abbrev Mark := Option Nat

def mark? (c : Char) : Option Mark := if c = '_' then some none else (digit? c).map some

def marks? (cs : List Char) : Option (List Mark) := cs.mapM mark?

/-- Below this, a coefficient with all its places has been built without a second machine word. -/
def narrowLimit : Nat := 18446744073709549060

/-- Takes the places of a number whose digits so far are `m` with `scale` places. The first one
that does not fit decides the rounding of the last that does. An underscore is passed over, except
that after the last possible place of a narrow coefficient it decides like a zero. -/
def takePlaces (m scale : Nat) : List Mark → Option (Nat × Nat)
  | [] => some (m, scale)
  | none :: rest =>
    if scale = maxScale ∧ m < narrowLimit then some (m, scale) else takePlaces m scale rest
  | some d :: rest =>
    if scale < maxScale ∧ 10 * m + d < coefficientLimit then
      takePlaces (10 * m + d) (scale + 1) rest
    else
      let rounded := if 5 ≤ d then m + 1 else m
      if rounded < coefficientLimit then some (rounded, scale)
      else if scale = 0 then none
      else some ((rounded + 4) / 10, scale - 1)

def beginsWithDigit (marks : List Mark) : Bool := marks.head?.join.isSome

def readMagnitude (cs : List Char) : Option (Nat × Nat) := do
  let (whole, places) := (splitOnce '.' cs).getD (cs, [])
  let wholeMarks ← marks? whole
  let placeMarks ← marks? places
  if !beginsWithDigit (wholeMarks ++ placeMarks) then none
  let m := ofDigits 0 (wholeMarks.filterMap id)
  if m < coefficientLimit then takePlaces m 0 placeMarks else none

def readPlain (cs : List Char) : Option Decimal :=
  let (sign, body) : Int × List Char := match cs with
    | '-' :: rest => (-1, rest)
    | '+' :: rest => (1, rest)
    | _ => (1, cs)
  (readMagnitude body).bind fun (m, scale) => ofParts? (withSign sign m) scale

def stripPlaces (coeff : Int) : Nat → Int × Nat
  | 0 => (coeff, 0)
  | scale + 1 => if coeff % 10 = 0 then stripPlaces (coeff / 10) scale else (coeff, scale + 1)

def normalize (d : Decimal) : Option Decimal :=
  let (coeff, scale) := stripPlaces d.coeff d.scale
  ofParts? coeff scale

def tenPower? (k : Nat) : Option Decimal := ofParts? (10 ^ k) 0

def splitExponent : List Char → Option (List Char × List Char)
  | [] => none
  | c :: cs =>
    if c = 'e' ∨ c = 'E' then some ([], cs)
    else (splitExponent cs).map fun (left, right) => (c :: left, right)

def exponent? (cs : List Char) : Option Nat := (natBelow? (2 ^ 32) cs).filter (· ≤ maxScale)

/-- Reads a number with a power of ten. A negative power adds places, a positive one takes them
away; one that takes more than there are multiplies, and the places left are stripped of zeros. -/
def readScientific (cs : List Char) : Option Decimal := do
  let (base, power) ← splitExponent cs
  let d ← readPlain base
  match power with
  | '-' :: rest =>
    let k ← exponent? rest
    ofParts? d.coeff (d.scale + k)
  | _ =>
    let k ← exponent? power
    if k ≤ d.scale then ofParts? d.coeff (d.scale - k)
    else
      let factor ← tenPower? k
      let product ← (mul d factor).toOption
      normalize product

def ofChars? (cs : List Char) : Option Decimal := readPlain cs <|> readScientific cs

def ofText? (s : String) : Option Decimal := ofChars? s.toList

end CurrencyWallet.Decimal

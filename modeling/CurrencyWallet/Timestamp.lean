import CurrencyWallet.Text.Blank
import CurrencyWallet.Text.Numeral

/-!
Moments of the proleptic Gregorian calendar in coordinated universal time, to the nanosecond. They
are written `2024-01-02T03:04:05.120Z` with 0, 3, 6 or 9 places of a second. Read is that form and
its looser relatives: blanks between the parts, one digit where two are usual, a `t` or a blank for
the `T`, and an offset with or without its colon.
-/
namespace CurrencyWallet

open Text

namespace Calendar

def IsLeapYear (y : Int) : Prop := y % 4 = 0 ∧ (y % 100 ≠ 0 ∨ y % 400 = 0)

instance (y : Int) : Decidable (IsLeapYear y) := inferInstanceAs (Decidable (_ ∧ _))

def monthLength (y : Int) (month : Nat) : Nat :=
  if month = 2 then if IsLeapYear y then 29 else 28
  else if month ∈ [4, 6, 9, 11] then 30
  else 31

/-- Days from 1 March of the year 0 to a date. Years are taken to begin in March, so that the leap
day comes last. -/
def dayNumber (y : Int) (month day : Nat) : Int :=
  let year := if month ≤ 2 then y - 1 else y
  let monthFromMarch := (month + 9) % 12
  365 * year + year / 4 - year / 100 + year / 400 + ((153 * monthFromMarch + 2) / 5 + day - 1 : Nat)

def ofDayNumber (n : Int) : Int × Nat × Nat :=
  let era := n / 146097
  let dayOfEra := (n % 146097).toNat
  let yearOfEra :=
    (dayOfEra - dayOfEra / 1460 + dayOfEra / 36524 - dayOfEra / 146096) / 365
  let dayOfYear := dayOfEra - (365 * yearOfEra + yearOfEra / 4 - yearOfEra / 100)
  let monthFromMarch := (5 * dayOfYear + 2) / 153
  let day := dayOfYear - (153 * monthFromMarch + 2) / 5 + 1
  let month := if monthFromMarch < 10 then monthFromMarch + 3 else monthFromMarch - 9
  let year := 400 * era + yearOfEra
  (if month ≤ 2 then year + 1 else year, month, day)

end Calendar

/-- A second has `10 ^ 9` nanoseconds; those of a leap second are counted on in the second before
it. -/
structure Timestamp where
  day : Int
  second : Nat
  nano : Nat
  deriving DecidableEq

namespace Timestamp

def secondLength : Nat := 1000000000

def dayLength : Nat := 86400

def epoch : Timestamp := ⟨Calendar.dayNumber 1970 1 1, 0, 0⟩

def firstYear : Int := -262143

def lastYear : Int := 262142

def IsYear (y : Int) : Prop := firstYear ≤ y ∧ y ≤ lastYear

instance (y : Int) : Decidable (IsYear y) :=
  inferInstanceAs (Decidable (firstYear ≤ y ∧ y ≤ lastYear))

def year (t : Timestamp) : Int := (Calendar.ofDayNumber t.day).1

/-! ### Writing -/

def twoDigits (n : Nat) : List Char := (if n < 10 then ['0'] else []) ++ natDigits n

def digitsOf (width n : Nat) : List Char :=
  let ds := natDigits n
  List.replicate (width - ds.length) '0' ++ ds

/-- A year of more or less than four digits has its sign. -/
def yearText (y : Int) : List Char :=
  if 0 ≤ y ∧ y ≤ 9999 then digitsOf 4 y.toNat
  else (if y < 0 then '-' else '+') :: digitsOf 4 y.natAbs

def fractionText (nano : Nat) : List Char :=
  if nano = 0 then []
  else if nano % 1000000 = 0 then '.' :: digitsOf 3 (nano / 1000000)
  else if nano % 1000 = 0 then '.' :: digitsOf 6 (nano / 1000)
  else '.' :: digitsOf 9 nano

def toText (t : Timestamp) : String :=
  let (year, month, day) := Calendar.ofDayNumber t.day
  let (leap, nano) := if secondLength ≤ t.nano then (1, t.nano - secondLength) else (0, t.nano)
  String.ofList <|
    yearText year ++ '-' :: twoDigits month ++ '-' :: twoDigits day ++
      'T' :: twoDigits (t.second / 3600) ++ ':' :: twoDigits (t.second / 60 % 60) ++
      ':' :: twoDigits (t.second % 60 + leap) ++ fractionText nano ++ ['Z']

/-! ### Reading

What was read comes with the text that follows it.
-/

def number (width : Nat) (cs : List Char) : Option (Nat × List Char) :=
  let ds := (cs.take width).takeWhile fun c => (digit? c).isSome
  (digitNumber? ds).map fun n => (n, cs.drop ds.length)

def part (width : Nat) (cs : List Char) : Option (Nat × List Char) := number width (trimStart cs)

def partWithin (least most : Nat) (cs : List Char) : Option (Nat × List Char) :=
  (part 2 cs).filter fun r => least ≤ r.1 && r.1 ≤ most

def yearPart (cs : List Char) : Option (Int × List Char) :=
  match trimStart cs with
  | '-' :: rest => (number rest.length rest).map fun r => (-(r.1 : Int), r.2)
  | '+' :: rest => (number rest.length rest).map fun r => ((r.1 : Int), r.2)
  | rest => (number 4 rest).map fun r => ((r.1 : Int), r.2)

def skip (c : Char) (cs : List Char) : Option (List Char) :=
  match trimStart cs with
  | x :: rest => if x = c then some rest else none
  | [] => none

/-- Digits after a point, of which nine count. -/
def fraction (cs : List Char) : Option (Nat × List Char) :=
  match cs with
  | '.' :: rest => do
    let (n, tail) ← number 9 rest
    some (n * 10 ^ (9 - (rest.length - tail.length)),
      tail.dropWhile fun c => (digit? c).isSome)
  | _ => some (0, cs)

def isZeroOffset (cs : List Char) : Bool := cs.map Char.toUpper == ['U', 'T', 'C']

def digitPair (most : Nat) (cs : List Char) : Option (Nat × List Char) :=
  match cs with
  | a :: b :: rest => do
    let a ← digit? a
    let b ← digit? b
    if a ≤ most then some (10 * a + b, rest) else none
  | _ => none

def offset (cs : List Char) : Option (Int × List Char) :=
  if isZeroOffset (cs.take 3) then some (0, cs.drop 3)
  else
    match cs with
    | 'Z' :: rest | 'z' :: rest => some (0, rest)
    | sign :: rest => do
      let ahead : Int ←
        if sign = '+' then some 1 else if sign = '-' ∨ sign = '\u2212' then some (-1) else none
      let (hours, rest) ← digitPair 9 rest
      let (minutes, rest) ← digitPair 5 (rest.dropWhile fun c => c = ':' || isBlank c)
      if hours < 24 then some (ahead * (3600 * hours + 60 * minutes : Nat), rest) else none
    | [] => none

def ofLocal (day : Int) (second nano : Nat) (ahead : Int) : Timestamp :=
  let s := (second : Int) - ahead
  ⟨day + s / dayLength, (s % dayLength).toNat, nano⟩

def ofText? (s : String) : Option Timestamp := do
  let (year, cs) ← yearPart s.toList
  let (month, cs) ← partWithin 1 12 (← skip '-' cs)
  let (day, cs) ← partWithin 1 (Calendar.monthLength year month) (← skip '-' cs)
  let cs ← match cs with
    | c :: rest => if c = 'T' ∨ c = 't' ∨ c = ' ' then some rest else none
    | [] => none
  let (hour, cs) ← partWithin 0 23 cs
  let (minute, cs) ← partWithin 0 59 (← skip ':' cs)
  let (second, cs) ← partWithin 0 60 (← skip ':' cs)
  let (nano, cs) ← fraction cs
  let (ahead, cs) ← offset (trimStart cs)
  let inLeapSecond := second = 60
  let seconds := 3600 * hour + 60 * minute + (if inLeapSecond then 59 else second)
  let t := ofLocal (Calendar.dayNumber year month day) seconds
    (if inLeapSecond then nano + secondLength else nano) ahead
  if allBlank cs ∧ IsYear year ∧ IsYear t.year then some t else none

end Timestamp

end CurrencyWallet

import CurrencyWallet.Text.Numeral

/-!
Identifiers of exchanges: 128 bits, written as 32 hexadecimal digits in five groups. A new one
begins with the time of its making, so that identifiers sort by age.
-/
namespace CurrencyWallet

structure ExchangeId where
  bits : BitVec 128
  deriving DecidableEq

namespace ExchangeId

open Text

/-- Time in milliseconds, the version 7, the variant, and 74 bits of `filler` between and after
them. -/
def make (millis filler : Nat) : ExchangeId :=
  ⟨BitVec.ofNat 48 millis ++ 7#4 ++ BitVec.ofNat 12 (filler >>> 62) ++ 2#2 ++
    BitVec.ofNat 62 filler⟩

def makeMany (millis filler count : Nat) : List ExchangeId :=
  (List.range count).map fun k => make millis (filler + k)

def version (id : ExchangeId) : Nat := (id.bits.extractLsb' 76 4).toNat

def variant (id : ExchangeId) : Nat := (id.bits.extractLsb' 62 2).toNat

def groupLengths : List Nat := [8, 4, 4, 4, 12]

def digits (id : ExchangeId) : List Char :=
  (List.range 32).map fun k => hexDigit (id.bits.toNat / 16 ^ (31 - k) % 16)

def hyphenate : List Nat → List Char → List Char
  | [], _ => []
  | [n], cs => cs.take n
  | n :: ns, cs => cs.take n ++ '-' :: hyphenate ns (cs.drop n)

def toText (id : ExchangeId) : String := String.ofList (hyphenate groupLengths id.digits)

instance : ToString ExchangeId := ⟨toText⟩

def ofDigits? (cs : List Char) : Option ExchangeId := do
  let values ← cs.mapM hexDigit?
  if values.length = 32 then some ⟨BitVec.ofNat 128 (values.foldl (fun n d => 16 * n + d) 0)⟩
  else none

def dropHyphens : List Nat → List Char → Option (List Char)
  | [], _ => none
  | [n], cs => if cs.length = n then some cs else none
  | n :: ns, cs =>
    match cs.drop n with
    | '-' :: rest => (dropHyphens ns rest).map (cs.take n ++ ·)
    | _ => none

def ofHyphenated? (cs : List Char) : Option ExchangeId :=
  (dropHyphens groupLengths cs).bind ofDigits?

def unwrap (cs : List Char) : List Char :=
  if "urn:uuid:".toList.isPrefixOf (cs.map Char.toLower) then cs.drop 9
  else match cs with
    | '\x7b' :: rest => if rest.getLast? = some '\x7d' then rest.dropLast else cs
    | _ => cs

/-- Digits alone, or hyphenated, in braces or with the name of the number space. -/
def ofText? (s : String) : Option ExchangeId :=
  ofDigits? s.toList <|> ofHyphenated? (unwrap s.toList)

end ExchangeId

end CurrencyWallet

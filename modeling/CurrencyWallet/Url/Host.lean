import CurrencyWallet.Url.Query

/-!
Hosts of addresses. A host in brackets is an address of eight groups. Of the others, those of the
special schemes are names or addresses of four bytes; those of all other schemes are taken as they
are, except for a few characters.
-/
namespace CurrencyWallet.Url

open Text

inductive Fault where
  | noScheme
  | emptyHost
  | badDomain
  | badHostCharacter
  | badFourByteAddress
  | badEightGroupAddress
  | badPort
  deriving DecidableEq, Repr

def Fault.message : Fault → String
  | .noScheme => "relative URL without a base"
  | .emptyHost => "empty host"
  | .badDomain => "invalid international domain name"
  | .badHostCharacter => "invalid domain character"
  | .badFourByteAddress => "invalid IPv4 address"
  | .badEightGroupAddress => "invalid IPv6 address"
  | .badPort => "invalid port number"

/-! ### Eight groups -/

def isByte (cs : List Char) : Bool :=
  (digits? cs).any fun ds =>
    !ds.isEmpty && ofDigits 0 ds < 256 && (ds.length == 1 || ds.head? != some 0)

def isByteQuad (cs : List Char) : Bool :=
  let parts := splitAt '.' cs
  parts.length == 4 && parts.all isByte

def isGroup (cs : List Char) : Bool :=
  !cs.isEmpty && cs.length ≤ 4 && cs.all fun c => (hexDigit? c).isSome

/-- How many groups there are, if all are well formed. Four bytes can stand in the place of the last
two groups. -/
def groupCount? : List (List Char) → Option Nat
  | [] => some 0
  | [last] => if isGroup last then some 1 else if isByteQuad last then some 2 else none
  | group :: rest => if isGroup group then (groupCount? rest).map (· + 1) else none

def groups (cs : List Char) : List (List Char) := if cs.isEmpty then [] else splitAt ':' cs

def splitGap : List Char → Option (List Char × List Char)
  | ':' :: ':' :: rest => some ([], rest)
  | c :: rest => (splitGap rest).map fun (left, right) => (c :: left, right)
  | [] => none

def isEightGroups (cs : List Char) : Bool :=
  match splitGap cs with
  | none => groupCount? (groups cs) == some 8
  | some (left, right) =>
    let plain := (groups left).all isGroup
    plain && (groupCount? (groups right)).any fun n => (groups left).length + n < 8

def bracketFault? (cs : List Char) : Option Fault :=
  if cs.getLast? = some ']' ∧ isEightGroups (cs.drop 1).dropLast then none
  else some .badEightGroupAddress

/-! ### Four bytes -/

def octalDigit? (c : Char) : Option Nat := (digit? c).filter (· < 8)

/-- Numbers in base 16 begin with `0x` and those in base 8 with another zero. -/
def numberText (cs : List Char) : Nat × List Char :=
  match cs with
  | '0' :: 'x' :: rest | '0' :: 'X' :: rest => (16, rest)
  | '0' :: c :: rest => (8, c :: rest)
  | _ => (10, cs)

def number? (cs : List Char) : Option Nat :=
  if cs.isEmpty then none
  else
    let (base, ds) := numberText cs
    let digit := if base = 16 then hexDigit? else if base = 8 then octalDigit? else digit?
    (ds.mapM digit).map fun ds => ds.foldl (fun n d => base * n + d) 0

def nameParts (cs : List Char) : List (List Char) :=
  let parts := splitAt '.' cs
  if parts.getLast? = some [] then parts.dropLast else parts

def endsInNumber (cs : List Char) : Bool :=
  (nameParts cs).getLast?.any fun last =>
    (!last.isEmpty && last.all fun c => (digit? c).isSome) || (number? last).isSome

/-- At most four numbers, of which all but the last are bytes and the last fills the others. -/
def isFourByteAddress (cs : List Char) : Bool :=
  let parts := nameParts cs
  match parts.mapM number? with
  | none => false
  | some numbers =>
    numbers.length ≤ 4 && numbers.dropLast.all (· < 256) &&
      numbers.getLast?.any (· < 256 ^ (5 - numbers.length))

/-! ### Names -/

def isHostDenied (c : Char) : Bool :=
  c ∈ ['\x00', '\t', '\n', '\r', ' ', '#', '/', ':', '<', '>', '?', '@', '[', '\\', ']', '^', '|']

def isDomainDenied (c : Char) : Bool :=
  c.toNat ≤ 0x20 || c.toNat = 0x7f ||
    c ∈ ['%', '#', '/', ':', '<', '>', '?', '@', '[', '\\', ']', '^', '|', '\ufffd']

def domainFault? (cs : List Char) : Option Fault :=
  let name := Utf8.decodeLossy (percentDecode cs)
  if name.any isDomainDenied then some .badDomain
  else if endsInNumber name && !isFourByteAddress name then some .badFourByteAddress
  else none

def hostFault? (special : Bool) (cs : List Char) : Option Fault :=
  if cs.head? = some '[' then bracketFault? cs
  else if special then domainFault? cs
  else if cs.any isHostDenied then some .badHostCharacter
  else none

end CurrencyWallet.Url

import CurrencyWallet.Json.Basic
import CurrencyWallet.Text.Split

/-!
Reading JSON text. Every reader takes the characters before it and gives what it has read with the
characters after it. Values can be nested, and the number of characters bounds how deeply.
-/
namespace CurrencyWallet.Json.Reader

open Text

def isSpace (c : Char) : Bool := c = ' ' || c = '\n' || c = '\r' || c = '\t'

def skipSpaces (cs : List Char) : List Char := cs.dropWhile isSpace

/-! ### Numbers -/

def spanDigits (cs : List Char) : List Nat × List Char :=
  let ds := cs.takeWhile fun c => (digit? c).isSome
  ((digits? ds).getD [], cs.drop ds.length)

def someDigits (cs : List Char) : Option (List Nat × List Char) :=
  let (ds, rest) := spanDigits cs
  if ds.isEmpty then none else some (ds, rest)

def wholePart (cs : List Char) : Option (List Nat × List Char) := do
  let (ds, rest) ← someDigits cs
  if ds.head? = some 0 ∧ 1 < ds.length then none else some (ds, rest)

def fractionPart (cs : List Char) : Option (List Nat × List Char) :=
  match cs with
  | '.' :: rest => someDigits rest
  | _ => some ([], cs)

def powerPart (cs : List Char) : Option (Option Int × List Char) :=
  match cs with
  | 'e' :: rest | 'E' :: rest => do
    let (sign, body) : Int × List Char := match rest with
      | '-' :: more => (-1, more)
      | '+' :: more => (1, more)
      | _ => (1, rest)
    let (ds, rest) ← someDigits body
    some (some (sign * ofDigits 0 ds), rest)
  | _ => some (none, cs)

def significand (acc : Nat) : List Nat → Nat × List Nat
  | [] => (acc, [])
  | d :: ds => if 10 * acc + d < word64 then significand (10 * acc + d) ds else (acc, d :: ds)

/-- The binary number that digits before and after a point and a power of ten stand for. Digits
beyond 64 bits do not count, but those before the point keep their places. -/
def binaryOfParts (whole fraction : List Nat) (power : Int) : Option Binary64 :=
  let (acc, dropped) := significand 0 whole
  let (acc, unread) := significand acc fraction
  let read := fraction.length - unread.length
  Binary64.ofScientific acc (power + dropped.length - read)

def ofWord? (negative : Bool) (n : Nat) : Option Int :=
  if negative then if 0 < n ∧ n ≤ 2 ^ 63 then some (-(n : Int)) else none
  else if n < word64 then some n else none

def number (cs : List Char) : Option (Json × List Char) := do
  let (negative, cs) := match cs with
    | '-' :: rest => (true, rest)
    | _ => (false, cs)
  let (wholeDigits, cs) ← wholePart cs
  let (fraction, cs) ← fractionPart cs
  let (power, cs) ← powerPart cs
  let plain := fraction.isEmpty && power.isNone
  match if plain then ofWord? negative (ofDigits 0 wholeDigits) else none with
  | some n => some (.whole n, cs)
  | none =>
    let magnitude ← binaryOfParts wholeDigits fraction (power.getD 0)
    some (.binary negative magnitude, cs)

/-! ### Texts -/

def codeUnit? : List Char → Option (Nat × List Char)
  | a :: b :: c :: d :: rest => do
    some (4096 * (← hexDigit? a) + 256 * (← hexDigit? b) + 16 * (← hexDigit? c) + (← hexDigit? d),
      rest)
  | _ => none

def charOfCode? (n : Nat) : Option Char :=
  if h : n.isValidChar then some (Char.ofNatAux n h) else none

/-- The character of one code unit, or of two if the first is half of a pair. -/
def escapedCode? (cs : List Char) : Option (Char × List Char) := do
  let (first, rest) ← codeUnit? cs
  if 0xd800 ≤ first ∧ first < 0xdc00 then
    match rest with
    | '\\' :: 'u' :: more =>
      let (second, rest) ← codeUnit? more
      if 0xdc00 ≤ second ∧ second < 0xe000 then
        (charOfCode? (0x10000 + 1024 * (first - 0xd800) + (second - 0xdc00))).map (·, rest)
      else none
    | _ => none
  else (charOfCode? first).map (·, rest)

def escaped? : List Char → Option (Char × List Char)
  | '"' :: rest => some ('"', rest)
  | '\\' :: rest => some ('\\', rest)
  | '/' :: rest => some ('/', rest)
  | 'b' :: rest => some ('\x08', rest)
  | 'f' :: rest => some ('\x0c', rest)
  | 'n' :: rest => some ('\n', rest)
  | 'r' :: rest => some ('\r', rest)
  | 't' :: rest => some ('\t', rest)
  | 'u' :: rest => escapedCode? rest
  | _ => none

/-- The rest of a text up to its quote, reversed in front of `read`. -/
def stringBody (bound : Nat) (read : List Char) (cs : List Char) :
    Option (List Char × List Char) :=
  match bound, cs with
  | _, '"' :: rest => some (read.reverse, rest)
  | bound + 1, '\\' :: rest => do
    let (c, rest) ← escaped? rest
    stringBody bound (c :: read) rest
  | bound + 1, c :: rest => if c.toNat < 0x20 then none else stringBody bound (c :: read) rest
  | _, _ => none

def text (cs : List Char) : Option (String × List Char) :=
  (stringBody cs.length [] cs).map fun r => (String.ofList r.1, r.2)

/-! ### Values -/

def afterWord? (w : String) (cs : List Char) : Option (List Char) :=
  if w.toList.isPrefixOf cs then some (cs.drop w.length) else none

def memberName (cs : List Char) : Option (String × List Char) := do
  match skipSpaces cs with
  | '"' :: rest =>
    let (name, rest) ← text rest
    match skipSpaces rest with
    | ':' :: rest => some (name, rest)
    | _ => none
  | _ => none

mutual

def value : Nat → List Char → Option (Json × List Char)
  | 0, _ => none
  | depth + 1, cs =>
    match skipSpaces cs with
    | '"' :: rest => (text rest).map fun r => (.string r.1, r.2)
    | '[' :: rest =>
      match skipSpaces rest with
      | ']' :: rest => some (.array [], rest)
      | _ => (items depth [] rest).map fun r => (.array r.1, r.2)
    | '\x7b' :: rest =>
      match skipSpaces rest with
      | '\x7d' :: rest => some (.object [], rest)
      | _ => (members depth [] rest).map fun r => (ofMembers r.1, r.2)
    | 't' :: rest => (afterWord? "rue" rest).map (.bool true, ·)
    | 'f' :: rest => (afterWord? "alse" rest).map (.bool false, ·)
    | 'n' :: rest => (afterWord? "ull" rest).map (.null, ·)
    | rest => number rest

def items : Nat → List Json → List Char → Option (List Json × List Char)
  | 0, _, _ => none
  | depth + 1, read, cs =>
    match value depth cs with
    | none => none
    | some (item, rest) =>
      match skipSpaces rest with
      | ']' :: rest => some ((item :: read).reverse, rest)
      | ',' :: rest => items depth (item :: read) rest
      | _ => none

def members : Nat → List (String × Json) → List Char →
    Option (List (String × Json) × List Char)
  | 0, _, _ => none
  | depth + 1, read, cs =>
    match memberName cs with
    | none => none
    | some (name, rest) =>
      match value depth rest with
      | none => none
      | some (item, rest) =>
        match skipSpaces rest with
        | '\x7d' :: rest => some (((name, item) :: read).reverse, rest)
        | ',' :: rest => members depth ((name, item) :: read) rest
        | _ => none

end

end Reader

def ofText? (s : String) : Option Json := do
  let cs := s.toList
  let (j, rest) ← Reader.value (cs.length + 1) cs
  if (Reader.skipSpaces rest).isEmpty then some j else none

end CurrencyWallet.Json

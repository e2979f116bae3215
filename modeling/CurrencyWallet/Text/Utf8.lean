import CurrencyWallet.Text.Numeral

/-!
Reading UTF-8. Bytes that are no character are read up to the first byte that cannot follow: such
a piece is `broken`, or `cut` if the bytes end before it is complete.
-/
namespace CurrencyWallet.Text.Utf8

/-- How many bytes follow a first byte, and from where to where the first of them ranges. -/
def follow? (b : Nat) : Option (Nat × Nat × Nat) :=
  if 0xc2 ≤ b ∧ b ≤ 0xdf then some (1, 0x80, 0xbf)
  else if b = 0xe0 then some (2, 0xa0, 0xbf)
  else if b = 0xed then some (2, 0x80, 0x9f)
  else if 0xe1 ≤ b ∧ b ≤ 0xef then some (2, 0x80, 0xbf)
  else if b = 0xf0 then some (3, 0x90, 0xbf)
  else if 0xf1 ≤ b ∧ b ≤ 0xf3 then some (3, 0x80, 0xbf)
  else if b = 0xf4 then some (3, 0x80, 0x8f)
  else none

def followers : Nat → Nat → Nat → List UInt8 → Nat
  | count + 1, least, most, b :: rest =>
    if least ≤ b.toNat ∧ b.toNat ≤ most then 1 + followers count 0x80 0xbf rest else 0
  | _, _, _, _ => 0

inductive Piece where
  | char (c : Char)
  | broken
  | cut
  deriving DecidableEq

def codePoint (first : Nat) (rest : List UInt8) : Nat :=
  let lead := first % 2 ^ (6 - rest.length)
  rest.foldl (fun n b => 64 * n + b.toNat % 64) lead

def piece (b : UInt8) (rest : List UInt8) : Piece × Nat :=
  if b.toNat < 0x80 then (.char (Char.ofNat b.toNat), 0)
  else match follow? b.toNat with
    | none => (.broken, 0)
    | some (count, least, most) =>
      let found := followers count least most rest
      if found = count then (.char (Char.ofNat (codePoint b.toNat (rest.take count))), count)
      else if found = rest.length then (.cut, found)
      else (.broken, found)

def pieces : List UInt8 → List (Piece × Nat)
  | [] => []
  | b :: rest =>
    let (p, more) := piece b rest
    (p, more + 1) :: pieces (rest.drop more)
  termination_by bytes => bytes.length
  decreasing_by simp only [List.length_drop, List.length_cons]; omega

/-- The characters, with a replacement character for every piece that is none. -/
def decodeLossy (bytes : List UInt8) : List Char :=
  (pieces bytes).map fun (p, _) => match p with
    | .char c => c
    | _ => '\ufffd'

def encode (cs : List Char) : List UInt8 := cs.flatMap String.utf8EncodeChar

def firstFault? (start : Nat) : List (Piece × Nat) → Option (Nat × Option Nat)
  | [] => none
  | (.char _, size) :: rest => firstFault? (start + size) rest
  | (.broken, size) :: _ => some (start, some size)
  | (.cut, _) :: _ => some (start, none)

def fault? (bytes : List UInt8) : Option String :=
  (firstFault? 0 (pieces bytes)).map fun
    | (start, some size) => s!"invalid utf-8 sequence of {size} bytes from index {start}"
    | (start, none) => s!"incomplete utf-8 byte sequence from index {start}"

end CurrencyWallet.Text.Utf8

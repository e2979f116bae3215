/-!
Digits, and whole numbers in ASCII digits: an optional sign and at least one digit, within a given
range. Leading zeros are allowed.
-/
namespace CurrencyWallet

/-- Powers of numbers are those of the language, also where another notion of a power is known. -/
@[default_instance 11000]
instance (priority := 11000) instPowNumber {α : Type} [NatPow α] : Pow α Nat := instPowNat

namespace Text

def digit? (c : Char) : Option Nat :=
  if '0' ≤ c ∧ c ≤ '9' then some (c.toNat - '0'.toNat) else none

def hexDigit? (c : Char) : Option Nat :=
  if '0' ≤ c ∧ c ≤ '9' then some (c.toNat - '0'.toNat)
  else if 'a' ≤ c ∧ c ≤ 'f' then some (c.toNat - 'a'.toNat + 10)
  else if 'A' ≤ c ∧ c ≤ 'F' then some (c.toNat - 'A'.toNat + 10)
  else none

def hexDigit (n : Nat) : Char := Char.ofNat (if n < 10 then '0'.toNat + n else 'a'.toNat + n - 10)

def digits? (cs : List Char) : Option (List Nat) := cs.mapM digit?

def ofDigits (acc : Nat) (ds : List Nat) : Nat := ds.foldl (fun n d => 10 * n + d) acc

def digitNumber? : List Char → Option Nat
  | [] => none
  | cs => (digits? cs).map (ofDigits 0)

def natBelow? (bound : Nat) (cs : List Char) : Option Nat :=
  let body := match cs with
    | '+' :: rest => rest
    | _ => cs
  (digitNumber? body).filter (· < bound)

def intWithin? (bound : Nat) (cs : List Char) : Option Int :=
  match cs with
  | '-' :: rest => (digitNumber? rest).bind fun n => if n ≤ bound then some (-(n : Int)) else none
  | _ => (natBelow? bound cs).map Int.ofNat

def word64 : Nat := 2 ^ 64

def natDigits (n : Nat) : List Char := Nat.toDigits 10 n

end Text

end CurrencyWallet

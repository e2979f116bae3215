import CurrencyWallet.Binary64
import CurrencyWallet.Table

/-!
Values of the JSON data format. Whole numbers of at most 64 bits are exact and all other numbers
are binary, so `1` and `1.0` are two values. The members of an object are in the order of their
names.
-/
namespace CurrencyWallet

inductive Json where
  | null
  | bool (b : Bool)
  | whole (n : Int)
  | binary (negative : Bool) (magnitude : Binary64)
  | string (s : String)
  | array (items : List Json)
  | object (members : List (String × Json))

namespace Json

instance : Inhabited Json := ⟨null⟩

/-- Puts members in the order of their names; of two with one name the later one counts. -/
def ofMembers (members : List (String × Json)) : Json :=
  object (Table.ofList members).toList

def ofNat (n : Nat) : Json := whole n

def ofOption (s : Option String) : Json := s.elim null string

def ofTable {κ α : Type} [KeyOrder κ] (name : κ → String) (value : α → Json) (t : Table κ α) :
    Json :=
  ofMembers (t.toList.map fun e => (name e.1, value e.2))

/-! ### Looking inside -/

def member? (j : Json) (name : String) : Option Json :=
  match j with
  | object members => members.lookup name
  | _ => none

def string? : Json → Option String
  | string s => some s
  | _ => none

def bool? : Json → Option Bool
  | bool b => some b
  | _ => none

def items? : Json → Option (List Json)
  | array items => some items
  | _ => none

def members? : Json → Option (List (String × Json))
  | object members => some members
  | _ => none

def intWithin? (least bound : Int) : Json → Option Int
  | whole n => if least ≤ n ∧ n < bound then some n else none
  | _ => none

def int64? : Json → Option Int := intWithin? (-2 ^ 63) (2 ^ 63)

def nat64? (j : Json) : Option Nat := (j.intWithin? 0 (2 ^ 64)).map Int.toNat

end Json

end CurrencyWallet

import CurrencyWallet.Wallet.Request

/-!
Random plans: for each user a number of deposits, withdrawals and exchanges of amounts from 0.01
to 499.99. A plan is determined by its seed.
-/
namespace CurrencyWallet

structure Dice where
  state : Nat
  deriving DecidableEq

namespace Dice

/-- One step of a linear congruence modulo two to the 64th. -/
def scramble (state : Nat) : Nat :=
  (state * 6364136223846793005 + 1442695040888963407) % 2 ^ 64

def ofSeed (seed : Nat) : Dice := ⟨scramble (seed % 2 ^ 64)⟩

def roll (d : Dice) (bound : Nat) : Nat × Dice :=
  (d.state / 2 ^ 33 % bound, ⟨scramble d.state⟩)

end Dice

structure SimulationConfig where
  users : Nat
  operationsPerUser : Nat
  initialBalance : Decimal
  seed : Option Nat
  deriving DecidableEq

def SimulationConfig.usual : SimulationConfig :=
  ⟨4, 50, .small 1000 0, none⟩

/-- The simulated users, numbered from 1. So many that the numbers do not suffice are nobody. -/
def SimulationConfig.userIds (c : SimulationConfig) : List UserId :=
  if c.users < 2 ^ 63 then (List.range c.users).map fun k => ⟨(k + 1 : Nat)⟩ else []

/-- From so many operations or users on there is no room for a plan. -/
def planLimit : Nat := 2 ^ 57

def SimulationConfig.hasRoom (c : SimulationConfig) : Bool :=
  c.users < planLimit && (c.users == 0 || c.operationsPerUser < planLimit)

inductive Operation where
  | deposit (currency : Currency) (amount : Decimal)
  | withdraw (currency : Currency) (amount : Decimal)
  | exchange (source target : Currency) (amount : Decimal)
  deriving DecidableEq

namespace Operation

def request (user : UserId) : Operation → WalletRequest
  | deposit c a => .move .deposit user c a
  | withdraw c a => .move .withdraw user c a
  | exchange s t a => .exchange ⟨user, s, t, a⟩

def cents (n : Nat) : Decimal :=
  ⟨((n % 49999 + 1 : Nat) : Int), 2,
    by rw [Int.natAbs_natCast]; unfold coefficientLimit; omega, by decide⟩

/-- Two of ten operations are deposits, two withdrawals, and the others exchanges between two
entries of the list. -/
def random (currencies : List Currency) (d : Dice) : Operation × Dice :=
  let (source, d) := d.roll currencies.length
  let (skip, d) := d.roll (currencies.length - 1)
  let (amount, d) := d.roll 49999
  let (kind, d) := d.roll 10
  let currency (k : Nat) : Currency := (currencies[k % currencies.length]?).getD .usd
  let amount := cents amount
  let operation :=
    if kind < 2 then deposit (currency source) amount
    else if kind < 4 then withdraw (currency source) amount
    else exchange (currency source) (currency (source + 1 + skip)) amount
  (operation, d)

def randomMany (currencies : List Currency) : Nat → Dice → List Operation × Dice
  | 0, d => ([], d)
  | count + 1, d =>
    let (operation, d) := random currencies d
    let (operations, d) := randomMany currencies count d
    (operation :: operations, d)

end Operation

abbrev Plan := List (UserId × Operation)

def Plan.random (currencies : List Currency) (perUser : Nat) : List UserId → Dice → Plan × Dice
  | [], d => ([], d)
  | user :: users, d =>
    let (operations, d) := Operation.randomMany currencies perUser d
    let (plan, d) := Plan.random currencies perUser users d
    (operations.map (user, ·) ++ plan, d)

def Dice.schedule (bound : Nat) : Nat → Dice → List Nat
  | 0, _ => []
  | count + 1, d =>
    let (index, d) := d.roll bound
    index :: d.schedule bound count

end CurrencyWallet

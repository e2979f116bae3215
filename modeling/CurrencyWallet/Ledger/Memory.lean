import CurrencyWallet.Ledger.Delta
import CurrencyWallet.Ledger.Settlement

/-!
A ledger in memory. A user's accounts are opened together, one in each supported currency, and
after that only their balances change. A call names what it wants; `Ledger.perform` does it at
once. The parts of a call (what it must lock, what it reads and would write, the writing) are
definitions of their own, so that they can also be taken one at a time.
-/
namespace CurrencyWallet

/-- The accounts of one user: the rows that can be locked, and the balances last written. -/
structure Accounts where
  rows : List Currency
  balances : Balances
  deriving DecidableEq

def Accounts.opened (currencies : List Currency) : Accounts :=
  ⟨currencies, Balances.zeros currencies⟩

structure Ledger where
  currencies : List Currency
  users : Table UserId Accounts
  deriving DecidableEq

abbrev Ledger.Reply := Attempt LedgerError Balances

namespace Ledger

def new (currencies : List Currency) : Ledger := ⟨ascending currencies, ∅⟩

inductive Call where
  | openAccounts (user : UserId)
  | balances (user : UserId)
  | apply (user : UserId) (currency : Currency) (delta : Decimal)
  | settle (settlement : Settlement)
  deriving DecidableEq

def Call.user : Call → UserId
  | .openAccounts u | .balances u | .apply u _ _ => u
  | .settle s => s.user

def openAccounts (l : Ledger) (user : UserId) : Ledger × Balances :=
  match l.users.get? user with
  | some accounts => (l, accounts.balances)
  | none =>
    let accounts := Accounts.opened l.currencies
    ({ l with users := l.users.insert user accounts }, accounts.balances)

/-- All balances of `user`: none before the accounts are open. -/
def balances (l : Ledger) (user : UserId) : Balances :=
  ((l.users.get? user).map (·.balances)).getD ∅

def balance? (l : Ledger) (user : UserId) (currency : Currency) : Option Decimal :=
  (l.balances user).get? currency

def Call.missing (call : Call) (currency : Currency) : LedgerError :=
  match call with
  | .settle s => s.missing currency
  | _ => .accountNotFound currency

/-- The rows that `call` writes, in the order in which it locks them. -/
def Call.rows : Call → List Currency
  | .apply _ c _ => [c]
  | .settle s => s.lockOrder.map (·.currency)
  | _ => []

def rowsOf (l : Ledger) (user : UserId) : List Currency :=
  ((l.users.get? user).map (·.rows)).getD []

/-- The checks before any row is locked: a change of one account finds its currency and its row, a
settlement is well formed and its user has accounts. -/
def screen (l : Ledger) (call : Call) : Except LedgerError Unit :=
  match call with
  | .apply u c _ =>
    if c ∈ l.currencies then
      if c ∈ l.rowsOf u then .ok () else .error (.accountNotFound c)
    else .error (.currencyNotFound c)
  | .settle s => do
    s.validate
    if l.users.contains s.user then .ok () else .error (s.missing s.source.currency)
  | _ => .ok ()

abbrev Revision := List (Currency × Decimal)

def verifyLeg (s : Settlement) (b : Balances) (leg : SettlementLeg) : Except LedgerError Unit :=
  match b.get? leg.currency with
  | none => .error (s.missing leg.currency)
  | some found => leg.verify found

def Call.revision (call : Call) (b : Balances) : Attempt LedgerError Revision :=
  match call with
  | .apply _ c delta =>
    match b.get? c with
    | none => .refused (.accountNotFound c)
    | some current => applyDelta c current delta >>= fun updated => .ok [(c, updated)]
  | .settle s =>
    match s.lockOrder.forM (verifyLeg s b) with
    | .error e => .refused e
    | .ok () =>
      .ok [(s.source.currency, s.source.updated), (s.target.currency, s.target.updated)]
  | _ => .ok []

def Revision.writeTo (revision : Revision) (b : Balances) : Balances :=
  revision.foldl (fun b e => b.insert e.1 e.2) b

def commit (l : Ledger) (user : UserId) (revision : Revision) : Ledger :=
  match l.users.get? user with
  | none => l
  | some accounts =>
    { l with
      users := l.users.insert user
        { accounts with balances := revision.writeTo accounts.balances } }

def change (l : Ledger) (call : Call) : Ledger × Reply :=
  match l.screen call with
  | .error e => (l, .refused e)
  | .ok () =>
    match call.rows.find? (· ∉ l.rowsOf call.user) with
    | some c => (l, .refused (call.missing c))
    | none =>
      match call.revision (l.balances call.user) with
      | .refused e => (l, .refused e)
      | .overflowed o => (l, .overflowed o)
      | .ok revision =>
        let l' := l.commit call.user revision
        (l', .ok (l'.balances call.user))

def perform (l : Ledger) (call : Call) : Ledger × Reply :=
  match call with
  | .openAccounts u => let (l', b) := l.openAccounts u; (l', .ok b)
  | .balances u => (l, .ok (l.balances u))
  | _ => l.change call

def run (l : Ledger) : List Call → Ledger
  | [] => l
  | call :: calls => ((l.perform call).1).run calls

def negativeCount (l : Ledger) (users : List UserId) : Nat :=
  users.foldr (fun u n => (l.balances u).negativeCount + n) 0

end Ledger

end CurrencyWallet

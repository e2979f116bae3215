import CurrencyWallet.Ledger.Memory

/-!
The same calls taken one step at a time by workers that run side by side. A worker locks the rows
of its call one after another, in ascending order of their codes; holding them it reads and
computes, writes, and at last releases. A step is not possible while another worker holds the row
that is wanted. Only the rows are locked: other rows of the same user change meanwhile. A `Crew` is
a ledger with its workers, and a run of it is any sequence of steps.
-/
namespace CurrencyWallet.Ledger

structure Lock where
  user : UserId
  currency : Currency
  holder : Nat
  deriving DecidableEq

structure Shared where
  ledger : Ledger
  locks : List Lock
  deriving DecidableEq

def Shared.holder? (s : Shared) (user : UserId) (currency : Currency) : Option Nat :=
  (s.locks.find? fun lock => lock.user = user ∧ lock.currency = currency).map (·.holder)

def Shared.acquire (s : Shared) (user : UserId) (currency : Currency) (worker : Nat) : Shared :=
  { s with locks := ⟨user, currency, worker⟩ :: s.locks }

def Shared.release (s : Shared) (worker : Nat) : Shared :=
  { s with locks := s.locks.filter (·.holder ≠ worker) }

inductive Phase where
  | ready
  | locking (wanted : List Currency)
  | holding
  | computed (revision : Revision)
  | releasing (reply : Reply)
  | finished (reply : Reply)

def Phase.reply? : Phase → Option Reply
  | .finished reply => some reply
  | _ => none

/-- Whether reading and writing are one step. A change of one account reads first, and writes in a
step of its own; a settlement compares and writes at once. -/
def Call.writesAtOnce : Call → Bool
  | .settle _ => true
  | _ => false

def Shared.write (s : Shared) (call : Call) (revision : Revision) : Shared × Phase :=
  let ledger := s.ledger.commit call.user revision
  ({ s with ledger }, .releasing (.ok (ledger.balances call.user)))

def Shared.step (worker : Nat) (call : Call) (s : Shared) : Phase → Option (Shared × Phase)
  | .ready =>
    match call with
    | .openAccounts u =>
      let (ledger, b) := s.ledger.openAccounts u
      some ({ s with ledger }, .finished (.ok b))
    | .balances u => some (s, .finished (.ok (s.ledger.balances u)))
    | _ =>
      match s.ledger.screen call with
      | .error e => some (s, .finished (.refused e))
      | .ok () => some (s, .locking call.rows)
  | .locking [] => some (s, .holding)
  | .locking (c :: wanted) =>
    if c ∈ s.ledger.rowsOf call.user then
      match s.holder? call.user c with
      | some _ => none
      | none =>
        some (s.acquire call.user c worker, if wanted.isEmpty then .holding else .locking wanted)
    else some (s, .releasing (.refused (call.missing c)))
  | .holding =>
    match call.revision (s.ledger.balances call.user) with
    | .refused e => some (s, .releasing (.refused e))
    | .overflowed o => some (s, .releasing (.overflowed o))
    | .ok revision =>
      if call.writesAtOnce then some (s.write call revision) else some (s, .computed revision)
  | .computed revision => some (s.write call revision)
  | .releasing reply => some (s.release worker, .finished reply)
  | .finished _ => none

structure Worker where
  call : Call
  phase : Phase

/-- Workers side by side over one ledger. A worker is known by its place in the list. -/
structure Crew where
  shared : Shared
  workers : List Worker

namespace Crew

def start (l : Ledger) (calls : List Call) : Crew :=
  ⟨⟨l, []⟩, calls.map fun call => ⟨call, .ready⟩⟩

def step (s : Crew) (i : Nat) : Crew :=
  match s.workers[i]? with
  | none => s
  | some worker =>
    match s.shared.step i worker.call worker.phase with
    | none => s
    | some (shared, phase) => ⟨shared, s.workers.set i { worker with phase }⟩

def run (s : Crew) (schedule : List Nat) : Crew := schedule.foldl step s

def phase? (s : Crew) (i : Nat) : Option Phase := (s.workers[i]?).map (·.phase)

def reply? (s : Crew) (i : Nat) : Option Reply := (s.phase? i).bind Phase.reply?

end Crew

end CurrencyWallet.Ledger

import CurrencyWallet.CommandLine.Arguments
import CurrencyWallet.Json.Record
import CurrencyWallet.Ledger.DatabaseUrl
import CurrencyWallet.Simulation.Report
import CurrencyWallet.Wallet.Config

/-!
What a command line comes to: something to print, something to complain about, and an exit code.
The settings are read and checked first; then the ledger is opened, and only then does the command
begin. A simulation has a ledger of its own.
-/
namespace CurrencyWallet.CommandLine

structure Result where
  exitCode : Nat
  printed : Option Json
  /-- What is said apart from what is printed. -/
  complaint : Option String

/-- What a run takes from outside: numbers for identifiers and for random plans, and the
milliseconds that a simulation has taken. -/
structure Surroundings where
  millis : Nat
  entropy : Nat
  elapsed : Nat

namespace Result

def ofValue (j : Json) : Result := ⟨0, some j, none⟩

def complaintOf (message : String) : String := "Error: " ++ message

def complain (message : String) : Result := ⟨1, none, some (complaintOf message)⟩

def ofExchangeError (e : ExchangeError) : Result :=
  ⟨1,
    some (.ofMembers
      [("status", .ofNat e.status), ("code", .string e.code), ("message", .string e.message)]),
    some (complaintOf e.message)⟩

def brokenOff (message : String) : Result := ⟨101, none, some message⟩

def ofOverflow (o : Overflow) : Result := brokenOff o.message

end Result

def replyJson : WalletReply → Json
  | .balances b => encode b
  | .outcome o => encode o

def ofWalletResult : WalletResult → Result
  | .ok reply => .ofValue (replyJson reply)
  | .refused e => .ofExchangeError e
  | .overflowed o => .ofOverflow o

def reportJson (r : SimulationReport) (elapsed : Nat) : Json := .ofMembers
  [("operations", .ofNat r.operations), ("succeeded", .ofNat r.succeeded),
   ("rejected", .ofNat r.rejected), ("negative_balances", .ofNat r.negativeBalances),
   ("elapsed_ms", .ofNat elapsed), ("metrics", r.metrics.toJson)]

def ofReport (r : SimulationReport) (elapsed : Nat) : Result :=
  let printed := some (reportJson r elapsed)
  if 0 < r.negativeBalances then
    ⟨1, printed, some (Result.complaintOf s!"{r.negativeBalances} balances went negative")⟩
  else ⟨0, printed, none⟩

def simulate (c : WalletConfig) (config : SimulationConfig) (from_ : Surroundings) : Result :=
  let simulation : Simulation := ⟨config, c.currencies⟩
  match simulation.fund (Wallet.ofConfig c (.new c.currencies)) with
  | (_, .refused e) => .complain e.message
  | (_, .overflowed o) => .ofOverflow o
  | (w, .ok ()) =>
    match simulation.run w (.ofSeed (config.seed.getD from_.entropy)) with
    | .error .noRoom => .brokenOff (Simulation.Failure.message .noRoom)
    | .error e => .complain e.message
    | .ok (_, report) => ofReport report from_.elapsed

def perform (w : Wallet) (from_ : Surroundings) : Command → Result
  | .request r =>
    ofWalletResult (w.perform from_.millis (.make from_.millis from_.entropy) r).2
  | .rates => .ofValue w.rates.toJson
  | .simulate _ => .complain "simulate does not use the configured store"

def openLedger (c : WalletConfig) : Except StorageFault Ledger :=
  match c.databaseUrl with
  | some url => .error (DatabaseUrl.connect url)
  | none => .ok (.new c.currencies)

/-- Where a simulation finds no rates it uses the reference rates. -/
def withRates (c : WalletConfig) : Command → WalletConfig
  | .simulate _ => if c.rates.isEmpty then { c with rates := WalletConfig.referenceRates } else c
  | _ => c

def runCommand (c : WalletConfig) (command : Command) (from_ : Surroundings) : Result :=
  let c := withRates c command
  match c.validate with
  | .error e => .complain ("Configuration error: " ++ e.message)
  | .ok () =>
    match command with
    | .simulate config => simulate c config from_
    | _ =>
      match openLedger c with
      | .error fault => .complain (LedgerError.message (.storage fault))
      | .ok ledger => perform (Wallet.ofConfig c ledger) from_ command

def run (env : Environment) (command : Command) (from_ : Surroundings) : Result :=
  match WalletConfig.ofEnvironment env with
  | .error e => .complain e.message
  | .ok c => runCommand c command from_

def usage : String :=
  "Usage: exchanger <COMMAND>\n\n" ++
  "Commands:\n" ++
  "  balance        Show all balances of a user\n" ++
  "  open-accounts  Open an account in every supported currency\n" ++
  "  deposit        Credit an account\n" ++
  "  withdraw       Debit an account\n" ++
  "  exchange       Exchange between two of a user's currencies\n" ++
  "  rates          List known exchange rates\n" ++
  "  simulate       Run concurrent random operations on an in-memory store\n" ++
  "  help           Print this message\n"

end CurrencyWallet.CommandLine

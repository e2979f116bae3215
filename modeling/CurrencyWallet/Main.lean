import CurrencyWallet.CommandLine.Program
import CurrencyWallet.Json.Writer

/-!
The command line of the wallet.
-/
namespace CurrencyWallet.CommandLine

def variableNames : List String :=
  ["DATABASE_URL", "DATABASE_MAX_CONNECTIONS", "RATE_CACHE_TTL_MS", "QUOTE_TIMEOUT_MS",
   "EXCHANGE_TIMEOUT_MS", "TRANSACTION_TIMEOUT_MS", "SUPPORTED_CURRENCIES", "EXCHANGE_RATES",
   "LOG_LEVEL"]

def readEnvironment : IO Environment := do
  let entries ← variableNames.filterMapM fun name => do
    return (← IO.getEnv name).map (name, ·)
  return Table.ofList entries

/-- A command is run to be timed, and run again to report how long it took. -/
def runTimed (env : Environment) (command : Command) : IO Result := do
  let began ← IO.monoMsNow
  let from_ : Surroundings :=
    { millis := began, entropy := ← IO.rand 0 (2 ^ 64 - 1), elapsed := 0 }
  let timed ← IO.lazyPure fun _ => run env command from_
  let ended ← IO.monoMsNow
  if timed.printed.isNone then return timed
  return run env command { from_ with elapsed := ended - began }

def report (r : Result) : IO UInt32 := do
  if let some j := r.printed then IO.println j.toLines
  if let some message := r.complaint then IO.eprintln message
  return UInt32.ofNat r.exitCode

end CurrencyWallet.CommandLine

open CurrencyWallet.CommandLine in
def main (args : List String) : IO UInt32 := do
  match read args with
  | .error .help => IO.print usage; return 0
  | .error .malformed => IO.eprint usage; return 2
  | .ok command => report (← runTimed (← readEnvironment) command)

import CurrencyWallet.Decimal.Text
import CurrencyWallet.Simulation.Plan
import CurrencyWallet.Text.Numeral

/-!
Command lines. A command is named first, and its options follow in any order, each once:
`--amount 5`, `--amount=5`, and for those with a letter `-u 5`, `-u5` and `-u=5`. A value that is a
word of its own does not begin with a hyphen, unless it is one. Words are read from left to right,
and the first that is out of place or asks for help decides.
-/
namespace CurrencyWallet.CommandLine

open Text

inductive Command where
  | request (r : WalletRequest)
  | rates
  | simulate (config : SimulationConfig)

inductive Refusal where
  | help
  | malformed
  deriving DecidableEq, Repr

structure OptionForm where
  name : String
  letter : Option Char
  accepts : String → Bool

abbrev Options := List (String × String)

def readInt (s : String) : Option Int := intWithin? (2 ^ 63) s.toList

def readNat (s : String) : Option Nat := natBelow? word64 s.toList

def userOption : OptionForm := ⟨"user", none, fun s => (readInt s).isSome⟩

def textOption (name : String) : OptionForm := ⟨name, none, fun _ => true⟩

def amountOption (name : String) : OptionForm :=
  ⟨name, none, fun s => (Decimal.ofText? s).isSome⟩

def countOption (name : String) (letter : Option Char) : OptionForm :=
  ⟨name, letter, fun s => (readNat s).isSome⟩

def accountForms : List OptionForm := [userOption, textOption "currency", amountOption "amount"]

def forms : List (String × List OptionForm) :=
  [("balance", [userOption]),
   ("open-accounts", [userOption]),
   ("deposit", accountForms),
   ("withdraw", accountForms),
   ("exchange", [userOption, textOption "from", textOption "to", amountOption "amount"]),
   ("rates", []),
   ("simulate",
    [countOption "users" (some 'u'), countOption "operations" (some 'o'),
     amountOption "initial-balance", countOption "seed" none])]

/-! ### Words -/

inductive Word where
  /-- Two hyphens and nothing else: only plain words can follow. -/
  | terminator
  | named (name : String) (joined : Option String)
  | lettered (letter : Char) (joined : Option String)
  | plain

def Word.ofText (s : String) : Word :=
  match s.toList with
  | ['-', '-'] => .terminator
  | '-' :: '-' :: body =>
    match splitOnce '=' body with
    | some (name, value) => .named (String.ofList name) (some (String.ofList value))
    | none => .named (String.ofList body) none
  | '-' :: letter :: [] => .lettered letter none
  | '-' :: letter :: '=' :: value => .lettered letter (some (String.ofList value))
  | '-' :: letter :: value => .lettered letter (some (String.ofList value))
  | _ => .plain

def isValue (s : String) : Bool :=
  match Word.ofText s with
  | .plain => true
  | _ => false

def addOption (seen : Options) (form : OptionForm) (value : String) : Except Refusal Options :=
  if (seen.lookup form.name).isSome || !form.accepts value then .error .malformed
  else .ok (seen ++ [(form.name, value)])

def findForm (forms : List OptionForm) : Word → Option OptionForm
  | .named name _ => forms.find? (·.name = name)
  | .lettered letter _ => forms.find? (·.letter = some letter)
  | _ => none

def asksForHelp : Word → Bool
  | .named name none => name == "help"
  | .lettered letter _ => letter == 'h'
  | _ => false

def Word.joined? : Word → Option String
  | .named _ joined | .lettered _ joined => joined
  | _ => none

def readOptions (forms : List OptionForm) (seen : Options) : List String → Except Refusal Options
  | [] => .ok seen
  | s :: rest =>
    let word := Word.ofText s
    match word with
    | .terminator => if rest.isEmpty then .ok seen else .error .malformed
    | .plain => .error .malformed
    | _ =>
      if asksForHelp word then .error .help
      else match findForm forms word, word.joined? with
        | none, _ => .error .malformed
        | some form, some value =>
          match addOption seen form value with
          | .ok seen => readOptions forms seen rest
          | .error e => .error e
        | some form, none =>
          match rest with
          | [] => .error .malformed
          | value :: rest =>
            if isValue value then
              match addOption seen form value with
              | .ok seen => readOptions forms seen rest
              | .error e => .error e
            else .error .malformed

/-! ### Commands -/

def user? (o : Options) : Option UserId := (o.lookup "user").bind fun s => (readInt s).map UserId.mk

def currency? (o : Options) (name : String) : Option Currency := (o.lookup name).map Currency.ofText

def amount? (o : Options) (name : String) : Option Decimal := (o.lookup name).bind Decimal.ofText?

def count? (o : Options) (name : String) : Option Nat := (o.lookup name).bind readNat

def movementCommand? (movement : Movement) (o : Options) : Option Command := do
  some (.request (.move movement (← user? o) (← currency? o "currency") (← amount? o "amount")))

def simulationConfig (o : Options) : SimulationConfig where
  users := (count? o "users").getD SimulationConfig.usual.users
  operationsPerUser := (count? o "operations").getD SimulationConfig.usual.operationsPerUser
  initialBalance := (amount? o "initial-balance").getD SimulationConfig.usual.initialBalance
  seed := count? o "seed"

def command? (name : String) (o : Options) : Option Command :=
  match name with
  | "balance" => do some (.request (.balance (← user? o)))
  | "open-accounts" => do some (.request (.openAccounts (← user? o)))
  | "deposit" => movementCommand? .deposit o
  | "withdraw" => movementCommand? .withdraw o
  | "exchange" => do
    some (.request (.exchange
      ⟨← user? o, ← currency? o "from", ← currency? o "to", ← amount? o "amount"⟩))
  | "rates" => some .rates
  | "simulate" => some (.simulate (simulationConfig o))
  | _ => none

def readHelp : List String → Refusal
  | [] => .help
  | [name] => if name = "help" ∨ (forms.lookup name).isSome then .help else .malformed
  | _ => .malformed

def read : List String → Except Refusal Command
  | [] => .error .malformed
  | "help" :: rest => .error (readHelp rest)
  | name :: rest =>
    if asksForHelp (.ofText name) then .error .help
    else match forms.lookup name with
      | none => .error .malformed
      | some forms =>
        match readOptions forms [] rest with
        | .error e => .error e
        | .ok o => (command? name o).elim (.error .malformed) .ok

end CurrencyWallet.CommandLine

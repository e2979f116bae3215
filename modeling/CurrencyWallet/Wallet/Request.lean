import CurrencyWallet.Exchange.Run

/-!
What a wallet can be asked, and the checks that every request passes before anything else is done:
the user, then the currencies, then the amount. A request that fails them leaves no trace.
-/
namespace CurrencyWallet

def checkAmount (amount : Decimal) : Except ExchangeError Decimal :=
  if amount.roundAmount.IsPositive then .ok amount.roundAmount
  else .error (.invalid (.amountBelowCent amount))

def UserId.check (u : UserId) : Except ExchangeError Unit :=
  if u.IsValid then .ok () else .error (.invalid (.userId u))

def Currency.check (c : Currency) : Except ExchangeError Unit :=
  if c.IsValid then .ok () else .error (.invalid (.currencyCode c))

inductive WalletRequest where
  | balance (user : UserId)
  | openAccounts (user : UserId)
  | move (movement : Movement) (user : UserId) (currency : Currency) (amount : Decimal)
  | exchange (request : ExchangeRequest)
  deriving DecidableEq

/-- A request that has passed its checks, with its amount in full cents. -/
inductive Admitted where
  | query (call : Ledger.Call)
  | move (movement : Movement) (call : Ledger.Call)
  | exchange (request : ExchangeRequest)
  deriving DecidableEq

def ExchangeRequest.check (r : ExchangeRequest) : Except ExchangeError ExchangeRequest := do
  r.user.check
  r.source.check
  r.target.check
  if r.source = r.target then .error (.invalid (.exchangeIntoItself r.source))
  let amount ← checkAmount r.amount
  .ok { r with amount }

namespace WalletRequest

def check : WalletRequest → Except ExchangeError Admitted
  | balance user => do
    user.check
    .ok (.query (.balances user))
  | openAccounts user => do
    user.check
    .ok (.query (.openAccounts user))
  | move movement user currency amount => do
    user.check
    currency.check
    let amount ← checkAmount amount
    let delta ← (movement.signed amount).mapError .ofLedger
    .ok (.move movement (.apply user currency delta))
  | exchange request => do
    let request ← request.check
    .ok (.exchange request)

end WalletRequest

inductive WalletReply where
  | balances (b : Balances)
  | outcome (o : ExchangeOutcome)
  deriving DecidableEq

abbrev WalletResult := Attempt ExchangeError WalletReply

end CurrencyWallet

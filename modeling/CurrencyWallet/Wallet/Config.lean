import CurrencyWallet.Rates.Listing
import CurrencyWallet.Rates.Resolution
import CurrencyWallet.Wallet.Service

/-!
The settings of a wallet, read from an environment. A number that cannot be read leaves its
setting as it was, and so does a blank database address; a malformed list of rates is an error.
-/
namespace CurrencyWallet

open Text

def readMillis (s : String) : Option Nat := natBelow? word64 (trim s.toList)

/-! ### Usual times, in milliseconds -/

def usualCacheTtl : Nat := 60000
def usualQuoteTimeout : Nat := 5000
def usualCacheWriteTimeout : Nat := 2000
def usualExchangeTimeout : Nat := 10000
def usualTransactionTimeout : Nat := 15000

structure WalletConfig where
  databaseUrl : Option String
  maxConnections : Nat
  transactionTimeout : Nat
  exchangeTimeout : Nat
  currencies : List Currency
  ratePolicy : RatePolicy
  rates : List (CurrencyPair × Decimal)
  logLevel : String

inductive ConfigError where
  | noCurrency
  | invalidCurrency (currency : Currency)
  | zeroTimeout
  | zeroQuoteTimeout
  | noConnections
  | rateNotPositive (pair : CurrencyPair) (rate : Decimal)
  deriving DecidableEq

def ConfigError.message : ConfigError → String
  | .noCurrency => "At least one currency must be supported"
  | .invalidCurrency c => s!"Invalid currency code: {c}"
  | .zeroTimeout => "Timeouts must be non-zero"
  | .zeroQuoteTimeout => "Quote timeout must be non-zero"
  | .noConnections => "Max connections cannot be 0"
  | .rateNotPositive pair rate => s!"Rate for {pair} must be positive, got {rate}"

abbrev Environment := Table String String

namespace WalletConfig

def usual : WalletConfig where
  databaseUrl := none
  maxConnections := 10
  transactionTimeout := usualTransactionTimeout
  exchangeTimeout := usualExchangeTimeout
  currencies := [.eur, .rub, .usd]
  ratePolicy := ⟨usualCacheTtl, usualQuoteTimeout, usualCacheWriteTimeout, true⟩
  rates := []
  logLevel := "info"

def readDatabaseUrl (env : Environment) : Option String :=
  (env.get? "DATABASE_URL").filter fun url => !allBlank url.toList

def readTimeout (env : Environment) (name : String) (usually : Nat) : Nat :=
  ((env.get? name).bind readMillis).getD usually

def readConnections (env : Environment) (usually : Nat) : Nat :=
  ((env.get? "DATABASE_MAX_CONNECTIONS").bind fun s => natBelow? (2 ^ 32) (trim s.toList)).getD
    usually

def readRates (env : Environment) : Except RateEntryError (List (CurrencyPair × Decimal)) :=
  match env.get? "EXCHANGE_RATES" with
  | none => .ok usual.rates
  | some s => RateListing.ofText s

def ofEnvironment (env : Environment) : Except RateEntryError WalletConfig := do
  let rates ← readRates env
  .ok
    { databaseUrl := readDatabaseUrl env
      maxConnections := readConnections env usual.maxConnections
      transactionTimeout := readTimeout env "TRANSACTION_TIMEOUT_MS" usualTransactionTimeout
      exchangeTimeout := readTimeout env "EXCHANGE_TIMEOUT_MS" usualExchangeTimeout
      currencies := ((env.get? "SUPPORTED_CURRENCIES").map Currency.listOfText).getD
        usual.currencies
      ratePolicy :=
        { cacheTtl := readTimeout env "RATE_CACHE_TTL_MS" usualCacheTtl
          quoteTimeout := readTimeout env "QUOTE_TIMEOUT_MS" usualQuoteTimeout
          cacheWriteTimeout := usualCacheWriteTimeout
          useCache := true }
      rates
      logLevel := (env.get? "LOG_LEVEL").getD usual.logLevel }

/-- Reports the first setting that a wallet cannot work with. -/
def validate (c : WalletConfig) : Except ConfigError Unit := do
  if c.currencies.isEmpty then .error .noCurrency
  match c.currencies.find? fun code => ¬ code.IsValid with
  | some code => .error (.invalidCurrency code)
  | none => .ok ()
  if c.exchangeTimeout = 0 ∨ c.transactionTimeout = 0 then .error .zeroTimeout
  if c.ratePolicy.quoteTimeout = 0 then .error .zeroQuoteTimeout
  if c.maxConnections = 0 then .error .noConnections
  match c.rates.find? fun e => ¬ e.2.IsPositive with
  | some (pair, rate) => .error (.rateNotPositive pair rate)
  | none => .ok ()

def referenceRates : List (CurrencyPair × Decimal) :=
  [(⟨.usd, .eur⟩, .small 92 2),
   (⟨.eur, .usd⟩, .small 1087 3),
   (⟨.usd, .rub⟩, .small 9150 2),
   (⟨.rub, .usd⟩, .small 1093 5),
   (⟨.eur, .rub⟩, .small 9945 2),
   (⟨.rub, .eur⟩, .small 1006 5)]

end WalletConfig

namespace Wallet

/-- A wallet over the given ledger with the configured rates and an empty cache. -/
def ofConfig (c : WalletConfig) (ledger : Ledger) : Wallet where
  ledger
  desk := ⟨c.ratePolicy, RateTable.ofRates c.rates, .new RateCache.defaultCapacity⟩
  exchangeTimeout := c.exchangeTimeout
  metrics := .zero

end Wallet

end CurrencyWallet

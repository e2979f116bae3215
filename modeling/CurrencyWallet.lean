import CurrencyWallet.Attempt
import CurrencyWallet.Balances
import CurrencyWallet.Binary64
import CurrencyWallet.CommandLine.Arguments
import CurrencyWallet.CommandLine.Program
import CurrencyWallet.Currency
import CurrencyWallet.Decimal.Arithmetic
import CurrencyWallet.Decimal.Basic
import CurrencyWallet.Decimal.Rounding
import CurrencyWallet.Decimal.Text
import CurrencyWallet.Exchange.Error
import CurrencyWallet.Exchange.Pricing
import CurrencyWallet.Exchange.Run
import CurrencyWallet.Exchange.State
import CurrencyWallet.ExchangeId
import CurrencyWallet.Invalid
import CurrencyWallet.Json.Basic
import CurrencyWallet.Json.Reader
import CurrencyWallet.Json.Record
import CurrencyWallet.Json.Writer
import CurrencyWallet.Ledger.DatabaseUrl
import CurrencyWallet.Ledger.Delta
import CurrencyWallet.Ledger.Error
import CurrencyWallet.Ledger.Locking
import CurrencyWallet.Ledger.Memory
import CurrencyWallet.Ledger.Remote
import CurrencyWallet.Ledger.Settlement
import CurrencyWallet.Ledger.Validation
import CurrencyWallet.Main
import CurrencyWallet.Overflow
import CurrencyWallet.Proofs.Currency.Letters
import CurrencyWallet.Proofs.Currency.Listing
import CurrencyWallet.Proofs.Currency.Normal
import CurrencyWallet.Proofs.Currency.Pair
import CurrencyWallet.Proofs.Decimal.Amount
import CurrencyWallet.Proofs.Decimal.Faithful
import CurrencyWallet.Proofs.Decimal.Fit
import CurrencyWallet.Proofs.Decimal.Monotone
import CurrencyWallet.Proofs.Decimal.Nearest
import CurrencyWallet.Proofs.Decimal.Range
import CurrencyWallet.Proofs.Decimal.Text
import CurrencyWallet.Proofs.Decimal.Value
import CurrencyWallet.Proofs.Exchange.Commit
import CurrencyWallet.Proofs.Exchange.Lifecycle
import CurrencyWallet.Proofs.Exchange.Monotone
import CurrencyWallet.Proofs.Exchange.Pricing
import CurrencyWallet.Proofs.Exchange.Rivals
import CurrencyWallet.Proofs.Exchange.Rounding
import CurrencyWallet.Proofs.Exchange.Settlement
import CurrencyWallet.Proofs.Ledger.Accounts
import CurrencyWallet.Proofs.Ledger.Exactness
import CurrencyWallet.Proofs.Ledger.Exclusion
import CurrencyWallet.Proofs.Ledger.Frame
import CurrencyWallet.Proofs.Ledger.Liveness
import CurrencyWallet.Proofs.Ledger.Money
import CurrencyWallet.Proofs.Ledger.Overdraft
import CurrencyWallet.Proofs.Ledger.Representation
import CurrencyWallet.Proofs.Ledger.Serialization
import CurrencyWallet.Proofs.Ledger.Settling
import CurrencyWallet.Proofs.Ledger.Withdrawals
import CurrencyWallet.Proofs.Lists
import CurrencyWallet.Proofs.Rates.CacheHistory
import CurrencyWallet.Proofs.Rates.Delivery
import CurrencyWallet.Proofs.Rates.Desk
import CurrencyWallet.Proofs.Rates.Freshness
import CurrencyWallet.Proofs.Rates.Listing
import CurrencyWallet.Proofs.Rates.Transparency
import CurrencyWallet.Proofs.Scenario.Detachment
import CurrencyWallet.Proofs.Scenario.Jobs
import CurrencyWallet.Proofs.Scenario.Turns
import CurrencyWallet.Proofs.Scenario.Verdict
import CurrencyWallet.Proofs.Simulation.Plan
import CurrencyWallet.Proofs.Simulation.Report
import CurrencyWallet.Proofs.Text.Normal
import CurrencyWallet.Proofs.Wallet.Accounting
import CurrencyWallet.Proofs.Wallet.Cents
import CurrencyWallet.Proofs.Wallet.Completion
import CurrencyWallet.Proofs.Wallet.Config
import CurrencyWallet.Proofs.Wallet.Counting
import CurrencyWallet.Proofs.Wallet.Course
import CurrencyWallet.Proofs.Wallet.Faults
import CurrencyWallet.Proofs.Wallet.History
import CurrencyWallet.Proofs.Wallet.Overflow
import CurrencyWallet.Proofs.Wallet.Plain
import CurrencyWallet.Proofs.Wallet.Refinement
import CurrencyWallet.Proofs.Wallet.Request
import CurrencyWallet.Proofs.Wallet.Sequence
import CurrencyWallet.Rates.Cache
import CurrencyWallet.Rates.Error
import CurrencyWallet.Rates.Listing
import CurrencyWallet.Rates.Quote
import CurrencyWallet.Rates.Resolution
import CurrencyWallet.Rates.Service
import CurrencyWallet.Scenario.Activity
import CurrencyWallet.Scenario.Parts
import CurrencyWallet.Scenario.Script
import CurrencyWallet.Scenario.Setting
import CurrencyWallet.Scenario.World
import CurrencyWallet.Simulation.Plan
import CurrencyWallet.Simulation.Report
import CurrencyWallet.Table
import CurrencyWallet.Text.Blank
import CurrencyWallet.Text.Numeral
import CurrencyWallet.Text.Quoted
import CurrencyWallet.Text.Split
import CurrencyWallet.Text.Unprintable
import CurrencyWallet.Text.Uppercase
import CurrencyWallet.Text.Utf8
import CurrencyWallet.Timestamp
import CurrencyWallet.Url.Authority
import CurrencyWallet.Url.Host
import CurrencyWallet.Url.Query
import CurrencyWallet.Wallet.Concurrent
import CurrencyWallet.Wallet.Config
import CurrencyWallet.Wallet.Metrics
import CurrencyWallet.Wallet.Request
import CurrencyWallet.Wallet.Service

import CurrencyWallet.Exchange.Run
import CurrencyWallet.Json.Basic
import CurrencyWallet.Rates.Quote
import CurrencyWallet.Wallet.Metrics

/-!
The domain's values as JSON. A record is an object with all its fields, or an array of exactly its
fields in their order; more fields in an object do no harm. Codes of currencies are taken as they
are. Decimals are written as texts and read from texts and numbers.
-/
namespace CurrencyWallet

class JsonCoded (α : Type) where
  encode : α → Json
  decode? : Json → Option α

export JsonCoded (encode decode?)

def recode (α : Type) [JsonCoded α] (j : Json) : Option Json :=
  (decode? j : Option α).map encode

namespace Json

def fields? (names : List String) : Json → Option (List Json)
  | object members => names.mapM fun name => members.lookup name
  | array items => if items.length = names.length then some items else none
  | _ => none

def word? : Json → Option String
  | string s => some s
  | object [(name, null)] => some name
  | _ => none

end Json

/-- Reads a number that is not whole, or not of 64 bits, by its shortest decimal. -/
def Decimal.ofBinary? (negative : Bool) (magnitude : Binary64) : Option Decimal :=
  Decimal.ofChars? ((if negative then ['-'] else []) ++ magnitude.plainText)

instance : JsonCoded Decimal where
  encode d := .string d.toText
  decode?
    | .string s => Decimal.ofText? s
    | .whole n => Decimal.ofInt? n
    | .binary negative magnitude => Decimal.ofBinary? negative magnitude
    | _ => none

instance : JsonCoded UserId where
  encode u := .whole u.number
  decode? j := j.int64?.map UserId.mk

instance : JsonCoded ExchangeId where
  encode id := .string id.toText
  decode? j := j.string?.bind ExchangeId.ofText?

instance : JsonCoded Currency where
  encode c := .string c.code
  decode? j := j.string?.map Currency.mk

instance : JsonCoded CurrencyPair where
  encode p := .ofMembers [("from", encode p.source), ("to", encode p.target)]
  decode? j := do
    match ← j.fields? ["from", "to"] with
    | [source, target] => some ⟨← decode? source, ← decode? target⟩
    | _ => none

instance : JsonCoded Balances where
  encode b := .ofTable Currency.code encode b
  decode? j := do
    let entries ← (← j.members?).mapM fun m => do
      let d ← decode? m.2
      some ((⟨m.1⟩ : Currency), d)
    some (Table.ofList entries)

instance : JsonCoded Timestamp where
  encode t := .string t.toText
  decode? j := j.string?.bind Timestamp.ofText?

instance : JsonCoded Quote where
  encode q := .ofMembers
    [("pair", encode q.pair), ("rate", encode q.rate), ("observed_at", encode q.observedAt),
     ("source", .string q.source)]
  decode? j := do
    match ← j.fields? ["pair", "rate", "observed_at", "source"] with
    | [pair, rate, observedAt, source] =>
      some ⟨← decode? pair, ← decode? rate, ← decode? observedAt, ← source.string?⟩
    | _ => none

instance : JsonCoded RateSource where
  encode s := .string s.name
  decode? j := do
    match ← j.word? with
    | "cache" => some .cache
    | "remote" => some .remote
    | _ => none

instance : JsonCoded ResolvedRate where
  encode r := .ofMembers
    [("pair", encode r.pair), ("rate", encode r.rate), ("source", encode r.source)]
  decode? j := do
    match ← j.fields? ["pair", "rate", "source"] with
    | [pair, rate, source] => some ⟨← decode? pair, ← decode? rate, ← decode? source⟩
    | _ => none

instance : JsonCoded Movement where
  encode m := .string m.name
  decode? j := do
    match ← j.word? with
    | "deposit" => some .deposit
    | "withdraw" => some .withdraw
    | _ => none

instance : JsonCoded Funding where
  encode f := .ofMembers
    [("balances", encode f.balances), ("base_balance", encode f.source),
     ("to_balance", encode f.target)]
  decode? j := do
    match ← j.fields? ["balances", "base_balance", "to_balance"] with
    | [balances, source, target] =>
      some ⟨← decode? balances, ← decode? source, ← decode? target⟩
    | _ => none

instance : JsonCoded SettlementLeg where
  encode l := .ofMembers
    [("currency", encode l.currency), ("expected_balance", encode l.expected),
     ("new_balance", encode l.updated)]
  decode? j := do
    match ← j.fields? ["currency", "expected_balance", "new_balance"] with
    | [currency, expected, updated] =>
      some ⟨← decode? currency, ← decode? expected, ← decode? updated⟩
    | _ => none

instance : JsonCoded Settlement where
  encode s := .ofMembers
    [("user_id", encode s.user), ("base", encode s.source), ("to", encode s.target)]
  decode? j := do
    match ← j.fields? ["user_id", "base", "to"] with
    | [user, source, target] => some ⟨← decode? user, ← decode? source, ← decode? target⟩
    | _ => none

instance : JsonCoded PricingInput where
  encode i := .ofMembers
    [("base_currency", encode i.source), ("base_balance", encode i.sourceBalance),
     ("to_currency", encode i.target), ("to_balance", encode i.targetBalance),
     ("rate", encode i.rate), ("amount", encode i.amount)]
  decode? j := do
    match ← j.fields?
        ["base_currency", "base_balance", "to_currency", "to_balance", "rate", "amount"] with
    | [source, sourceBalance, target, targetBalance, rate, amount] =>
      some ⟨← decode? source, ← decode? sourceBalance, ← decode? target,
        ← decode? targetBalance, ← decode? rate, ← decode? amount⟩
    | _ => none

instance : JsonCoded Pricing where
  encode p := .ofMembers
    [("new_base_balance", encode p.sourceBalance), ("new_to_balance", encode p.targetBalance),
     ("received", encode p.received)]
  decode? j := do
    match ← j.fields? ["new_base_balance", "new_to_balance", "received"] with
    | [source, target, received] =>
      some ⟨← decode? source, ← decode? target, ← decode? received⟩
    | _ => none

instance : JsonCoded ExchangeRequest where
  encode r := .ofMembers
    [("user_id", encode r.user), ("from", encode r.source), ("to", encode r.target),
     ("amount", encode r.amount)]
  decode? j := do
    match ← j.fields? ["user_id", "from", "to", "amount"] with
    | [user, source, target, amount] =>
      some ⟨← decode? user, ← decode? source, ← decode? target, ← decode? amount⟩
    | _ => none

def ExchangeOutcome.members (o : ExchangeOutcome) : List (String × Json) :=
  [("user_id", encode o.user), ("base_currency", encode o.source),
   ("new_base_balance", encode o.sourceBalance), ("to_currency", encode o.target),
   ("new_to_balance", encode o.targetBalance), ("spent", encode o.spent),
   ("received", encode o.received), ("rate", encode o.rate),
   ("rate_source", encode o.rateSource), ("balances", encode o.balances)]

instance : JsonCoded ExchangeOutcome where
  encode o := .ofMembers (("exchange_id", encode o.id) :: o.members)
  decode? j := do
    match ← j.fields?
        ["exchange_id", "user_id", "base_currency", "new_base_balance", "to_currency",
         "new_to_balance", "spent", "received", "rate", "rate_source", "balances"] with
    | [id, user, source, sourceBalance, target, targetBalance, spent, received, rate, rateSource,
        balances] =>
      some ⟨← decode? id, ← decode? user, ← decode? source, ← decode? sourceBalance,
        ← decode? target, ← decode? targetBalance, ← decode? spent, ← decode? received,
        ← decode? rate, ← decode? rateSource, ← decode? balances⟩
    | _ => none

instance : JsonCoded ExchangeState where
  encode s := .string s.name
  decode? j := j.word?.bind ExchangeState.ofName?

def RateTable.toJson (rates : RateTable) : Json := .ofTable id encode rates

def Metrics.toJson (m : Metrics) : Json := .ofMembers
  [("exchanges_total", .ofNat m.started), ("exchanges_success", .ofNat m.succeeded),
   ("exchanges_validation_failed", .ofNat m.validationFailed),
   ("exchanges_rate_failed", .ofNat m.rateFailed),
   ("exchanges_compute_failed", .ofNat m.computeFailed),
   ("exchanges_commit_failed", .ofNat m.commitFailed),
   ("exchanges_deadline_exceeded", .ofNat m.deadlineExceeded),
   ("rate_cache_hits", .ofNat m.cacheHits), ("rate_cache_misses", .ofNat m.cacheMisses),
   ("deposits", .ofNat m.deposits), ("withdrawals", .ofNat m.withdrawals),
   ("operations_failed", .ofNat m.movementsFailed)]

end CurrencyWallet

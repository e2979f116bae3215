import CurrencyWallet.Proofs.Wallet.Request
import CurrencyWallet.Wallet.Config

/-!
A wallet as those see it who ask it: who has how much of which currency, and which rates were given.
It has no cache, no clock, no rows and no stages; a request is checked, looked up and computed in
one go. Its replies are those of a wallet, without the identifier of an exchange and the place where
its rate was found. A stalled one breaks off every exchange that has passed its checks.
-/
namespace CurrencyWallet

/-! ### Replies -/

/-- What an outcome says of the money. -/
structure Receipt where
  user : UserId
  source : Currency
  sourceBalance : Decimal
  target : Currency
  targetBalance : Decimal
  spent : Decimal
  received : Decimal
  rate : Decimal
  balances : Currency → Option Decimal

inductive PlainReply where
  | balances (b : Currency → Option Decimal)
  | receipt (r : Receipt)

abbrev PlainResult := Attempt ExchangeError PlainReply

def ExchangeOutcome.receipt (o : ExchangeOutcome) : Receipt where
  user := o.user
  source := o.source
  sourceBalance := o.sourceBalance
  target := o.target
  targetBalance := o.targetBalance
  spent := o.spent
  received := o.received
  rate := o.rate
  balances := o.balances.get?

def WalletReply.plain : WalletReply → PlainReply
  | balances b => .balances b.get?
  | outcome o => .receipt o.receipt

def plainResult (result : WalletResult) : PlainResult := result >>= fun reply => .ok reply.plain

/-- Nothing is lost of balances, and of an outcome the identifier and the source of the rate. -/
theorem WalletReply.plain_balances_inj {b b' : Balances} :
    (balances b).plain = (balances b').plain ↔ b = b' := by
  constructor
  · intro h
    have hlookup := PlainReply.balances.inj h
    exact Table.ext_get? fun c => congrFun hlookup c
  · rintro rfl
    rfl

theorem ExchangeOutcome.receipt_inj {o o' : ExchangeOutcome} :
    o.receipt = o'.receipt ↔ o' = { o with id := o'.id, rateSource := o'.rateSource } := by
  constructor
  · intro h
    obtain ⟨id, user, source, sb, target, tb, spent, received, rate, rs, balances⟩ := o
    obtain ⟨id', user', source', sb', target', tb', spent', received', rate', rs', balances'⟩ := o'
    simp only [receipt, Receipt.mk.injEq] at h
    obtain ⟨rfl, rfl, rfl, rfl, rfl, rfl, rfl, rfl, hlookup⟩ := h
    have hbalances : balances = balances' := Table.ext_get? fun c => congrFun hlookup c
    rw [hbalances]
  · intro h
    rw [h]
    rfl

/-! ### The wallet -/

structure PlainWallet where
  currencies : List Currency
  rates : List (CurrencyPair × Decimal)
  funds : UserId → Currency → Option Decimal
  isStalled : Bool

namespace PlainWallet

def ofConfig (c : WalletConfig) (l : Ledger) : PlainWallet :=
  ⟨c.currencies, c.rates, l.balance?, false⟩

def stalled (p : PlainWallet) : PlainWallet := { p with isStalled := true }

def require (p : Prop) [Decidable p] (e : ExchangeError) : Attempt ExchangeError Unit :=
  if p then .ok () else .refused e

def demand {α : Type} (found : Option α) (e : ExchangeError) : Attempt ExchangeError α :=
  match found with
  | some a => .ok a
  | none => .refused e

/-- Of several rates for a pair the last one counts. -/
def rate? (p : PlainWallet) (pair : CurrencyPair) : Option Decimal :=
  (p.rates.reverse.find? (·.1 = pair)).map (·.2)

def opened (p : PlainWallet) (user : UserId) : PlainWallet :=
  { p with
    funds := fun u c =>
      if u = user ∧ c ∈ p.currencies then some ((p.funds u c).getD .zero) else p.funds u c }

def put (p : PlainWallet) (user : UserId) (currency : Currency) (balance : Decimal) : PlainWallet :=
  { p with
    funds := fun u c => if u = user ∧ c = currency then some balance else p.funds u c }

def moved (m : Movement) (currency : Currency) (balance amount : Decimal) :
    Attempt ExchangeError Decimal :=
  match m with
  | .deposit => .ofArithmetic (balance.add amount)
  | .withdraw => do
    require (amount ≤ balance) (.insufficientFunds currency amount balance)
    .ofArithmetic (balance.sub amount)

def transfer (p : PlainWallet) (m : Movement) (user : UserId) (currency : Currency)
    (amount : Decimal) : Attempt ExchangeError (PlainWallet × PlainReply) := do
  require (currency ∈ p.currencies) (.currencyNotFound currency)
  let balance ← demand (p.funds user currency) (.accountNotFound currency)
  let balance ← moved m currency balance amount
  let p := p.put user currency balance
  .ok (p, .balances (p.funds user))

def price (amount rate source target : Decimal) : Attempt ExchangeError Pricing := do
  let received := (← .ofArithmetic (amount.mul rate)).roundAmount
  let source := (← .ofArithmetic (source.sub amount)).roundAmount
  let target := (← .ofArithmetic (target.add received)).roundAmount
  .ok ⟨source, target, received⟩

def exchanged (p : PlainWallet) (r : ExchangeRequest) (pricing : Pricing) : PlainWallet :=
  (p.put r.user r.source pricing.sourceBalance).put r.user r.target pricing.targetBalance

def receiptOf (p : PlainWallet) (r : ExchangeRequest) (rate : Decimal) (pricing : Pricing) :
    Receipt where
  user := r.user
  source := r.source
  sourceBalance := pricing.sourceBalance
  target := r.target
  targetBalance := pricing.targetBalance
  spent := r.amount
  received := pricing.received
  rate := rate
  balances := p.funds r.user

def trade (p : PlainWallet) (r : ExchangeRequest) :
    Attempt ExchangeError (PlainWallet × PlainReply) := do
  let source ← demand (p.funds r.user r.source) (.accountNotFound r.source)
  let target ← demand (p.funds r.user r.target) (.currencyNotFound r.target)
  require (r.amount ≤ source) (.insufficientFunds r.source r.amount source)
  let rate ← demand (p.rate? r.pair) (.pairUnsupported r.pair)
  let pricing ← price r.amount rate source target
  let p := p.exchanged r pricing
  .ok (p, .receipt (p.receiptOf r rate pricing))

def exchange (p : PlainWallet) (r : ExchangeRequest) :
    Attempt ExchangeError (PlainWallet × PlainReply) :=
  if p.isStalled then .overflowed .moment else p.trade r

/-- What a request makes of the wallet, and the reply to it. -/
def perform (p : PlainWallet) :
    WalletRequest → Attempt ExchangeError (PlainWallet × PlainReply)
  | .balance user => do
    require user.IsValid (.invalid (.userId user))
    .ok (p, .balances (p.funds user))
  | .openAccounts user => do
    require user.IsValid (.invalid (.userId user))
    let p := p.opened user
    .ok (p, .balances (p.funds user))
  | .move m user currency amount => do
    require user.IsValid (.invalid (.userId user))
    require currency.IsValid (.invalid (.currencyCode currency))
    require amount.roundAmount.IsPositive (.invalid (.amountBelowCent amount))
    p.transfer m user currency amount.roundAmount
  | .exchange r => do
    require r.user.IsValid (.invalid (.userId r.user))
    require r.source.IsValid (.invalid (.currencyCode r.source))
    require r.target.IsValid (.invalid (.currencyCode r.target))
    require (r.source ≠ r.target) (.invalid (.exchangeIntoItself r.source))
    require r.amount.roundAmount.IsPositive (.invalid (.amountBelowCent r.amount))
    p.exchange { r with amount := r.amount.roundAmount }

def conclude (p : PlainWallet) :
    Attempt ExchangeError (PlainWallet × PlainReply) → PlainWallet × PlainResult
  | .ok (p, reply) => (p, .ok reply)
  | .refused e => (p, .refused e)
  | .overflowed o => (p, .overflowed o)

def answer (p : PlainWallet) (request : WalletRequest) : PlainWallet × PlainResult :=
  p.conclude (p.perform request)

def run (p : PlainWallet) : List WalletRequest → PlainWallet × List PlainResult
  | [] => (p, [])
  | request :: requests =>
    let (p, result) := p.answer request
    let (p, results) := p.run requests
    (p, result :: results)

/-! ### Checks -/

theorem require_of {p : Prop} [Decidable p] (h : p) (e : ExchangeError) : require p e = .ok () :=
  if_pos h

theorem require_of_not {p : Prop} [Decidable p] (h : ¬ p) (e : ExchangeError) :
    require p e = .refused e := if_neg h

theorem perform_balance (p : PlainWallet) (u : UserId) :
    p.perform (.balance u) =
      (Attempt.ofExcept (WalletRequest.balance u).check >>= fun _ =>
        .ok (p, .balances (p.funds u))) := by
  rw [perform, WalletRequest.check, UserId.check]
  by_cases hu : u.IsValid
  · rw [require_of hu, if_pos hu]
    rfl
  · rw [require_of_not hu, if_neg hu]
    rfl

theorem perform_openAccounts (p : PlainWallet) (u : UserId) :
    p.perform (.openAccounts u) =
      (Attempt.ofExcept (WalletRequest.openAccounts u).check >>= fun _ =>
        .ok (p.opened u, .balances ((p.opened u).funds u))) := by
  rw [perform, WalletRequest.check, UserId.check]
  by_cases hu : u.IsValid
  · rw [require_of hu, if_pos hu]
    rfl
  · rw [require_of_not hu, if_neg hu]
    rfl

theorem perform_move (p : PlainWallet) (m : Movement) (u : UserId) (c : Currency)
    (amount : Decimal) :
    p.perform (.move m u c amount) =
      (Attempt.ofExcept (WalletRequest.move m u c amount).check >>= fun _ =>
        p.transfer m u c amount.roundAmount) := by
  rw [WalletRequest.check_move_eq]
  by_cases hu : u.IsValid
  · by_cases hc : c.IsValid
    · by_cases ha : amount.roundAmount.IsPositive
      · simp [perform, require, Attempt.ofExcept, hu, hc, ha]
      · simp [perform, require, Attempt.ofExcept, hu, hc, ha]
    · simp [perform, require, Attempt.ofExcept, hu, hc]
  · simp [perform, require, Attempt.ofExcept, hu]

theorem perform_exchange (p : PlainWallet) (r : ExchangeRequest) :
    p.perform (.exchange r) = (Attempt.ofExcept r.check >>= p.exchange) := by
  rw [ExchangeRequest.check_eq]
  by_cases hu : r.user.IsValid
  · by_cases hs : r.source.IsValid
    · by_cases ht : r.target.IsValid
      · by_cases hsame : r.source = r.target
        · simp [perform, require, Attempt.ofExcept, hu, ht, hsame]
        · by_cases ha : r.amount.roundAmount.IsPositive
          · simp [perform, require, Attempt.ofExcept, hu, hs, ht, hsame, ha]
          · simp [perform, require, Attempt.ofExcept, hu, hs, ht, hsame, ha]
      · simp [perform, require, Attempt.ofExcept, hu, hs, ht]
    · simp [perform, require, Attempt.ofExcept, hu, hs]
  · simp [perform, require, Attempt.ofExcept, hu]

theorem perform_of_error (p : PlainWallet) {request : WalletRequest} {e : ExchangeError}
    (h : request.check = .error e) : p.perform request = .refused e := by
  cases request with
  | balance u =>
    rw [perform_balance, h]
    rfl
  | openAccounts u =>
    rw [perform_openAccounts, h]
    rfl
  | move m u c amount =>
    rw [perform_move, h]
    rfl
  | exchange r =>
    rw [perform_exchange]
    cases hr : r.check with
    | error e' =>
      simp only [WalletRequest.check, hr] at h
      cases h
      rfl
    | ok checked =>
      simp only [WalletRequest.check, hr] at h
      cases h

end PlainWallet

end CurrencyWallet

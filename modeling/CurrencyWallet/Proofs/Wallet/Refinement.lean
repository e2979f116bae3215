import CurrencyWallet.Proofs.Wallet.Faults
import CurrencyWallet.Proofs.Wallet.Plain

/-!
What becomes of a request to a wallet, as long as it is the only one under way and nothing cancels
it, is foreseen by the plain wallet: every move keeps the balances as they were before the request,
or ends it with the reply and the balances of the plain wallet.
-/
namespace CurrencyWallet

/-! ### What is read and written -/

namespace PlainWallet

/-- A wallet with the currencies and the rates of a plain one, and with deadlines that a clock
reaches unless the plain one is stalled. -/
structure Fits (p : PlainWallet) (w : Wallet) : Prop where
  stalled : p.isStalled = true ↔ ¬ IsWithinReach w.exchangeTimeout
  currencies : ∀ c, c ∈ w.ledger.currencies ↔ c ∈ p.currencies
  rates : ∀ pair : CurrencyPair, pair.source.IsValid → pair.target.IsValid →
    w.desk.rates.get? pair.key = p.rate? pair

def holding (p : PlainWallet) (l : Ledger) : PlainWallet := { p with funds := l.balance? }

variable {p : PlainWallet} {w : Wallet} {u : UserId} {c : Currency} {r : ExchangeRequest}

theorem holding_eq {p' : PlainWallet} {l : Ledger} (hfunds : l.balance? = p'.funds)
    (hsame : p' = { p with funds := p'.funds }) : p.holding l = p' := by
  rw [holding, hfunds, ← hsame]

theorem holding_of_funds {l : Ledger} (h : l.balance? = p.funds) : p.holding l = p :=
  holding_eq h rfl

/-! ### Movements -/

theorem moved_eq {current amount : Decimal} (hcurrent : ¬ current.IsNegative)
    (hamount : amount.IsPositive) (m : Movement) (c : Currency) :
    moved m c current amount =
      (applyDelta c current (m.delta amount)).mapReason ExchangeError.ofLedger := by
  cases m with
  | deposit =>
    rw [Movement.delta, applyDelta_deposit hamount, moved]
    cases current.add amount <;> rfl
  | withdraw =>
    rw [Movement.delta, applyDelta_withdraw hcurrent hamount, moved]
    by_cases hshort : current < amount
    · rw [if_pos hshort, require_of_not fun hle => Decimal.not_lt_iff.2 hle hshort]
      rfl
    · rw [if_neg hshort, require_of (Decimal.not_lt_iff.1 hshort)]
      cases current.sub amount <;> rfl

theorem conclude_transfer (hfits : p.Fits w) (hfunds : w.ledger.balance? = p.funds)
    (hreach : w.ledger.Reachable) {amount : Decimal} (hamount : amount.IsPositive) (m : Movement)
    (u : UserId) (c : Currency) :
    p.conclude (p.transfer m u c amount) =
      (p.holding (w.ledger.perform (.apply u c (m.delta amount))).1,
        plainResult (Wallet.balancesResult
          (w.ledger.perform (.apply u c (m.delta amount))).2)) := by
  rw [Ledger.perform_apply hreach.wellFormed, transfer]
  by_cases hc : c ∈ w.ledger.currencies
  swap
  · rw [if_neg hc, require_of_not fun h => hc ((hfits.currencies c).2 h), holding_of_funds hfunds]
    rfl
  rw [if_pos hc, require_of ((hfits.currencies c).1 hc), ← hfunds]
  cases hcurrent : w.ledger.balance? u c with
  | none =>
    rw [holding_of_funds hfunds]
    rfl
  | some current =>
    have hopen := Ledger.contains_of_balance? hcurrent
    simp only [demand, Attempt.ok_bind, moved_eq (hreach.nonNegative _ _ _ hcurrent) hamount]
    cases applyDelta c current (m.delta amount) with
    | refused e =>
      rw [holding_of_funds hfunds]
      rfl
    | overflowed o =>
      rw [holding_of_funds hfunds]
      rfl
    | ok updated =>
      have hput : p.holding (w.ledger.commit u [(c, updated)]) = p.put u c updated := by
        refine holding_eq ?_ rfl
        funext v d
        rw [Ledger.balance?_commit_one hopen, hfunds]
        rfl
      simp only [Attempt.mapReason, Attempt.ok_bind, ← hput]
      rfl

/-! ### Exchanges -/

theorem price_eq {i : PricingInput} (h : i.IsCovered) :
    price i.amount i.rate i.sourceBalance i.targetBalance =
      (Pricing.compute i).mapReason PricingError.toExchangeError := by
  rw [Pricing.compute_of_covered h, price]
  cases i.amount.mul i.rate with
  | error o => rfl
  | ok product =>
    cases i.sourceBalance.sub i.amount with
    | error o => rfl
    | ok rest =>
      simp only [Attempt.ofArithmetic, Attempt.ok_bind]
      cases i.targetBalance.add product.roundAmount <;> rfl

theorem trade_of_error {e : LedgerError} (hfunds : w.ledger.balance? = p.funds)
    (h : w.fund r = .error e) : p.trade r = .refused (.ofLedger e) := by
  have hread : ∀ c, (w.ledger.balances r.user).get? c = w.ledger.balance? r.user c := fun _ => rfl
  simp only [Wallet.fund, Funding.check, hread] at h
  rw [trade, ← hfunds]
  cases hs : w.ledger.balance? r.user r.source with
  | none =>
    rw [hs] at h
    cases h
    rfl
  | some source =>
    rw [hs] at h
    cases ht : w.ledger.balance? r.user r.target with
    | none =>
      rw [ht] at h
      cases h
      rfl
    | some target =>
      simp only [ht] at h
      split at h
      · rename_i hshort
        cases h
        simp only [demand, Attempt.ok_bind,
          require_of_not fun hle => Decimal.not_lt_iff.2 hle hshort]
        rfl
      · cases h

theorem trade_of_fund {f : Funding} (hfunds : w.ledger.balance? = p.funds)
    (h : w.fund r = .ok f) :
    p.trade r = (demand (p.rate? r.pair) (.pairUnsupported r.pair) >>= fun rate =>
      price r.amount rate f.source f.target >>= fun pricing =>
        .ok (p.exchanged r pricing,
          .receipt ((p.exchanged r pricing).receiptOf r rate pricing))) := by
  obtain ⟨hs, ht, henough, -⟩ := Funding.check_eq_ok.1 h
  have hsource : p.funds r.user r.source = some f.source := by
    rw [← hfunds]
    exact hs
  have htarget : p.funds r.user r.target = some f.target := by
    rw [← hfunds]
    exact ht
  rw [trade, hsource, htarget]
  simp only [demand, Attempt.ok_bind, require_of (Decimal.not_lt_iff.1 henough)]

theorem trade_of_missing {f : Funding} (hfunds : w.ledger.balance? = p.funds)
    (h : w.fund r = .ok f) (hrate : p.rate? r.pair = none) :
    p.trade r = .refused (.pairUnsupported r.pair) := by
  rw [trade_of_fund hfunds h, hrate]
  rfl

theorem trade_of_covered {run : ExchangeRun} {f : Funding} {rate : ResolvedRate}
    (hfunds : w.ledger.balance? = p.funds) (h : w.fund run.request = .ok f)
    (hrate : p.rate? run.request.pair = some rate.rate)
    (hcovered : (run.pricingInput f rate).IsCovered) :
    p.trade run.request =
      ((Pricing.compute (run.pricingInput f rate)).mapReason PricingError.toExchangeError >>=
        fun pricing =>
          .ok (p.exchanged run.request pricing,
            .receipt ((p.exchanged run.request pricing).receiptOf run.request rate.rate
              pricing))) := by
  rw [trade_of_fund hfunds h, hrate, ← price_eq hcovered]
  rfl

end PlainWallet

/-! ### A request alone -/

namespace Task

/-- What can happen to the only request under way: nothing cancels it, and as the ledger answers at
once, its balances are there when its parts are joined. -/
def Admits (t : Task) (m : Move) : Prop :=
  m ≠ .cancel ∧ ∀ e, m = .join → t = exchanging e → e.funding.isSome

theorem admits_of_ne {t : Task} {m : Move} (hcancel : m ≠ .cancel) (hjoin : m ≠ .join) :
    t.Admits m := ⟨hcancel, fun _ h => absurd h hjoin⟩

end Task

def WalletRequest.Asks (request : WalletRequest) (r : ExchangeRequest) : Prop :=
  ∃ asked, request = .exchange asked ∧ asked.check = .ok r

namespace WalletRequest.Asks

variable {request : WalletRequest} {r : ExchangeRequest}

theorem distinct (h : request.Asks r) : r.source ≠ r.target := by
  obtain ⟨asked, -, hcheck⟩ := h
  obtain ⟨rfl, hdistinct, -⟩ := ExchangeRequest.check_eq_ok hcheck
  exact hdistinct

theorem amount (h : request.Asks r) : r.amount.IsPositive := by
  obtain ⟨asked, -, hcheck⟩ := h
  obtain ⟨rfl, -, hpositive⟩ := ExchangeRequest.check_eq_ok hcheck
  exact hpositive

theorem isValid (h : request.Asks r) : r.source.IsValid ∧ r.target.IsValid := by
  obtain ⟨asked, -, hcheck⟩ := h
  have hchecked := hcheck
  obtain ⟨rfl, -, -⟩ := ExchangeRequest.check_eq_ok hcheck
  rw [ExchangeRequest.check_eq] at hchecked
  split at hchecked
  · cases hchecked
  · split at hchecked
    · cases hchecked
    · split at hchecked
      · cases hchecked
      · rename_i hsource htarget
        exact ⟨not_not.1 hsource, not_not.1 htarget⟩

theorem answer_eq (h : request.Asks r) (p : PlainWallet) :
    p.answer request = p.conclude (p.exchange r) := by
  obtain ⟨asked, rfl, hcheck⟩ := h
  rw [PlainWallet.answer, PlainWallet.perform_exchange, hcheck]
  rfl

theorem answer (h : request.Asks r) {p : PlainWallet} (hp : p.isStalled = false) :
    p.answer request = p.conclude (p.trade r) := by
  rw [h.answer_eq, PlainWallet.exchange, hp]
  rfl

theorem answer_of_stalled (h : request.Asks r) {p : PlainWallet} (hp : p.isStalled = true) :
    p.answer request = (p, .overflowed .moment) := by
  rw [h.answer_eq, PlainWallet.exchange, hp]
  rfl

end WalletRequest.Asks

namespace PlainWallet

structure Joins (p : PlainWallet) (request : WalletRequest) (w : Wallet) (t : ExchangeTask) :
    Prop where
  funds : w.ledger.balance? = p.funds
  asked : request.Asks t.run.request
  flows : p.isStalled = false
  flight : t.run.stage = .inFlight
  uncancelled : t.cancelled = false
  funding : ∀ found, t.funding = some found → found = w.fund t.run.request
  search : t.resolution.Tracks w.desk.rates t.run.request.pair

structure Settles (p : PlainWallet) (request : WalletRequest) (w : Wallet) (t : ExchangeTask)
    (f : Funding) (rate : ResolvedRate) (pricing : Pricing) : Prop where
  funds : w.ledger.balance? = p.funds
  asked : request.Asks t.run.request
  flows : p.isStalled = false
  funding : w.fund t.run.request = .ok f
  priced : t.run.Priced f rate pricing
  trade : p.trade t.run.request =
    .ok (p.exchanged t.run.request pricing,
      .receipt ((p.exchanged t.run.request pricing).receiptOf t.run.request rate.rate pricing))

/-- A request to a wallet that was like `p`, as far as it can have come when nothing else has been
done to the wallet: before its end the balances are as they were, and at its end they and the answer
are those of the plain wallet. -/
inductive Foresees (p : PlainWallet) (request : WalletRequest) (w : Wallet) : Task → Prop
  | waiting (id : ExchangeId) (h : w.ledger.balance? = p.funds) :
    Foresees p request w (.waiting id request)
  | joining {t : ExchangeTask} (h : p.Joins request w t) : Foresees p request w (.exchanging t)
  | settling {t : ExchangeTask} {f : Funding} {rate : ResolvedRate} {pricing : Pricing}
    (h : p.Settles request w t f rate pricing) : Foresees p request w (.exchanging t)
  | answered {result : WalletResult} {search : Option Resolution}
    (h : p.answer request = (p.holding w.ledger, plainResult result)) :
    Foresees p request w (.finished result search)

section Foresees

variable {p : PlainWallet} {w : Wallet} {request : WalletRequest} {t : ExchangeTask}

theorem foresees_begin (hfits : p.Fits w) (hfunds : w.ledger.balance? = p.funds)
    (hreach : w.ledger.Reachable) (now : Nat) (id : ExchangeId) (request : WalletRequest) :
    p.Foresees request ((Task.waiting id request).move now w .begin).1
      ((Task.waiting id request).move now w .begin).2 := by
  simp only [Task.move]
  cases hcheck : request.check with
  | error e =>
    refine .answered ?_
    rw [answer, perform_of_error p hcheck, holding_of_funds hfunds]
    rfl
  | ok admitted =>
    cases request with
    | balance u =>
      obtain rfl := WalletRequest.check_balance hcheck
      refine .answered ?_
      change _ = (p.holding w.ledger, _)
      rw [answer, perform_balance, hcheck, holding_of_funds hfunds, ← hfunds]
      rfl
    | openAccounts u =>
      obtain rfl := WalletRequest.check_openAccounts hcheck
      refine .answered ?_
      have hopened : p.holding (w.ledger.openAccounts u).1 = p.opened u := by
        refine holding_eq ?_ rfl
        funext v c
        rw [hreach.wellFormed.balance?_openAccounts, hfunds, opened]
        simp only [hfits.currencies]
      change _ = (p.holding (w.ledger.openAccounts u).1,
        Attempt.ok (PlainReply.balances (w.ledger.openAccounts u).2.get?))
      rw [answer, perform_openAccounts, hcheck, Ledger.openAccounts_snd, ← hopened]
      rfl
    | move m u c amount =>
      obtain ⟨rfl, hamount⟩ := WalletRequest.check_move_admitted hcheck
      refine .answered ?_
      have hledger : (Task.beginAdmitted w id
          (.move m (.apply u c (m.delta amount.roundAmount)))).1.ledger =
          (w.ledger.perform (.apply u c (m.delta amount.roundAmount))).1 :=
        Wallet.ledger_recordAll _ _
      rw [hledger, answer, perform_move, hcheck]
      exact conclude_transfer hfits hfunds hreach hamount m u c
    | exchange r =>
      obtain ⟨checked, rfl, hchecked⟩ := WalletRequest.check_exchange hcheck
      have hasks : (WalletRequest.exchange r).Asks checked := ⟨r, rfl, hchecked⟩
      by_cases hwithin : IsWithinReach w.exchangeTimeout
      · simp only [Task.beginAdmitted_of_reach hwithin]
        have hflows : p.isStalled = false := by
          rw [← Bool.not_eq_true, hfits.stalled]
          exact not_not.2 hwithin
        refine .joining ⟨hfunds, hasks, hflows, rfl, rfl, ?_, Resolution.tracks_start _ _ _⟩
        intro found hfound
        cases hfound
      · simp only [Task.beginAdmitted_of_not_reach hwithin]
        refine .answered ?_
        rw [hasks.answer_of_stalled (hfits.stalled.2 hwithin), holding_of_funds hfunds]
        rfl

theorem foresees_exchanging (h : p.Foresees request w (.exchanging t))
    (hresult : t.run.result? = none) :
    p.Foresees request (Task.conclude w t).1 (Task.conclude w t).2 := by
  rw [Task.conclude_of_none hresult]
  exact h

theorem foresees_finished {result : Attempt ExchangeFailure ExchangeOutcome}
    (hresult : t.run.result? = some result)
    (h : p.answer request = (p.holding w.ledger, plainResult (Wallet.outcomeResult result))) :
    p.Foresees request (Task.conclude w t).1 (Task.conclude w t).2 := by
  rw [Task.conclude_of_some hresult]
  refine .answered ?_
  rw [Wallet.ledger_recordAll]
  exact h

theorem Joins.isCovered {f : Funding} {rate : ResolvedRate} (h : p.Joins request w t)
    (hreach : w.ledger.Reachable) (hfund : w.fund t.run.request = .ok f)
    (hrate : rate.rate.IsPositive) : (t.run.pricingInput f rate).IsCovered := by
  have hcovers := Ledger.covers_fund hreach hfund
  exact ⟨hrate, h.asked.amount, hcovers.enough, hcovers.nonneg⟩

theorem Joins.answer_refused {e : ExchangeError} (h : p.Joins request w t)
    (htrade : p.trade t.run.request = .refused e) :
    p.answer request = (p.holding w.ledger, .refused e) := by
  rw [h.asked.answer h.flows, htrade, holding_of_funds h.funds]
  rfl

theorem Joins.rate_cases {result : RateResult} (h : p.Joins request w t) (hfits : p.Fits w)
    (husable : w.desk.rates.AllUsable) (hresult : t.resolution.result? = some result) :
    (∃ rate, result = .ok rate ∧ p.rate? t.run.request.pair = some rate.rate ∧
      rate.rate.IsPositive) ∨
    result = .error (.unsupported t.run.request.pair) ∧ p.rate? t.run.request.pair = none := by
  obtain ⟨hsource, htarget⟩ := h.asked.isValid
  have hrates := hfits.rates t.run.request.pair hsource htarget
  obtain ⟨rate, source, hrate, rfl⟩ | ⟨hnone, rfl⟩ := h.search.answers hresult
  · exact Or.inl ⟨_, rfl, hrates.symm.trans hrate, husable _ _ hrate⟩
  · exact Or.inr ⟨rfl, hrates.symm.trans hnone⟩

theorem Joins.price {f : Funding} {rate : ResolvedRate} (h : p.Joins request w t)
    (hreach : w.ledger.Reachable) (hfund : w.fund t.run.request = .ok f)
    (hrate : p.rate? t.run.request.pair = some rate.rate) (hpositive : rate.rate.IsPositive)
    {t' : ExchangeTask} (hrun : t'.run =
      { t.run with
        stage := match Pricing.compute (t.run.pricingInput f rate) with
          | .ok pricing => .computed f rate pricing
          | .refused e => .failed ⟨.computeFailed, e.toExchangeError⟩
          | .overflowed o => .broken .joined o }) :
    p.Foresees request (Task.conclude w t').1 (Task.conclude w t').2 := by
  have hcovered := h.isCovered hreach hfund hpositive
  have htrade := trade_of_covered h.funds hfund hrate hcovered
  cases hcompute : Pricing.compute (t.run.pricingInput f rate) with
  | refused e => exact absurd hcompute (Pricing.compute_ne_refused hcovered e)
  | overflowed o =>
    rw [hcompute] at htrade hrun
    refine foresees_finished (by rw [hrun]; rfl) ?_
    rw [h.asked.answer h.flows, htrade, holding_of_funds h.funds]
    rfl
  | ok pricing =>
    rw [hcompute] at htrade hrun
    have hsettles : p.Settles request w t' f rate pricing := by
      constructor
      case funds => exact h.funds
      case flows => exact h.flows
      all_goals rw [hrun]
      case asked => exact h.asked
      case funding => exact hfund
      case priced => exact ⟨h.asked.distinct, hcompute, rfl⟩
      case trade => exact htrade
    exact foresees_exchanging (.settling hsettles) (by rw [hrun]; rfl)

/-- The join of an exchange whose balances are there: it waits for its rate, it ends as the trade of
the plain wallet does, or it has the price of that trade. -/
theorem Joins.join (h : p.Joins request w t) (hfits : p.Fits w) (hw : w.Regular)
    (hfunded : t.funding.isSome) (now : Nat) :
    p.Foresees request (Task.moveExchange now w t .join).1 (Task.moveExchange now w t .join).2 := by
  obtain ⟨found, hfound⟩ := Option.isSome_iff_exists.1 hfunded
  obtain rfl := h.funding found hfound
  have hview : t.view = ⟨false, some (w.fund t.run.request), t.resolution.result?⟩ := by
    rw [ExchangeTask.view, h.uncancelled, hfound]
  simp only [Task.moveExchange]
  rw [hview, ExchangeRun.join_of_inFlight _ h.flight]
  cases hfund : w.fund t.run.request with
  | error e => exact foresees_finished rfl (h.answer_refused (trade_of_error h.funds hfund))
  | ok f =>
    cases hresult : t.resolution.result? with
    | none =>
      refine foresees_exchanging (.joining ?_) rfl
      exact ⟨h.funds, h.asked, h.flows, rfl, h.uncancelled, h.funding, h.search⟩
    | some result =>
      obtain ⟨rate, rfl, hrate, hpositive⟩ | ⟨rfl, hnone⟩ :=
        h.rate_cases hfits hw.faithful.usable hresult
      · exact h.price hw.reachable hfund hrate hpositive rfl
      · exact foresees_finished rfl (h.answer_refused (trade_of_missing h.funds hfund hnone))

theorem Settles.confirms {f : Funding} {rate : ResolvedRate} {pricing : Pricing}
    (h : p.Settles request w t f rate pricing) : w.ledger.Confirms t.run.request f :=
  (Wallet.confirms_iff_sameRows h.funding).2 ⟨rfl, rfl⟩

theorem Settles.holding_eq {f : Funding} {rate : ResolvedRate} {pricing : Pricing}
    (h : p.Settles request w t f rate pricing) :
    p.holding (w.ledger.commit t.run.request.user
      (Ledger.settledRevision (t.run.settlement f pricing))) =
        p.exchanged t.run.request pricing := by
  obtain ⟨hsource, -, -, -⟩ := Funding.check_eq_ok.1 h.funding
  have hopen := Ledger.contains_of_balance? hsource
  refine PlainWallet.holding_eq ?_ rfl
  funext u c
  have hafter := Ledger.balance?_commit_settled (s := t.run.settlement f pricing) hopen u c
  rw [h.funds] at hafter
  exact hafter

theorem Settles.plain_outcome {f : Funding} {rate : ResolvedRate} {pricing : Pricing}
    (h : p.Settles request w t f rate pricing) :
    (t.run.outcome f rate pricing).receipt =
      (p.exchanged t.run.request pricing).receiptOf t.run.request rate.rate pricing := by
  obtain ⟨-, -, -, hbalances⟩ := Funding.check_eq_ok.1 h.funding
  have hlookup : (t.run.outcome f rate pricing).balances.get? =
      (p.exchanged t.run.request pricing).funds t.run.request.user := by
    funext c
    simp only [ExchangeRun.outcome, Table.get?_insert, exchanged, put, hbalances, ← h.funds,
      true_and]
    rfl
  rw [ExchangeOutcome.receipt, hlookup]
  rfl

theorem Settles.settle {f : Funding} {rate : ResolvedRate} {pricing : Pricing}
    (h : p.Settles request w t f rate pricing) (hreach : w.ledger.Reachable) (now : Nat) :
    p.Foresees request (Task.moveExchange now w t .settle).1
      (Task.moveExchange now w t .settle).2 := by
  have hcovers := Ledger.covers_fund hreach h.funding
  simp only [Task.moveExchange]
  obtain ⟨-, heq⟩ | ⟨hchanged, -⟩ := Wallet.settle_cases h.priced hcovers.toServes
  · rw [heq]
    refine foresees_finished rfl ?_
    rw [h.asked.answer h.flows, h.trade, h.holding_eq, ← h.plain_outcome]
    rfl
  · exact absurd h.confirms hchanged

theorem Fits.move (h : p.Fits w) (now : Nat) (t : Task) (m : Move) :
    p.Fits (t.move now w m).1 where
  stalled := by
    rw [Task.exchangeTimeout_move]
    exact h.stalled
  currencies := by
    obtain ⟨calls, hledger⟩ := Task.ledger_move now w t m
    rw [hledger, Ledger.currencies_run]
    exact h.currencies
  rates := by
    rw [Task.rates_move]
    exact h.rates

theorem Joins.move (h : p.Joins request w t) (hfits : p.Fits w) (hw : w.Regular) {m : Move}
    (hm : (Task.exchanging t).Admits m) (now : Nat) :
    p.Foresees request (Task.moveExchange now w t m).1 (Task.moveExchange now w t m).2 := by
  cases m with
  | begin => exact .joining h
  | fund =>
    refine .joining ⟨h.funds, h.asked, h.flows, h.flight, h.uncancelled, ?_, h.search⟩
    intro found hfound
    cases hbefore : t.funding with
    | none =>
      rw [hbefore] at hfound
      exact (Option.some.inj hfound).symm
    | some before =>
      rw [hbefore] at hfound
      exact h.funding found (hbefore.trans hfound)
  | serveRate =>
    have hassists := hw.faithful.assist h.search now
    refine .joining ⟨h.funds, h.asked, h.flows, h.flight, h.uncancelled, h.funding, ?_⟩
    change Resolution.Tracks (w.desk.assist now t.resolution).1.rates _ _
    rw [RateDesk.rates_assist]
    exact hassists.tracks
  | cancel => exact absurd rfl hm.1
  | join => exact h.join hfits hw (hm.2 t rfl rfl) now
  | settle =>
    simp only [Task.moveExchange]
    rw [Wallet.settle_of_pending (ExchangeRun.pending?_of_inFlight h.flight)]
    refine foresees_exchanging (.joining h) ?_
    unfold ExchangeRun.result?
    rw [h.flight]

theorem Settles.move {f : Funding} {rate : ResolvedRate} {pricing : Pricing}
    (h : p.Settles request w t f rate pricing) (hreach : w.ledger.Reachable) {m : Move}
    (hm : (Task.exchanging t).Admits m) (now : Nat) :
    p.Foresees request (Task.moveExchange now w t m).1 (Task.moveExchange now w t m).2 := by
  cases m with
  | begin => exact .settling h
  | fund => exact .settling ⟨h.funds, h.asked, h.flows, h.funding, h.priced, h.trade⟩
  | serveRate => exact .settling ⟨h.funds, h.asked, h.flows, h.funding, h.priced, h.trade⟩
  | cancel => exact absurd rfl hm.1
  | join =>
    simp only [Task.moveExchange]
    rw [ExchangeRun.step_looked_of_computed h.priced.stage,
      ExchangeRun.step_priced_of_computed h.priced.stage]
    refine foresees_exchanging (.settling h) ?_
    unfold ExchangeRun.result?
    rw [h.priced.stage]
  | settle => exact h.settle hreach now

/-- What a move of the only request under way comes to is foreseen. -/
theorem Foresees.move {t : Task} (h : p.Foresees request w t) (hfits : p.Fits w) (hw : w.Regular)
    {m : Move} (hm : t.Admits m) (now : Nat) :
    p.Foresees request (t.move now w m).1 (t.move now w m).2 := by
  cases h with
  | waiting id hfunds =>
    cases m with
    | begin => exact foresees_begin hfits hfunds hw.reachable now id request
    | _ => exact .waiting id hfunds
  | joining h => exact h.move hfits hw hm now
  | settling h => exact h.move hw.reachable hm now
  | @answered result search h =>
    cases search with
    | none => exact .answered h
    | some search =>
      cases m with
      | serveRate => exact .answered h
      | _ => exact .answered h

end Foresees

end PlainWallet

end CurrencyWallet

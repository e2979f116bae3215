import CurrencyWallet.Proofs.Exchange.Pricing
import CurrencyWallet.Proofs.Ledger.Money
import CurrencyWallet.Wallet.Service

/-!
The settlement of a priced exchange. It asks for a valid settlement of two rows; over a ledger that
has both, the exchange is done if they still hold the checked values and otherwise fails with a
conflict (`Wallet.settle_cases`).
-/
namespace CurrencyWallet

structure ExchangeRun.Priced (run : ExchangeRun) (funding : Funding) (rate : ResolvedRate)
    (pricing : Pricing) : Prop where
  distinct : run.request.source ≠ run.request.target
  priced : Pricing.compute (run.pricingInput funding rate) = .ok pricing
  stage : run.stage = .computed funding rate pricing

structure Ledger.Serves (l : Ledger) (r : ExchangeRequest) : Prop where
  wellFormed : l.WellFormed
  opened : l.users.contains r.user = true
  source : r.source ∈ l.currencies
  target : r.target ∈ l.currencies

/-- Both rows of an exchange hold the values it was checked against. -/
def Ledger.Confirms (l : Ledger) (r : ExchangeRequest) (funding : Funding) : Prop :=
  l.value? r.user r.source = some funding.source.toRat ∧
    l.value? r.user r.target = some funding.target.toRat

theorem Funding.check_eq_ok {b : Balances} {source target : Currency} {amount : Decimal}
    {f : Funding} : Funding.check b source target amount = .ok f ↔
      b.get? source = some f.source ∧ b.get? target = some f.target ∧ ¬ f.source < amount ∧
        f.balances = b := by
  obtain ⟨balances, sourceBalance, targetBalance⟩ := f
  constructor
  · intro h
    unfold check at h
    cases hs : b.get? source with
    | none => simp [hs] at h
    | some s =>
      cases ht : b.get? target with
      | none => simp [hs, ht] at h
      | some t =>
        by_cases hshort : s < amount
        · simp [hs, ht, hshort] at h
        · simp only [hs, ht, if_neg hshort] at h
          cases h
          exact ⟨rfl, rfl, hshort, rfl⟩
  · rintro ⟨hs, ht, henough, rfl⟩
    unfold check
    simp only [hs, ht, if_neg henough]

theorem JoinView.verdict_cases (v : JoinView) :
    v.verdict = none ∨
    v.cancelled = true ∧ v.verdict = some (.error ⟨.deadlineExceeded, .deadlineExceeded⟩) ∨
    (∃ e, v.funding = some (.error e) ∧
      v.verdict = some (.error ⟨.validationFailed, .ofLedger e⟩)) ∨
    (∃ e, v.rate = some (.error e) ∧ v.verdict = some (.error ⟨.rateFailed, .ofRate e⟩)) ∨
    ∃ funding rate, v.cancelled = false ∧ v.funding = some (.ok funding) ∧
      v.rate = some (.ok rate) ∧ v.verdict = some (.ok (funding, rate)) := by
  obtain ⟨cancelled, funding, rate⟩ := v
  cases cancelled with
  | true => exact Or.inr (Or.inl ⟨rfl, rfl⟩)
  | false =>
    match funding, rate with
    | some (.error e), _ => exact Or.inr (Or.inr (Or.inl ⟨e, rfl, rfl⟩))
    | none, some (.error e) => exact Or.inr (Or.inr (Or.inr (Or.inl ⟨e, rfl, rfl⟩)))
    | some (.ok _), some (.error e) => exact Or.inr (Or.inr (Or.inr (Or.inl ⟨e, rfl, rfl⟩)))
    | some (.ok f), some (.ok r) =>
      exact Or.inr (Or.inr (Or.inr (Or.inr ⟨f, r, rfl, rfl, rfl, rfl⟩)))
    | none, none => exact Or.inl rfl
    | none, some (.ok _) => exact Or.inl rfl
    | some (.ok _), none => exact Or.inl rfl

theorem JoinView.funding_of_verdict {v : JoinView} {funding : Funding} {rate : ResolvedRate}
    (h : v.verdict = some (.ok (funding, rate))) : v.funding = some (.ok funding) := by
  obtain hv | ⟨-, hv⟩ | ⟨e, -, hv⟩ | ⟨e, -, hv⟩ | ⟨f, r, -, hfunding, -, hv⟩ := v.verdict_cases <;>
    cases hv.symm.trans h
  exact hfunding

namespace ExchangeRun

variable {run : ExchangeRun} {funding : Funding} {rate : ResolvedRate} {pricing : Pricing}

theorem pending?_of_inFlight (h : run.stage = .inFlight) : run.pending? = none := by
  unfold pending?
  rw [h]

theorem step_priced (h : run.stage = .joined funding rate) :
    run.step .priced =
      { run with
        stage := match Pricing.compute (run.pricingInput funding rate) with
          | .ok pricing => .computed funding rate pricing
          | .refused e => .failed ⟨.computeFailed, e.toExchangeError⟩
          | .overflowed o => .broken .joined o } := by
  obtain ⟨id, request, stage⟩ := run
  cases h
  rfl

theorem step_looked_of_computed {view : JoinView} (h : run.stage = .computed funding rate pricing) :
    run.step (.looked view) = run := by
  obtain ⟨id, request, stage⟩ := run
  cases h
  rfl

theorem step_priced_of_computed (h : run.stage = .computed funding rate pricing) :
    run.step .priced = run := by
  obtain ⟨id, request, stage⟩ := run
  cases h
  rfl

theorem join_of_inFlight (v : JoinView) (h : run.stage = .inFlight) :
    (run.step (.looked v)).step .priced =
      { run with
        stage := match v.verdict with
          | none => .inFlight
          | some (.error failure) => .failed failure
          | some (.ok (funding, rate)) =>
            match Pricing.compute (run.pricingInput funding rate) with
            | .ok pricing => .computed funding rate pricing
            | .refused e => .failed ⟨.computeFailed, e.toExchangeError⟩
            | .overflowed o => .broken .joined o } := by
  obtain ⟨id, request, stage⟩ := run
  cases h
  cases hverdict : v.verdict with
  | none => simp only [step, nextStage, hverdict]
  | some verdict =>
    cases verdict with
    | error failure => simp only [step, nextStage, hverdict]
    | ok both =>
      have hjoined : step ⟨id, request, .inFlight⟩ (.looked v) =
          ⟨id, request, .joined both.1 both.2⟩ := by
        simp only [step, nextStage, hverdict]
      rw [hjoined, step_priced rfl]
      rfl

theorem join_cases {v : JoinView} (h : run.stage = .inFlight) :
    ((run.step (.looked v)).step .priced).stage = .inFlight ∨
    (∃ funding rate pricing, v.funding = some (.ok funding) ∧
      Pricing.compute (run.pricingInput funding rate) = .ok pricing ∧
      ((run.step (.looked v)).step .priced).stage = .computed funding rate pricing) ∨
    ∃ result, ((run.step (.looked v)).step .priced).result? = some result ∧
      result.isOk = false := by
  rw [join_of_inFlight v h]
  obtain hverdict | ⟨-, hverdict⟩ | ⟨e, -, hverdict⟩ | ⟨e, -, hverdict⟩ |
    ⟨funding, rate, -, hfunding, -, hverdict⟩ := v.verdict_cases
  · exact Or.inl (by rw [hverdict])
  · exact Or.inr (Or.inr ⟨_, by rw [hverdict]; rfl, rfl⟩)
  · exact Or.inr (Or.inr ⟨_, by rw [hverdict]; rfl, rfl⟩)
  · exact Or.inr (Or.inr ⟨_, by rw [hverdict]; rfl, rfl⟩)
  · rw [hverdict]
    right
    cases hp : Pricing.compute (run.pricingInput funding rate) with
    | ok pricing => exact Or.inl ⟨funding, rate, pricing, hfunding, hp, by simp only [hp]⟩
    | refused e => exact Or.inr ⟨_, by simp only [hp]; rfl, rfl⟩
    | overflowed o => exact Or.inr ⟨_, by simp only [hp]; rfl, rfl⟩

theorem Priced.validate (h : run.Priced funding rate pricing) :
    (run.settlement funding pricing).validate = .ok () := by
  obtain ⟨-, -, product, rest, sum, -, -, -, hrest, hsum, rfl⟩ := Pricing.compute_eq_ok.1 h.priced
  exact Settlement.validate_eq_ok.2 ⟨h.distinct, hrest, hsum⟩

end ExchangeRun

@[simp] theorem Wallet.ledger_recordAll (w : Wallet) (events : Option MetricEvent) :
    (w.recordAll events).ledger = w.ledger := by
  cases events <;> rfl

theorem Wallet.settle_of_pending {w : Wallet} {run : ExchangeRun} (h : run.pending? = none) :
    w.settle run = (w, run) := by
  unfold settle
  rw [h]

theorem Wallet.settle_of_stage {w : Wallet} {run : ExchangeRun} {funding : Funding}
    {rate : ResolvedRate} {pricing : Pricing} (h : run.stage = .computed funding rate pricing) :
    w.settle run =
      ({ w with ledger := (w.ledger.perform (.settle (run.settlement funding pricing))).1 },
        { run with
          stage := match (w.ledger.perform (.settle (run.settlement funding pricing))).2 with
            | .ok _ => .done (run.outcome funding rate pricing)
            | .refused e => .failed ⟨.commitFailed, .ofLedger e⟩
            | .overflowed o => .broken .computed o }) := by
  have hpending : run.pending? = some (run.settlement funding pricing) := by
    rw [ExchangeRun.pending?, h]
  unfold Wallet.settle
  rw [hpending]
  simp only [Wallet.call, ExchangeRun.step, ExchangeRun.nextStage, h]
  cases (w.ledger.perform (.settle (run.settlement funding pricing))).2 <;> rfl

/-- The exchange is done and both new balances are written, or it fails with the first conflict and
nothing is changed. -/
theorem Wallet.settle_cases {w : Wallet} {run : ExchangeRun} {funding : Funding}
    {rate : ResolvedRate} {pricing : Pricing} (h : run.Priced funding rate pricing)
    (hl : w.ledger.Serves run.request) :
    (w.ledger.Confirms run.request funding ∧
      w.settle run =
        ({ w with
            ledger := w.ledger.commit run.request.user
              (Ledger.settledRevision (run.settlement funding pricing)) },
          { run with stage := .done (run.outcome funding rate pricing) })) ∨
    ¬ w.ledger.Confirms run.request funding ∧ ∃ leg found,
      (run.settlement funding pricing).Conflict (w.ledger.balances run.request.user) leg found ∧
      w.settle run =
        (w,
          { run with
            stage := .failed
              ⟨.commitFailed, .balanceConflict leg.currency leg.expected found⟩ }) := by
  have hrows : ∀ c ∈ (Ledger.Call.settle (run.settlement funding pricing)).rows,
      c ∈ w.ledger.currencies := fun c hc => by
    obtain rfl | rfl := Ledger.mem_rows_settle.1 hc
    · exact hl.source
    · exact hl.target
  rw [settle_of_stage h.stage]
  obtain ⟨hsource, htarget, heq⟩ | ⟨hchanged, leg, found, hconflict, heq⟩ :=
    Ledger.settle_cases hl.wellFormed h.validate hl.opened hrows
  · rw [heq]
    exact Or.inl ⟨⟨hsource, htarget⟩, rfl⟩
  · rw [heq]
    exact Or.inr ⟨hchanged, leg, found, hconflict, rfl⟩

/-! ### What an exchange moves -/

section Moves

open Decimal (amountScale)

variable {l : Ledger} {run : ExchangeRun} {funding : Funding} {rate : ResolvedRate}
  {pricing : Pricing}

theorem Ledger.holdsMoney_commit_settled (h : run.Priced funding rate pricing)
    (hopen : l.users.contains run.request.user = true) (hmoney : l.HoldsMoney) :
    (l.commit run.request.user
      (settledRevision (run.settlement funding pricing))).HoldsMoney := by
  obtain ⟨hsource, htarget⟩ := Pricing.isMoney_of_compute h.priced
  intro v d b hb
  by_cases hrow : v = run.request.user ∧ (d = run.request.source ∨ d = run.request.target)
  · obtain ⟨rfl, rfl | rfl⟩ := hrow
    · have hafter := balance?_commit_source (s := run.settlement funding pricing) hopen h.distinct
      cases hb.symm.trans hafter
      exact hsource
    · have hafter := balance?_commit_target (s := run.settlement funding pricing) hopen
      cases hb.symm.trans hafter
      exact htarget
  · have hafter := balance?_commit_of_not (s := run.settlement funding pricing) hopen hrow
    exact hmoney v d b (hafter.symm.trans hb)

theorem Ledger.amount_commit_settled (h : run.Priced funding rate pricing)
    (hopen : l.users.contains run.request.user = true) (hconfirms : l.Confirms run.request funding)
    (hsource : funding.source.scale ≤ amountScale) (htarget : funding.target.scale ≤ amountScale)
    (hamount : run.request.amount.scale ≤ amountScale)
    (hrange : (l.commit run.request.user
      (settledRevision (run.settlement funding pricing))).InRange) (v : UserId) (d : Currency) :
    (l.commit run.request.user (settledRevision (run.settlement funding pricing))).amount v d =
      l.amount v d +
        (if run.request.user = v ∧ run.request.target = d then pricing.received.toRat else 0) -
        if run.request.user = v ∧ run.request.source = d then run.request.amount.toRat else 0 := by
  have hs := balance?_commit_source (s := run.settlement funding pricing) hopen h.distinct
  have ht := balance?_commit_target (s := run.settlement funding pricing) hopen
  obtain ⟨hspent, hreceived⟩ := Pricing.toRat_of_compute h.priced hsource htarget hamount
    (hrange _ _ _ hs) (hrange _ _ _ ht)
  by_cases hrow : v = run.request.user ∧ (d = run.request.source ∨ d = run.request.target)
  · obtain ⟨rfl, rfl | rfl⟩ := hrow
    · have hbefore : l.amount run.request.user run.request.source = funding.source.toRat := by
        rw [amount, hconfirms.1]
        rfl
      rw [if_neg fun hrow => h.distinct hrow.2.symm, if_pos ⟨rfl, rfl⟩, hbefore, add_zero]
      exact (amount_of_balance? hs).trans hspent
    · have hbefore : l.amount run.request.user run.request.target = funding.target.toRat := by
        rw [amount, hconfirms.2]
        rfl
      rw [if_pos ⟨rfl, rfl⟩, if_neg fun hrow => h.distinct hrow.2, hbefore, sub_zero]
      exact (amount_of_balance? ht).trans hreceived
  · have hafter := balance?_commit_of_not (s := run.settlement funding pricing) hopen hrow
    rw [if_neg fun hr => hrow ⟨hr.1.symm, Or.inr hr.2.symm⟩,
      if_neg fun hr => hrow ⟨hr.1.symm, Or.inl hr.2.symm⟩, add_zero, sub_zero]
    exact amount_congr hafter

end Moves

end CurrencyWallet

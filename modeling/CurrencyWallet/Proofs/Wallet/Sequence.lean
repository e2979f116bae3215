import CurrencyWallet.Proofs.Wallet.Refinement

/-!
Requests that are made one after another. Whenever the moves between the beginning and the end of
each are made, and whatever the cache holds by then, they are answered as by the plain wallet, and
the balances are those of the plain wallet afterwards. A request that is carried out at once is
answered in this sense.
-/
namespace CurrencyWallet

inductive Task.Proceeds (w : Wallet) (t : Task) : Wallet → Task → Prop
  | start : Proceeds w t w t
  | move {w' : Wallet} {t' : Task} {m : Move} (h : Proceeds w t w' t') (hm : t'.Admits m)
    (now : Nat) : Proceeds w t (t'.move now w' m).1 (t'.move now w' m).2

/-- The request alone is answered, and when its search has ended as well, the wallet is `w'`. -/
def Wallet.Answers (w : Wallet) (id : ExchangeId) (request : WalletRequest) (result : WalletResult)
    (w' : Wallet) : Prop :=
  ∃ search : Option Resolution, (∀ r, search = some r → r.request? = none) ∧
    (Task.waiting id request).Proceeds w w' (.finished result search)

inductive Wallet.AnswersAll :
    Wallet → List (ExchangeId × WalletRequest) → List WalletResult → Wallet → Prop
  | nil {w : Wallet} : AnswersAll w [] [] w
  | cons {w w₁ w₂ : Wallet} {id : ExchangeId} {request : WalletRequest}
    {requests : List (ExchangeId × WalletRequest)} {result : WalletResult}
    {results : List WalletResult} (h : w.Answers id request result w₁)
    (hrest : AnswersAll w₁ requests results w₂) :
    AnswersAll w ((id, request) :: requests) (result :: results) w₂

section Runs

variable {p : PlainWallet} {w w' : Wallet} {t t' : Task} {request : WalletRequest}

theorem Task.Proceeds.regular (h : t.Proceeds w w' t') (hw : w.Regular) (ht : t.Regular w) :
    w'.Regular ∧ t'.Regular w' := by
  induction h with
  | start => exact ⟨hw, ht⟩
  | move h hm now ih => exact kept_regular.move now _ _ _ ih.1 ih.2

theorem Task.Proceeds.foresees (h : t.Proceeds w w' t') (hw : w.Regular) (ht : t.Regular w)
    (hfits : p.Fits w) (hforesees : p.Foresees request w t) :
    p.Fits w' ∧ p.Foresees request w' t' := by
  induction h with
  | start => exact ⟨hfits, hforesees⟩
  | move h hm now ih =>
    obtain ⟨hregular, -⟩ := h.regular hw ht
    obtain ⟨hfits', hforesees'⟩ := ih
    exact ⟨hfits'.move now _ _, hforesees'.move hfits' hregular hm now⟩

theorem Task.regular_waiting (w : Wallet) (id : ExchangeId) (request : WalletRequest) :
    (waiting id request).Regular w := ⟨trivial, nofun, nofun⟩

theorem Wallet.Answers.regular {id : ExchangeId} {result : WalletResult}
    (h : w.Answers id request result w') (hw : w.Regular) : w'.Regular := by
  obtain ⟨search, -, hproceeds⟩ := h
  exact (hproceeds.regular hw (Task.regular_waiting w id request)).1

theorem Wallet.Answers.plain {id : ExchangeId} {result : WalletResult}
    (h : w.Answers id request result w') (hw : w.Regular) (hfits : p.Fits w)
    (hfunds : w.ledger.balance? = p.funds) :
    p.Fits w' ∧ p.answer request = (p.holding w'.ledger, plainResult result) := by
  obtain ⟨search, -, hproceeds⟩ := h
  obtain ⟨hfits', hforesees⟩ :=
    hproceeds.foresees hw (Task.regular_waiting w id request) hfits (.waiting id hfunds)
  cases hforesees with
  | answered hanswer => exact ⟨hfits', hanswer⟩

theorem Wallet.AnswersAll.plain {requests : List (ExchangeId × WalletRequest)}
    {results : List WalletResult} (h : w.AnswersAll requests results w') (hw : w.Regular)
    (hfits : p.Fits w) (hfunds : w.ledger.balance? = p.funds) :
    p.run (requests.map (·.2)) = (p.holding w'.ledger, results.map plainResult) := by
  induction h generalizing p with
  | nil =>
    rw [PlainWallet.holding_of_funds hfunds]
    rfl
  | @cons w w₁ w₂ id request requests result results h hrest ih =>
    obtain ⟨hfits₁, hanswer⟩ := h.plain hw hfits hfunds
    have hrun := ih (h.regular hw) (p := p.holding w₁.ledger)
      ⟨hfits₁.stalled, hfits₁.currencies, hfits₁.rates⟩ rfl
    rw [List.map_cons, PlainWallet.run, hanswer]
    simp only [hrun, List.map_cons]
    rfl

/-! ### Answers -/

theorem Task.Proceeds.assistAll {e : ExchangeTask} (h : t.Proceeds w w' (.exchanging e))
    (now calls : Nat) :
    t.Proceeds w { w' with desk := (RateDesk.assistAll now calls w'.desk e.resolution).1 }
      (.exchanging
        { e with resolution := (RateDesk.assistAll now calls w'.desk e.resolution).2 }) := by
  induction calls generalizing w' e with
  | zero => exact h
  | succ calls ih =>
    have hserve : (Task.exchanging e).Admits .serveRate :=
      Task.admits_of_ne (by decide) (by decide)
    exact ih (.move h hserve now)

theorem ExchangeRun.ended_or_computed {run : ExchangeRun} {id : ExchangeId} {r : ExchangeRequest}
    {found : Except LedgerError Funding} {rate : RateResult}
    (hrun : run = (start id r).run [.launched, .looked ⟨false, some found, some rate⟩, .priced]) :
    (∃ result, run.result? = some result ∧ run.pending? = none) ∨
      ∃ f rate' pricing, run.stage = .computed f rate' pricing := by
  have hjoin : run = (((start id r).step .launched).step
      (.looked ⟨false, some found, some rate⟩)).step .priced := hrun
  rw [join_of_inFlight _ rfl] at hjoin
  subst hjoin
  cases found with
  | error e => exact Or.inl ⟨_, rfl, rfl⟩
  | ok f =>
    cases rate with
    | error e => exact Or.inl ⟨_, rfl, rfl⟩
    | ok rate =>
      have hverdict : JoinView.verdict ⟨false, some (.ok f), some (.ok rate)⟩ =
          some (.ok (f, rate)) := rfl
      rw [hverdict]
      cases hcompute : Pricing.compute
        (((start id r).step .launched).pricingInput f rate) with
      | ok pricing =>
        simp only [hcompute]
        exact Or.inr ⟨_, _, _, rfl⟩
      | refused e =>
        simp only [hcompute]
        exact Or.inl ⟨_, rfl, rfl⟩
      | overflowed o =>
        simp only [hcompute]
        exact Or.inl ⟨_, rfl, rfl⟩

theorem Wallet.exists_result_settle {run : ExchangeRun} {f : Funding} {rate : ResolvedRate}
    {pricing : Pricing} (h : run.stage = .computed f rate pricing) :
    ∃ result, (w.settle run).2.result? = some result := by
  rw [settle_of_stage h]
  cases (w.ledger.perform (.settle (run.settlement f pricing))).2 with
  | ok b => exact ⟨_, rfl⟩
  | refused e => exact ⟨_, rfl⟩
  | overflowed o => exact ⟨_, rfl⟩

theorem Task.Proceeds.exists_finished {id : ExchangeId} {r : ExchangeRequest}
    {found : Except LedgerError Funding} {rate : RateResult} {search : Resolution}
    (hrate : search.result? = some rate)
    (h : t.Proceeds w w'
      (.exchanging ⟨(ExchangeRun.start id r).step .launched, some found, search, false⟩))
    (now : Nat) {run : ExchangeRun} (hrun : run =
      (ExchangeRun.start id r).run [.launched, .looked ⟨false, some found, some rate⟩, .priced]) :
    ∃ result, (w'.settle run).2.result? = some result ∧
      t.Proceeds w ((w'.settle run).1.recordAll (Wallet.exchangeEvent? result))
        (.finished (Wallet.outcomeResult result) (some search)) := by
  have hjoined := Task.Proceeds.move (m := .join) h
    ⟨by decide, fun e _ he => by cases he; rfl⟩ now
  have hjoin : (Task.exchanging ⟨(ExchangeRun.start id r).step .launched, some found, search,
      false⟩).move now w' .join = conclude w' ⟨run, some found, search, false⟩ := by
    rw [hrun, ← hrate]
    rfl
  rw [hjoin] at hjoined
  -- The join ends the exchange, or it prices it and a settlement follows.
  obtain ⟨result, hresult, hpending⟩ | ⟨f, rate', pricing, hstage⟩ :=
    ExchangeRun.ended_or_computed hrun
  · rw [conclude_of_some hresult] at hjoined
    rw [Wallet.settle_of_pending hpending]
    exact ⟨result, hresult, hjoined⟩
  · have hnone : run.result? = none := by
      unfold ExchangeRun.result?
      rw [hstage]
    rw [conclude_of_none hnone] at hjoined
    obtain ⟨result, hresult⟩ := Wallet.exists_result_settle (w := w') hstage
    have hsettled := Task.Proceeds.move (m := .settle) hjoined
      (admits_of_ne (by decide) (by decide)) now
    have hsettle : (Task.exchanging ⟨run, some found, search, false⟩).move now w' .settle =
        conclude (w'.settle run).1 ⟨(w'.settle run).2, some found, search, false⟩ := rfl
    rw [hsettle, conclude_of_some hresult] at hsettled
    exact ⟨result, hresult, hsettled⟩

theorem Wallet.exchange_of_result {id : ExchangeId} {r : ExchangeRequest} {now : Nat}
    {rate : RateResult} {result : Attempt ExchangeFailure ExchangeOutcome}
    {settled : Wallet × ExchangeRun} (hrate : (w.desk.resolve now r.pair).2 = rate)
    (hsettled : settled =
      Wallet.settle { w.record .exchangeStarted with desk := (w.desk.resolve now r.pair).1 }
        ((ExchangeRun.start id r).run
          [.launched, .looked ⟨false, some (w.fund r), some rate⟩, .priced]))
    (hresult : settled.2.result? = some result) :
    w.exchange now id r = (settled.1.recordAll (exchangeEvent? result), result) := by
  have hexchange : w.exchange now id r =
      (settled.1.recordAll (exchangeEvent?
        (settled.2.result?.getD (.refused ⟨.deadlineExceeded, .deadlineExceeded⟩))),
          settled.2.result?.getD (.refused ⟨.deadlineExceeded, .deadlineExceeded⟩)) := by
    rw [hsettled, ← hrate]
    rfl
  rw [hexchange, hresult]
  rfl

theorem Wallet.answers_exchange (hw : w.Regular) {id : ExchangeId} {r : ExchangeRequest} (now : Nat)
    (hbegin : (Task.waiting id request).Proceeds w (w.record .exchangeStarted)
      (.exchanging (.start w.desk.policy id r))) :
    w.Answers id request (outcomeResult (w.exchange now id r).2) (w.exchange now id r).1 := by
  obtain ⟨search, rate, hsearch, hdone, hrate, hresolve⟩ := hw.faithful.exists_result now r.pair
  have hfunded := Task.Proceeds.move (m := .fund) hbegin
    (Task.admits_of_ne (by decide) (by decide)) now
  have hrated := Task.Proceeds.assistAll hfunded now
    (Resolution.start w.desk.policy r.pair).callsLeft
  change (Task.waiting id request).Proceeds w
    { w.record .exchangeStarted with desk := (w.desk.resolve now r.pair).1 }
    (.exchanging ⟨(ExchangeRun.start id r).step .launched, some (w.fund r),
      (RateDesk.assistAll now (Resolution.start w.desk.policy r.pair).callsLeft w.desk
        (.start w.desk.policy r.pair)).2, false⟩) at hrated
  rw [hsearch] at hrated
  obtain ⟨result, hresult, hfinished⟩ := hrated.exists_finished hrate now rfl
  refine ⟨some search, ?_, ?_⟩
  · intro r' hr'
    cases hr'
    exact hdone
  · rw [exchange_of_result hresolve rfl hresult]
    exact hfinished

/-- A request that is carried out at once is answered. -/
theorem Wallet.answers_perform (hw : w.Regular) (now : Nat) (id : ExchangeId)
    (request : WalletRequest) :
    w.Answers id request (w.perform now id request).2 (w.perform now id request).1 := by
  have hbegin := Task.Proceeds.move (m := .begin) (Task.Proceeds.start (w := w)
    (t := .waiting id request)) (Task.admits_of_ne (by decide) (by decide)) now
  have hidle : ∀ r : Resolution, none = some r → r.request? = none := by
    intro r hr
    cases hr
  obtain ⟨next, hnext, hbegins⟩ := Task.exists_begins now w id request
  rw [hnext] at hbegin
  unfold perform
  cases hbegins with
  | rejected hcheck | queried hcheck | moved hcheck =>
    rw [hcheck]
    exact ⟨none, hidle, hbegin⟩
  | started hcheck hreach =>
    simp only [hcheck, performAdmitted, if_pos hreach]
    exact answers_exchange hw now hbegin
  | stopped hcheck hbeyond =>
    simp only [hcheck, performAdmitted, if_neg hbeyond]
    exact ⟨none, hidle, hbegin⟩

theorem Wallet.perform_plain (hw : w.Regular) (hfits : p.Fits w)
    (hfunds : w.ledger.balance? = p.funds) (now : Nat) (id : ExchangeId)
    (request : WalletRequest) :
    p.answer request = (p.holding (w.perform now id request).1.ledger,
      plainResult (w.perform now id request).2) := by
  have hanswers := answers_perform hw now id request
  exact (hanswers.plain hw hfits hfunds).2

end Runs

/-! ### Configured wallets -/

end CurrencyWallet

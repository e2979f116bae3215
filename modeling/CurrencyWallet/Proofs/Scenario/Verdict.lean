import CurrencyWallet.Proofs.Exchange.Commit
import CurrencyWallet.Proofs.Scenario.Turns
import Mathlib.Data.Nat.Find

/-!
How an exchange over a ledger in memory ends, by the order of three events: its deadline, the check
of its balances and the delivery of its rate. What comes at the same time as the deadline comes
too late, and whoever is in time is not troubled by the deadline any more.
-/
namespace CurrencyWallet

namespace ExchangeRun

variable {run : ExchangeRun}

def join (run : ExchangeRun) (funding : Funding) (rate : ResolvedRate) : ExchangeRun :=
  ⟨run.id, run.request, .joined funding rate⟩

theorem step_looked (view : JoinView) (h : run.stage = .inFlight) :
    run.step (.looked view) =
      { run with stage :=
          match view.verdict with
          | none => .inFlight
          | some (.error failure) => .failed failure
          | some (.ok both) => .joined both.1 both.2 } := by
  obtain ⟨id, request, stage⟩ := run
  cases h
  cases hverdict : view.verdict with
  | none => simp only [ExchangeRun.step, ExchangeRun.nextStage, hverdict]
  | some verdict =>
    cases verdict <;> simp only [ExchangeRun.step, ExchangeRun.nextStage, hverdict]

theorem step_settled {funding : Funding} {rate : ResolvedRate} {pricing : Pricing}
    (reply : Ledger.Reply) (h : run.stage = .computed funding rate pricing) :
    (run.step (.settled reply)).step .concluded =
      { run with stage :=
          match reply with
          | .ok _ => .done (run.outcome funding rate pricing)
          | .refused e => .failed ⟨.commitFailed, .ofLedger e⟩
          | .overflowed o => .broken .computed o } := by
  obtain ⟨id, request, stage⟩ := run
  cases h
  cases reply <;> rfl

end ExchangeRun

namespace Scenario

variable {w : World} {e : LiveExchange}

namespace World

/-- The search that the action starts delivers this result when so much time has passed. -/
def Delivers (w : World) (action : Action) (delay : Nat) (result : RateResult) : Prop :=
  ∃ turns, (w.after action turns).1.rate? w.jobs.length = some result ∧
    (w.after action turns).1.now = w.now + delay ∧
    ∀ earlier < turns, (w.after action earlier).1.rate? w.jobs.length = none

/-- The action comes to an end, and this is its answer, however many turns it might still take. -/
def EndsIn (w : World) (action : Action) (answer : Answer) : Prop :=
  ∃ turns, ∀ more,
    (runTurns (turns + more) (w.begin action).1 (.waiting (w.begin action).2)).2 = answer

def KeepsVault (w : World) (action : Action) : Prop :=
  ∀ turns, (w.after action turns).1.vault = w.vault

theorem EndsIn.of_after {action : Action} {turns : Nat} {answer : Answer}
    (h : (w.after action turns).2 = .finished answer) : w.EndsIn action answer := by
  refine ⟨turns + 1, fun more => ?_⟩
  rw [Nat.add_right_comm]
  exact runTurns_of_follow (.of_waiting _) h more

end World

/-! ### Looking at an exchange -/

namespace LiveExchange

theorem poll_of_none (hstage : e.run.stage = .inFlight) (h : (e.view w).verdict = none) :
    e.poll w = none := by
  rw [poll_eq, ExchangeRun.step_looked _ hstage, h]
  rfl

theorem poll_of_error (hstage : e.run.stage = .inFlight) {failure : ExchangeFailure}
    (h : (e.view w).verdict = some (.error failure)) :
    ∃ metrics, e.poll w =
      some ({ w with metrics }, outcomeAnswer e.byWallet (.refused failure)) := by
  rw [poll_eq, ExchangeRun.step_looked _ hstage, h]
  exact ⟨_, rfl⟩

theorem poll_of_ok (hstage : e.run.stage = .inFlight) {funding : Funding} {rate : ResolvedRate}
    (h : (e.view w).verdict = some (.ok (funding, rate))) :
    e.poll w = (carryOut w (e.run.join funding rate)).2.result?.map fun result =>
      ((carryOut w (e.run.join funding rate)).1.record (Wallet.exchangeEvent? result),
        outcomeAnswer e.byWallet result) := by
  rw [poll_eq, ExchangeRun.step_looked _ hstage, h]
  rfl

theorem exists_result_carryOut (w : World) (run : ExchangeRun) (funding : Funding)
    (rate : ResolvedRate) :
    ∃ result, (carryOut w (run.join funding rate)).2.result? = some result ∧
      ∀ failure, result = .refused failure →
        failure.state = .computeFailed ∨ failure.state = .commitFailed := by
  have hstage : (run.join funding rate).stage = .joined funding rate := rfl
  simp only [carryOut]
  rw [ExchangeRun.step_priced hstage]
  cases Pricing.compute ((run.join funding rate).pricingInput funding rate) with
  | refused reason =>
    refine ⟨_, rfl, fun failure h => ?_⟩
    cases h
    exact Or.inl rfl
  | overflowed overflow => exact ⟨_, rfl, fun failure h => by cases h⟩
  | ok pricing =>
    simp only [ExchangeRun.pending?]
    rw [ExchangeRun.step_settled _ rfl]
    cases (w.callVault _).2.2 with
    | ok balances => exact ⟨_, rfl, fun failure h => by cases h⟩
    | refused reason =>
      refine ⟨_, rfl, fun failure h => ?_⟩
      cases h
      exact Or.inr rfl
    | overflowed overflow => exact ⟨_, rfl, fun failure h => by cases h⟩

theorem carryOut_congr {v w : World} (h : v.vault = w.vault) (run : ExchangeRun) :
    (carryOut v run).2 = (carryOut w run).2 := by
  simp only [carryOut, World.callVault, h]
  cases (run.step .priced).pending? <;> rfl

end LiveExchange

/-! ### The turn of the verdict -/

theorem poll_exchange_of_none (hstage : e.run.stage = .inFlight)
    (h : (e.view w).verdict = none) :
    (Activity.waiting (.exchange e)).poll w = (false, w, .waiting (.exchange e)) := by
  simp only [Activity.poll, Wait.poll, LiveExchange.poll_of_none hstage h]

theorem turn_of_undecided (hstage : e.run.stage = .inFlight) (h : (e.view w).verdict = none) :
    ∃ w', turn w (.waiting (.exchange e)) = some (w', .waiting (.exchange e)) ∧
      w'.vault = w.vault := by
  have hpoll := poll_exchange_of_none hstage h
  cases hturn : turn w (.waiting (.exchange e)) with
  | none =>
    obtain ⟨-, hrest⟩ := turn_eq_none hturn
    have hpast : e.cancelAt ≤ w.now :=
      nextMoment?_eq_none hrest e.cancelAt (Or.inl List.mem_cons_self)
    simp [LiveExchange.view, JoinView.verdict, hpast] at h
  | some next =>
    obtain ⟨w', a'⟩ := next
    cases turn_cases hturn with
    | polled hpolled => cases hpoll.symm.trans hpolled
    | worked => exact ⟨_, rfl, World.vault_runJobs w⟩
    | passed => exact ⟨_, rfl, rfl⟩

/-- The first turn at which there is a verdict on the exchange. Up to then it has done nothing. -/
structure LiveExchange.Decided (e : LiveExchange) (w : World) (turns : Nat)
    (verdict : Except ExchangeFailure (Funding × ResolvedRate)) : Prop where
  waiting : (follow turns w (.waiting (.exchange e))).2 = .waiting (.exchange e)
  verdict : (e.view (follow turns w (.waiting (.exchange e))).1).verdict = some verdict
  earlier : ∀ n < turns, (e.view (follow n w (.waiting (.exchange e))).1).verdict = none
  vault : ∀ n ≤ turns, (follow n w (.waiting (.exchange e))).1.vault = w.vault

namespace LiveExchange

theorem exists_decided (hw : w.IsOrderly) (hstage : e.run.stage = .inFlight) :
    ∃ turns verdict, e.Decided w turns verdict := by
  -- By induction on the work that is left, of which a turn without a verdict does some.
  induction hwork : workLeft w (.waiting (.exchange e)) using Nat.strongRecOn generalizing w with
  | ind work ih =>
    cases hverdict : (e.view w).verdict with
    | some verdict =>
      refine ⟨0, verdict, rfl, hverdict, nofun, fun n hn => ?_⟩
      obtain rfl := Nat.le_zero.1 hn
      rfl
    | none =>
      obtain ⟨w', hturn, hvault⟩ := turn_of_undecided hstage hverdict
      have hless := workLeft_turn hw (.of_waiting _) hturn
      obtain ⟨turns, verdict, hlater⟩ := ih _ (hwork ▸ hless) (hw.turn hturn) rfl
      have hfollow := follow_of_turn hturn
      refine ⟨turns + 1, verdict, ?_, ?_, fun n hn => ?_, fun n hn => ?_⟩
      · rw [hfollow]
        exact hlater.waiting
      · rw [hfollow]
        exact hlater.verdict
      · cases n with
        | zero => exact hverdict
        | succ n =>
          rw [hfollow]
          exact hlater.earlier n (Nat.lt_of_succ_lt_succ hn)
      · cases n with
        | zero => rfl
        | succ n =>
          rw [hfollow]
          exact (hlater.vault n (Nat.le_of_succ_le_succ hn)).trans hvault

namespace Decided

variable {turns : Nat}

theorem follow_succ {verdict : Except ExchangeFailure (Funding × ResolvedRate)}
    (h : e.Decided w turns verdict) {w' : World} {answer : Answer}
    (hpoll : e.poll (follow turns w (.waiting (.exchange e))).1 = some (w', answer)) :
    follow (turns + 1) w (.waiting (.exchange e)) = (w', .finished answer) := by
  rw [follow_add, h.waiting]
  refine follow_of_turn (turn_of_polled ?_) 0
  simp only [Activity.poll, Wait.poll, hpoll]

theorem of_error {failure : ExchangeFailure} (h : e.Decided w turns (.error failure))
    (hstage : e.run.stage = .inFlight) :
    (follow (turns + 1) w (.waiting (.exchange e))).2 =
        .finished (outcomeAnswer e.byWallet (.refused failure)) ∧
      ∀ n, (follow n w (.waiting (.exchange e))).1.vault = w.vault := by
  obtain ⟨metrics, hpoll⟩ := poll_of_error hstage h.verdict
  have hlast := h.follow_succ hpoll
  refine ⟨by rw [hlast], fun n => ?_⟩
  obtain hn | hn := Nat.lt_or_ge turns n
  · obtain ⟨k, rfl⟩ := Nat.exists_eq_add_of_lt hn
    rw [show turns + k + 1 = turns + 1 + k by omega, follow_add, hlast, vault_follow_finished]
    exact h.vault turns (Nat.le_refl _)
  · exact h.vault n hn

theorem of_ok {funding : Funding} {rate : ResolvedRate}
    (h : e.Decided w turns (.ok (funding, rate))) (hstage : e.run.stage = .inFlight) :
    ∃ result, (carryOut w (e.run.join funding rate)).2.result? = some result ∧
      (∀ failure, result = .refused failure →
        failure.state = .computeFailed ∨ failure.state = .commitFailed) ∧
      (follow (turns + 1) w (.waiting (.exchange e))).2 =
        .finished (outcomeAnswer e.byWallet result) := by
  obtain ⟨result, hresult, hstates⟩ := exists_result_carryOut w e.run funding rate
  have hcarried := carryOut_congr (h.vault turns (Nat.le_refl _)) (e.run.join funding rate)
  have hpoll := poll_of_ok hstage h.verdict
  rw [hcarried, hresult] at hpoll
  exact ⟨result, hresult, hstates, by rw [h.follow_succ hpoll]⟩

end Decided

end LiveExchange

/-! ### The order of events -/

theorem Vault.fund_of_memory {v : Vault} (h : v.remote? = none) (user : UserId)
    (source target : Currency) (amount : Decimal) : (v.fund user source target amount).1 = 0 := by
  have hfault : ∀ delay fault, v.fault? .balances = some (delay, fault) → delay = 0 := by
    intro delay fault hfault
    unfold fault? at hfault
    split at hfault
    · cases hfault
      rfl
    · rw [h] at hfault
      cases hfault
  unfold fund
  split
  · rename_i delay fault hsome
    exact hfault delay fault hsome
  · rfl

namespace World

variable {r : ExchangeRequest} {limit : Nat}

def check (w : World) (r : ExchangeRequest) : Except LedgerError Funding :=
  (w.vault.fund r.user r.source r.target r.amount).2

def exchange (w : World) (r : ExchangeRequest) (limit : Nat) : LiveExchange where
  run := ⟨.make w.now (w.record (some .exchangeStarted)).metrics.started, r, .inFlight⟩
  job := w.jobs.length
  cancelAt := w.now + limit
  fundedAt := w.now + (w.vault.fund r.user r.source r.target r.amount).1
  funding := w.check r
  byWallet := false

theorem after_execute (w : World) (r : ExchangeRequest) (limit turns : Nat) :
    w.after (.execute r limit) turns =
      follow turns (w.begin (.execute r limit)).1 (.waiting (.exchange (w.exchange r limit))) :=
  rfl

theorem now_le_after_execute (w : World) (r : ExchangeRequest) (limit turns : Nat) :
    w.now ≤ (w.after (.execute r limit) turns).1.now := by
  have hbegun : (w.begin (.execute r limit)).1.now = w.now := rfl
  rw [← hbegun, after_execute]
  exact now_le_follow (.of_waiting _) turns

theorem view_after (hmemory : w.vault.remote? = none) (r : ExchangeRequest) (limit turns : Nat) :
    let now := (w.after (.execute r limit) turns).1
    (w.exchange r limit).view now =
      ⟨w.now + limit ≤ now.now, some (w.check r), now.rate? w.jobs.length⟩ := by
  have hfunded : (w.exchange r limit).fundedAt ≤ (w.after (.execute r limit) turns).1.now := by
    rw [exchange, Vault.fund_of_memory hmemory]
    exact w.now_le_after_execute r limit turns
  intro now
  simp only [LiveExchange.view]
  rw [if_pos hfunded]
  rfl

theorem exists_delivers (horderly : w.IsOrderly) (r : ExchangeRequest) (limit : Nat) :
    ∃ delay result, w.Delivers (.execute r limit) delay result := by
  have hbegun : (w.begin (.execute r limit)).1.jobs =
      w.jobs ++ [(.shared, .start w.shared.policy r.pair)] := rfl
  obtain ⟨turns, hlast, hquiet⟩ := exists_quiet (horderly.begin (.execute r limit))
    (.of_waiting (w.begin (.execute r limit)).2)
  have hlength : w.jobs.length < (w.after (.execute r limit) turns).1.jobs.length := by
    rw [after, length_jobs_follow (.of_waiting _), hbegun]
    simp
  obtain ⟨result, hresult⟩ := hlast.exists_rate hquiet hlength
  have hsome : ∃ turns, ((w.after (.execute r limit) turns).1.rate? w.jobs.length).isSome :=
    ⟨turns, Option.isSome_iff_exists.2 ⟨result, hresult⟩⟩
  obtain ⟨first, hfirst⟩ := Option.isSome_iff_exists.1 (Nat.find_spec hsome)
  have hnow := w.now_le_after_execute r limit (Nat.find hsome)
  refine ⟨_, first, Nat.find hsome, hfirst, (Nat.add_sub_of_le hnow).symm, fun earlier h => ?_⟩
  simpa using Nat.find_min hsome h

theorem fails_of_decided {turns : Nat} {failure : ExchangeFailure}
    (h : (w.exchange r limit).Decided (w.begin (.execute r limit)).1 turns (.error failure)) :
    w.EndsIn (.execute r limit) (.failure failure) ∧ w.KeepsVault (.execute r limit) := by
  obtain ⟨hanswer, hvault⟩ := h.of_error rfl
  exact ⟨.of_after hanswer, hvault⟩

theorem deadline_at_once (horderly : w.IsOrderly) (hmemory : w.vault.remote? = none)
    (r : ExchangeRequest) :
    w.EndsIn (.execute r 0) (.failure ⟨.deadlineExceeded, .deadlineExceeded⟩) ∧
      w.KeepsVault (.execute r 0) := by
  obtain ⟨turns, verdict, hdecided⟩ := LiveExchange.exists_decided (e := w.exchange r 0)
    (horderly.begin (.execute r 0)) rfl
  have hverdict := hdecided.verdict
  rw [← after_execute, view_after hmemory] at hverdict
  have hlate : w.now + 0 ≤ (w.after (.execute r 0) turns).1.now := w.now_le_after_execute r 0 turns
  simp only [JoinView.verdict, hlate, decide_true, if_true] at hverdict
  cases hverdict
  exact fails_of_decided hdecided

theorem validation_first (horderly : w.IsOrderly) (hmemory : w.vault.remote? = none)
    (hlimit : 0 < limit) {error : LedgerError} (hcheck : w.check r = .error error) :
    w.EndsIn (.execute r limit) (.failure ⟨.validationFailed, .ofLedger error⟩) ∧
      w.KeepsVault (.execute r limit) := by
  obtain ⟨turns, verdict, hdecided⟩ := LiveExchange.exists_decided (e := w.exchange r limit)
    (horderly.begin (.execute r limit)) rfl
  have hstart : ((w.exchange r limit).view (w.after (.execute r limit) 0).1).verdict =
      some (.error ⟨.validationFailed, .ofLedger error⟩) := by
    have hnow : ¬ w.now + limit ≤ (w.after (.execute r limit) 0).1.now := by
      have hbegun : (w.after (.execute r limit) 0).1.now = w.now := rfl
      omega
    rw [view_after hmemory, hcheck]
    simp only [JoinView.verdict, hnow, decide_false, Bool.false_eq_true, if_false]
  cases turns with
  | zero =>
    have hverdict := hdecided.verdict
    rw [← after_execute, hstart] at hverdict
    cases hverdict
    exact fails_of_decided hdecided
  | succ turns =>
    have hnone := hdecided.earlier 0 (Nat.succ_pos turns)
    rw [← after_execute, hstart] at hnone
    cases hnone

def verdictOf (funding : Funding) : RateResult → Except ExchangeFailure (Funding × ResolvedRate)
  | .error e => .error ⟨.rateFailed, .ofRate e⟩
  | .ok rate => .ok (funding, rate)

theorem verdict_after (hmemory : w.vault.remote? = none) {funding : Funding}
    (hcheck : w.check r = .ok funding) (turns : Nat) :
    let now := (w.after (.execute r limit) turns).1
    ((w.exchange r limit).view now).verdict =
      if w.now + limit ≤ now.now then some (.error ⟨.deadlineExceeded, .deadlineExceeded⟩)
      else (now.rate? w.jobs.length).map (verdictOf funding) := by
  intro now
  rw [view_after hmemory, hcheck]
  by_cases hlate : w.now + limit ≤ now.now
  · simp [JoinView.verdict, now, hlate]
  · cases hrate : now.rate? w.jobs.length with
    | none => simp [JoinView.verdict, now, hlate]
    | some result => cases result <;> simp [JoinView.verdict, now, hlate, verdictOf]

/-- What the verdict is when the balances suffice: that of the delivery, if it is in time, and else
that of the deadline. -/
theorem verdict_of_delivers (horderly : w.IsOrderly) (hmemory : w.vault.remote? = none)
    {funding : Funding} (hcheck : w.check r = .ok funding) {delay : Nat} {result : RateResult}
    (hdelivers : w.Delivers (.execute r limit) delay result) :
    ∃ turns, (w.exchange r limit).Decided (w.begin (.execute r limit)).1 turns
      (if delay < limit then verdictOf funding result
      else .error ⟨.deadlineExceeded, .deadlineExceeded⟩) := by
  obtain ⟨turns, verdict, hdecided⟩ := LiveExchange.exists_decided (e := w.exchange r limit)
    (horderly.begin (.execute r limit)) rfl
  obtain ⟨first, hrate, hnow, hbefore⟩ := hdelivers
  have hverdict := hdecided.verdict
  have hearlier := hdecided.earlier
  simp only [← after_execute, verdict_after hmemory hcheck] at hverdict hearlier
  have hmono : ∀ {m n : Nat}, m ≤ n → (w.after (.execute r limit) m).1.now ≤
      (w.after (.execute r limit) n).1.now := now_follow_mono (.of_waiting _)
  -- A rate that is there before the deadline would have decided.
  have hopen : first < turns → w.now + limit ≤ w.now + delay := by
    intro hlt
    by_contra hearly
    have hnone := hearlier first hlt
    rw [hnow, if_neg hearly, hrate] at hnone
    cases hnone
  refine ⟨turns, ?_⟩
  by_cases hlate : w.now + limit ≤ (w.after (.execute r limit) turns).1.now
  · rw [if_pos hlate] at hverdict
    have hlimit : ¬ delay < limit := by
      intro hlt
      obtain hfirst | hfirst := Nat.lt_or_ge first turns
      · have hle := hopen hfirst
        omega
      · have hle := hmono hfirst
        omega
    rw [if_neg hlimit]
    cases hverdict
    exact hdecided
  · rw [if_neg hlate] at hverdict
    have hsame : first = turns := by
      obtain hlt | heq | hgt := Nat.lt_trichotomy first turns
      · have hle := hmono (Nat.le_of_lt hlt)
        have hlimit := hopen hlt
        omega
      · exact heq
      · rw [hbefore turns hgt] at hverdict
        cases hverdict
    subst hsame
    have hlimit : delay < limit := by omega
    rw [hrate, Option.map_some] at hverdict
    rw [if_pos hlimit]
    cases hverdict
    exact hdecided

/-- The exchange is joined with these two parts and carried out over the ledger that it has begun
with. Whatever becomes of it, it is not its deadline that ends it. -/
def PassesJoin (w : World) (r : ExchangeRequest) (limit : Nat) (funding : Funding)
    (rate : ResolvedRate) : Prop :=
  ∃ result,
    (LiveExchange.carryOut w ((w.exchange r limit).run.join funding rate)).2.result? = some result ∧
    (∀ failure, result = .refused failure →
      failure.state = .computeFailed ∨ failure.state = .commitFailed) ∧
    w.EndsIn (.execute r limit) (LiveExchange.outcomeAnswer false result)

/-- The search of an exchange delivers, and how the exchange ends is settled by when it does: a
deadline that is over from the start comes before anything else, a check that fails comes before the
rate, a rate decides if it is there before the deadline, and if it is not, the deadline does. The
ledger is not written unless both parts are joined. -/
theorem verdict_execute (horderly : w.IsOrderly) (hmemory : w.vault.remote? = none)
    (r : ExchangeRequest) (limit : Nat) :
    let exchange := Action.execute r limit
    let fails := fun state error =>
      w.EndsIn exchange (.failure ⟨state, error⟩) ∧ w.KeepsVault exchange
    (∃ delay result, w.Delivers exchange delay result) ∧
    ∀ delay result, w.Delivers exchange delay result →
      (limit = 0 → fails .deadlineExceeded .deadlineExceeded) ∧
      (0 < limit → ∀ e, w.check r = .error e → fails .validationFailed (.ofLedger e)) ∧
      (0 < limit → ∀ funding, w.check r = .ok funding →
        (delay < limit →
          (∀ e, result = .error e → fails .rateFailed (.ofRate e)) ∧
          ∀ rate, result = .ok rate → w.PassesJoin r limit funding rate) ∧
        (limit ≤ delay → fails .deadlineExceeded .deadlineExceeded)) := by
  refine ⟨exists_delivers horderly r limit, fun delay result hdelivers => ⟨?_, ?_, ?_⟩⟩
  · rintro rfl
    exact deadline_at_once horderly hmemory r
  · intro hlimit e hcheck
    exact validation_first horderly hmemory hlimit hcheck
  · intro _ funding hcheck
    obtain ⟨turns, hdecided⟩ := verdict_of_delivers horderly hmemory hcheck hdelivers
    refine ⟨fun hearly => ?_, fun hlate => ?_⟩
    · rw [if_pos hearly] at hdecided
      refine ⟨?_, ?_⟩
      · rintro e rfl
        exact fails_of_decided hdecided
      · rintro rate rfl
        obtain ⟨outcome, hresult, hstates, hanswer⟩ := hdecided.of_ok rfl
        have hvault : w.vault = (w.begin (.execute r limit)).1.vault := rfl
        rw [← LiveExchange.carryOut_congr hvault] at hresult
        exact ⟨outcome, hresult, hstates, .of_after hanswer⟩
    · rw [if_neg (Nat.not_lt.2 hlate)] at hdecided
      exact fails_of_decided hdecided

def slowQuotes : World :=
  let setting : Setting :=
    { currencies := [.usd, .eur, .rub]
      rates := [(⟨.usd, .eur⟩, .small 92 2)]
      service := .scripted "slow"
      policy := ⟨1000, 100, 100, true⟩
      exchangeTimeout := 50
      capacity := 4
      remote? := none }
  { (setting.world.begin (.setDelay 5)).1 with vault := ⟨Wallet.dollars.ledger, none, [], 0⟩ }

theorem isOrderly_slowQuotes : slowQuotes.IsOrderly :=
  (Setting.isOrderly_world _).begin (.setDelay 5)

theorem verdict_execute_tie :
    slowQuotes.Delivers (.execute Wallet.tenDollars 5) 5 (.ok Wallet.euroRate) ∧
      slowQuotes.EndsIn (.execute Wallet.tenDollars 5)
        (.failure ⟨.deadlineExceeded, .deadlineExceeded⟩) ∧
      slowQuotes.KeepsVault (.execute Wallet.tenDollars 5) := by
  have hdelivers : slowQuotes.Delivers (.execute Wallet.tenDollars 5) 5 (.ok Wallet.euroRate) :=
    ⟨4, by decide +kernel, by decide +kernel, by decide +kernel⟩
  have hfunded : (slowQuotes.check Wallet.tenDollars).isOk = true := by decide +kernel
  cases hcheck : slowQuotes.check Wallet.tenDollars with
  | error e => simp [hcheck, Except.isOk, Except.toBool] at hfunded
  | ok funding =>
    obtain ⟨-, -, hjoin⟩ := (verdict_execute isOrderly_slowQuotes rfl Wallet.tenDollars 5).2 5
      (.ok Wallet.euroRate) hdelivers
    exact ⟨hdelivers, (hjoin (by decide) funding hcheck).2 (Nat.le_refl 5)⟩

end World

end Scenario

end CurrencyWallet

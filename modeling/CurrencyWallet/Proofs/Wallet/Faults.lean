import CurrencyWallet.Proofs.Wallet.Config
import CurrencyWallet.Proofs.Wallet.Course

/-!
The errors that a wallet can answer with. Over a ledger of its own currencies, and with the rates of
its configuration, no request is answered with an error that points at a defect, whatever other
requests are under way; and an exchange fails for what it was asked, for a pair without a rate, for
a balance that has changed, or because it was cancelled.
-/
namespace CurrencyWallet

/-! ### What is counted -/

def Metrics.failures (m : Metrics) : ExchangeState → Nat
  | .validationFailed => m.validationFailed
  | .rateFailed => m.rateFailed
  | .computeFailed => m.computeFailed
  | .commitFailed => m.commitFailed
  | .deadlineExceeded => m.deadlineExceeded
  | _ => 0

theorem Metrics.failures_recordFailure (m : Metrics) (s s' : ExchangeState) :
    (m.recordFailure s).failures s' =
      m.failures s' + if s = s' ∧ s.isFailure = true then 1 else 0 := by
  cases s <;> cases s' <;> rfl

theorem Metrics.eq_of_recordFailure {m : Metrics} {s s' : ExchangeState}
    (hs : s.isFailure = true) (h : m.recordFailure s = m.recordFailure s') : s = s' := by
  have hcount := congrArg (fun m => m.failures s) h
  simp only [failures_recordFailure, hs, and_self, if_true] at hcount
  by_contra hne
  rw [if_neg fun hsame => hne hsame.1.symm] at hcount
  omega

/-! ### What is answered -/

theorem ExchangeRequest.invalid_of_check {r : ExchangeRequest} {e : ExchangeError}
    (h : r.check = .error e) : ∃ reason, e = .invalid reason := by
  rw [check_eq] at h
  split at h
  · cases h
    exact ⟨_, rfl⟩
  · split at h
    · cases h
      exact ⟨_, rfl⟩
    · split at h
      · cases h
        exact ⟨_, rfl⟩
      · split at h
        · cases h
          exact ⟨_, rfl⟩
        · split at h
          · cases h
            exact ⟨_, rfl⟩
          · cases h

theorem WalletRequest.invalid_of_check {request : WalletRequest} {e : ExchangeError}
    (h : request.check = .error e) : ∃ reason, e = .invalid reason := by
  have huser : ∀ u : UserId, u.check = .ok () ∨ u.check = .error (.invalid (.userId u)) := by
    intro u
    unfold UserId.check
    split
    · exact Or.inl rfl
    · exact Or.inr rfl
  cases request with
  | balance u =>
    obtain hu | hu := huser u
    · simp [check, hu, bind, Except.bind] at h
    · simp only [check, hu, bind, Except.bind] at h
      cases h
      exact ⟨_, rfl⟩
  | openAccounts u =>
    obtain hu | hu := huser u
    · simp [check, hu, bind, Except.bind] at h
    · simp only [check, hu, bind, Except.bind] at h
      cases h
      exact ⟨_, rfl⟩
  | move m u c amount =>
    rw [check_move_eq] at h
    split at h
    · cases h
      exact ⟨_, rfl⟩
    · split at h
      · cases h
        exact ⟨_, rfl⟩
      · split at h
        · cases h
          exact ⟨_, rfl⟩
        · cases h
  | exchange r =>
    simp only [check, bind, Except.bind] at h
    cases hr : r.check with
    | error e' =>
      rw [hr] at h
      cases h
      exact ExchangeRequest.invalid_of_check hr
    | ok checked =>
      rw [hr] at h
      cases h

theorem applyDelta_refused {c : Currency} {current delta : Decimal} {e : LedgerError}
    (h : applyDelta c current delta = .refused e) :
    e = .insufficientFunds c (-delta) current := by
  unfold applyDelta at h
  split at h
  · cases h
  · split at h
    · cases h
      rfl
    · cases h

theorem Ledger.not_isInternal_of_apply {l : Ledger} (hl : l.WellFormed) {u : UserId} {c : Currency}
    {delta : Decimal} {e : LedgerError} (h : (l.perform (.apply u c delta)).2 = .refused e) :
    ¬ (ExchangeError.ofLedger e).IsInternal := by
  rw [perform_apply hl] at h
  split at h
  · split at h
    · cases h
      exact id
    · split at h
      · cases h
      · rename_i hdelta
        cases h
        rw [applyDelta_refused hdelta]
        exact id
      · cases h
  · cases h
    exact id

theorem Wallet.balancesResult_refused {reply : Ledger.Reply} {e : ExchangeError}
    (h : balancesResult reply = .refused e) : ∃ e', reply = .refused e' ∧ e = .ofLedger e' := by
  cases reply with
  | ok b => cases h
  | refused e' => exact ⟨e', rfl, (Attempt.refused.inj h).symm⟩
  | overflowed o => cases h

theorem Wallet.outcomeResult_refused {result : Attempt ExchangeFailure ExchangeOutcome}
    {e : ExchangeError} (h : outcomeResult result = .refused e) :
    ∃ f, result = .refused f ∧ f.error = e := by
  cases result with
  | ok outcome => cases h
  | refused f => exact ⟨f, rfl, Attempt.refused.inj h⟩
  | overflowed o => cases h

/-! ### Regular wallets -/

/-- A wallet over a ledger that calls have made, with a desk that finds the rates of its table. -/
structure Wallet.Regular (w : Wallet) : Prop where
  reachable : w.ledger.Reachable
  faithful : w.desk.Faithful

/-- A task of such a wallet: its exchange is sound, its search is one for the table, and its answer
does not point at a defect. -/
structure Task.Regular (w : Wallet) (t : Task) : Prop where
  sound : t.Sound w.ledger
  search : ∀ r, t.resolution? = some r → ∃ pair, r.Tracks w.desk.rates pair
  answer : ∀ e, t.result? = some (.refused e) → ¬ e.IsInternal

theorem Resolution.Tracks.isUsable {rates : RateTable} {pair : CurrencyPair} {r : Resolution}
    (h : r.Tracks rates pair) (hrates : rates.AllUsable) : r.IsUsable := by
  intro rate hresult
  obtain ⟨value, source, hvalue, heq⟩ | ⟨-, heq⟩ := h.answers hresult
  · cases heq
    exact hrates _ _ hvalue
  · cases heq

theorem ExchangeTask.Ends.failure {w : Wallet} {t : ExchangeTask} {m : Move} {f : ExchangeFailure}
    (h : t.Ends w m (.refused f)) (hsound : t.Sound w.ledger) {rates : RateTable}
    {pair : CurrencyPair} (hsearch : t.resolution.Tracks rates pair) :
    f.state.isFailure = true ∧ ¬ f.error.IsInternal ∧ f.state ≠ .computeFailed ∧
      (f.state = .commitFailed → ∃ c expected actual,
        f.error = .balanceConflict c expected actual) ∧
      (f.state = .rateFailed → ∃ pair, f.error = .pairUnsupported pair) := by
  cases h with
  | cancelled => exact ⟨rfl, id, nofun, nofun, nofun⟩
  | notFunded hfunding => exact ⟨rfl, hsound.found _ hfunding, nofun, nofun, nofun⟩
  | notRated hrate =>
    obtain ⟨value, source, -, heq⟩ | ⟨-, heq⟩ := hsearch.answers hrate
    · cases heq
    · cases heq
      exact ⟨rfl, id, nofun, nofun, fun _ => ⟨pair, rfl⟩⟩
  | conflict hpriced hconflict => exact ⟨rfl, id, nofun, fun _ => ⟨_, _, _, rfl⟩, nofun⟩

namespace Task

variable {w : Wallet} {t : Task}

theorem rates_move (now : Nat) (w : Wallet) (t : Task) (m : Move) :
    (t.move now w m).1.desk.rates = w.desk.rates := by
  obtain ⟨r, -, hdesk, -⟩ | ⟨hdesk, -⟩ := resolution?_move now w t m
  · rw [hdesk, RateDesk.rates_assist]
  · rw [hdesk]

theorem answer_begin (hl : w.ledger.WellFormed) (now : Nat) (id : ExchangeId)
    (request : WalletRequest) {e : ExchangeError}
    (h : ((waiting id request).move now w .begin).2.result? = some (.refused e)) :
    ¬ e.IsInternal := by
  simp only [move] at h
  cases hcheck : request.check with
  | error e' =>
    rw [hcheck] at h
    cases h
    obtain ⟨reason, rfl⟩ := WalletRequest.invalid_of_check hcheck
    exact fun hinternal => hinternal
  | ok admitted =>
    rw [hcheck] at h
    cases request with
    | balance u =>
      obtain rfl := WalletRequest.check_balance hcheck
      cases h
    | openAccounts u =>
      obtain rfl := WalletRequest.check_openAccounts hcheck
      cases h
    | move m u c amount =>
      obtain ⟨delta, rfl, -, -⟩ := WalletRequest.check_move hcheck
      obtain ⟨e', hreply, rfl⟩ := Wallet.balancesResult_refused (Option.some.inj h)
      exact Ledger.not_isInternal_of_apply hl hreply
    | exchange r =>
      obtain ⟨checked, rfl, -⟩ := WalletRequest.check_exchange hcheck
      simp only [beginAdmitted] at h
      split at h
      · cases h
      · cases h

theorem Regular.answer_move (h : t.Regular w) (hw : w.Regular) (now : Nat) (m : Move)
    {e : ExchangeError} (he : (t.move now w m).2.result? = some (.refused e)) :
    ¬ e.IsInternal := by
  cases t with
  | waiting id request =>
    cases m with
    | begin => exact answer_begin hw.reachable.wellFormed now id request he
    | _ => cases he
  | exchanging t =>
    obtain ⟨pair, hsearch⟩ := h.search t.resolution rfl
    obtain ⟨t', hnext, -⟩ | ⟨result, w', hends, -, hnext⟩ :=
      ExchangeTask.Sound.moveExchange h.sound hw.reachable (hsearch.isUsable hw.faithful.usable)
        now m
    · change (moveExchange now w t m).2.result? = _ at he
      rw [hnext] at he
      cases he
    · change (moveExchange now w t m).2.result? = _ at he
      rw [hnext] at he
      obtain ⟨f, rfl, rfl⟩ := Wallet.outcomeResult_refused (Option.some.inj he)
      exact (hends.failure h.sound hsearch).2.1
  | finished result resolution =>
    refine h.answer e ?_
    cases resolution with
    | none => exact he
    | some resolution =>
      cases m with
      | serveRate => exact he
      | _ => exact he

theorem kept_regular : Session.Kept Wallet.Regular Task.Regular where
  move now w t m hw ht := by
    obtain ⟨calls, hledger⟩ := ledger_move now w t m
    have hrates := rates_move now w t m
    have hreach : (t.move now w m).1.ledger.Reachable := by
      rw [hledger]
      exact hw.reachable.run calls
    have husable : ∀ r, t.resolution? = some r → r.IsUsable := by
      intro r hr
      obtain ⟨pair, hsearch⟩ := ht.search r hr
      exact hsearch.isUsable hw.faithful.usable
    have hsound := ht.sound.move hw.reachable husable now m
    obtain ⟨r, hr, hdesk, hnext⟩ | ⟨hdesk, hnext⟩ := resolution?_move now w t m
    · obtain ⟨pair, hsearch⟩ := ht.search r hr
      have hassists := hw.faithful.assist hsearch now
      refine ⟨⟨hreach, hdesk ▸ hassists.faithful⟩, hsound, ?_, fun e => ht.answer_move hw now m⟩
      intro r' hr'
      rw [hnext] at hr'
      cases hr'
      rw [hrates]
      exact ⟨pair, hassists.tracks⟩
    · refine ⟨⟨hreach, hdesk ▸ hw.faithful⟩, hsound, ?_, fun e => ht.answer_move hw now m⟩
      intro r hr
      rw [hrates]
      obtain hbefore | ⟨pair, rfl⟩ := hnext r hr
      · exact ht.search r hbefore
      · exact ⟨pair, Resolution.tracks_start _ _ _⟩
  others now w t t' m hw ht ht' := by
    obtain ⟨calls, hledger⟩ := ledger_move now w t m
    refine ⟨?_, ?_, ht'.answer⟩
    · rw [hledger]
      exact ht'.sound.run calls
    · rw [rates_move]
      exact ht'.search

end Task

/-! ### Sessions -/

namespace Session

/-- By this event the exchange at place `i` fails: it is answered with the error and counted in the
state, and nothing else of the wallet changes. -/
structure Fails (s : Session) (e : Event) (i : Nat) (f : ExchangeFailure) : Prop where
  before : ∃ t, s.tasks[i]? = some (.exchanging t)
  answered : ∃ r, (s.step e).tasks[i]? = some (.finished (.refused f.error) r)
  counted : (s.step e).wallet = s.wallet.record (.exchangeFailed f.state)

theorem result?_receive (policy : RatePolicy) (answer : RateAnswer) (t : Task) :
    (t.receive policy answer).result? = t.result? := by
  cases t with
  | waiting id request => rfl
  | exchanging t => rfl
  | finished result resolution => cases resolution <;> rfl

theorem move_of_result {s : Session} {e : Event} {i : Nat} {t t' : Task}
    (ht : s.tasks[i]? = some t) (ht' : (s.step e).tasks[i]? = some t')
    (hresult : t'.result? ≠ t.result?) :
    ∃ m, e = .move i m ∧ t' = (t.move s.now s.wallet m).2 ∧
      (s.step e).wallet = (t.move s.now s.wallet m).1 := by
  have hlt : i < s.tasks.length := (List.getElem?_eq_some_iff.1 ht).1
  cases e with
  | elapse time =>
    obtain rfl : t = t' := Option.some.inj (ht.symm.trans ht')
    exact absurd rfl hresult
  | move k m =>
    simp only [step] at ht' ⊢
    by_cases hk : k = i
    · subst hk
      simp only [ht, List.getElem?_set_self hlt, Option.some.injEq] at ht' ⊢
      exact ⟨m, rfl, ht'.symm, rfl⟩
    · cases hother : s.tasks[k]? with
      | none =>
        rw [hother] at ht'
        obtain rfl : t = t' := Option.some.inj (ht.symm.trans ht')
        exact absurd rfl hresult
      | some other =>
        simp only [hother, List.getElem?_set_ne hk] at ht'
        obtain rfl : t = t' := Option.some.inj (ht.symm.trans ht')
        exact absurd rfl hresult
  | answer k a =>
    simp only [step] at ht'
    cases hother : s.tasks[k]? with
    | none =>
      rw [hother] at ht'
      obtain rfl : t = t' := Option.some.inj (ht.symm.trans ht')
      exact absurd rfl hresult
    | some other =>
      by_cases hk : k = i
      · subst hk
        simp only [ht, List.getElem?_set_self hlt, Option.some.injEq] at ht'
        rw [← ht', result?_receive] at hresult
        exact absurd rfl hresult
      · simp only [hother, List.getElem?_set_ne hk] at ht'
        obtain rfl : t = t' := Option.some.inj (ht.symm.trans ht')
        exact absurd rfl hresult

/-- An exchange that is answered with an error has ended by a move of its own, and is counted in the
state in which it has failed. -/
theorem Holds.ends {s : Session} (hs : s.Holds Wallet.Regular Task.Regular) {e : Event} {i : Nat}
    {t : ExchangeTask} {error : ExchangeError} {r : Option Resolution}
    (ht : s.tasks[i]? = some (.exchanging t))
    (hr : (s.step e).tasks[i]? = some (.finished (.refused error) r)) :
    ∃ m pair f, t.Sound s.wallet.ledger ∧ t.resolution.Tracks s.wallet.desk.rates pair ∧
      t.Ends s.wallet m (.refused f) ∧ f.error = error ∧
      (s.step e).wallet = s.wallet.record (.exchangeFailed f.state) := by
  obtain ⟨m, -, hnext, hwallet⟩ := move_of_result ht hr nofun
  have hregular := hs.tasks _ (List.mem_of_getElem? ht)
  obtain ⟨pair, hsearch⟩ := hregular.search t.resolution rfl
  obtain ⟨t', hgoes, -⟩ | ⟨result, w', hends, hsame, hconcluded⟩ :=
    ExchangeTask.Sound.moveExchange hregular.sound hs.wallet.reachable
      (hsearch.isUsable hs.wallet.faithful.usable) s.now m
  · exact absurd (hnext.trans hgoes) nofun
  · have hmove : (Task.exchanging t).move s.now s.wallet m = _ := hconcluded
    rw [hmove] at hnext hwallet
    obtain ⟨hanswer, -⟩ := Task.finished.inj hnext
    obtain ⟨f, rfl, herror⟩ := Wallet.outcomeResult_refused hanswer.symm
    obtain rfl := hsame rfl
    exact ⟨m, pair, f, hregular.sound, hsearch, hends, herror, hwallet⟩

/-- Over the rates of a valid configuration and a ledger of its currencies, no request is answered
with an error that points at a defect. An exchange that is answered with an error fails in a state,
and none fails by its price, by its settlement but for a balance that has changed, or by its rate
but for a pair that has none. -/
theorem answers_of_valid {c : WalletConfig} (hvalid : c.validate = .ok ()) (now : Nat)
    (calls : List Ledger.Call) (requests : List (ExchangeId × WalletRequest)) (events : List Event)
    (hown : ∀ i a, .answer i a ∉ events) {s : Session}
    (hs : s = (start now (.ofConfig c ((Ledger.new c.currencies).run calls)) requests).run events) :
    (∀ e, .refused e ∈ s.results → ¬ e.IsInternal) ∧
    (∀ e i t error r, s.tasks[i]? = some (.exchanging t) →
      (s.step e).tasks[i]? = some (.finished (.refused error) r) →
      ∃ state, s.Fails e i ⟨state, error⟩) ∧
    ∀ e i f, s.Fails e i f →
      f.state ≠ .computeFailed ∧
      (f.state = .commitFailed → ∃ d expected actual,
        f.error = .balanceConflict d expected actual) ∧
      (f.state = .rateFailed → ∃ pair, f.error = .pairUnsupported pair) := by
  have hstart : (start now (.ofConfig c ((Ledger.new c.currencies).run calls)) requests).Holds
      Wallet.Regular Task.Regular := by
    refine holds_start ⟨⟨_, _, rfl⟩, Wallet.faithful_ofConfig hvalid _⟩ ?_ now requests
    exact fun id request => ⟨trivial, nofun, nofun⟩
  have hholds : s.Holds Wallet.Regular Task.Regular := by
    rw [hs]
    exact hstart.run Task.kept_regular events fun i a hmem => absurd hmem (hown i a)
  refine ⟨?_, ?_, ?_⟩
  · intro e he
    obtain ⟨t, ht, hresult⟩ := List.mem_filterMap.1 he
    exact (hholds.tasks t ht).answer e hresult
  · intro e i t error r ht hr
    obtain ⟨m, pair, f, -, -, -, rfl, hcounted⟩ := hholds.ends ht hr
    exact ⟨f.state, ⟨t, ht⟩, ⟨r, hr⟩, hcounted⟩
  · rintro e i f ⟨⟨t, ht⟩, ⟨r, hr⟩, hcounted⟩
    obtain ⟨m, pair, f', hsound, hsearch, hends, herror, hcounted'⟩ := hholds.ends ht hr
    obtain ⟨hfailure, -, hlimits⟩ := hends.failure hsound hsearch
    -- The counters of the wallet tell one state from another.
    have hmetrics := congrArg Wallet.metrics (hcounted'.symm.trans hcounted)
    have hstate : f'.state = f.state := Metrics.eq_of_recordFailure hfailure hmetrics
    rwa [hstate, herror] at hlimits

def oneRate : WalletConfig :=
  { WalletConfig.usual with rates := [(⟨.usd, .eur⟩, .small 92 2)] }

def hundredDollars : List Ledger.Call :=
  [.openAccounts ⟨1⟩, .apply ⟨1⟩ .usd (.small 100 0)]

def twoExchanges : List (ExchangeId × WalletRequest) :=
  [(⟨0⟩, .exchange ⟨⟨1⟩, .usd, .eur, .small 60 0⟩),
    (⟨1⟩, .exchange ⟨⟨1⟩, .usd, .eur, .small 60 0⟩)]

/-- Both are funded before the first is settled. -/
def racingEvents : List Event :=
  [.move 0 .begin, .move 1 .begin, .move 0 .fund, .move 1 .fund,
    .move 0 .serveRate, .move 0 .serveRate, .move 1 .serveRate, .move 1 .serveRate,
    .move 0 .join, .move 1 .join, .move 0 .settle]

def racing : Session :=
  (start 0 (.ofConfig oneRate ((Ledger.new oneRate.currencies).run hundredDollars))
    twoExchanges).run racingEvents

def lateFailure : ExchangeFailure :=
  ⟨.commitFailed, .balanceConflict .eur .zero (.small 5520 2)⟩

theorem answers_of_valid_racing :
    racing.Fails (.move 1 .settle) 1 lateFailure ∧ lateFailure.state ≠ .computeFailed ∧
      ∃ d expected actual, lateFailure.error = .balanceConflict d expected actual := by
  have hfails : racing.Fails (.move 1 .settle) 1 lateFailure :=
    ⟨⟨_, rfl⟩, ⟨_, rfl⟩, rfl⟩
  have h := answers_of_valid (c := oneRate) (by decide +kernel) 0 hundredDollars twoExchanges
    racingEvents (by simp [racingEvents]) rfl
  obtain ⟨hcompute, hcommit, -⟩ := h.2.2 _ _ _ hfails
  exact ⟨hfails, hcompute, hcommit rfl⟩

end Session

end CurrencyWallet

import CurrencyWallet.Proofs.Exchange.Commit
import CurrencyWallet.Proofs.Ledger.Representation
import CurrencyWallet.Proofs.Wallet.Accounting

/-!
The course of requests that are under way side by side. What a move does to the ledger is a call or
nothing; an exchange that has been funded keeps both accounts, so that it can end in six ways only
(`ExchangeTask.Ends`), whatever other requests do between its moves. A property that every move
keeps, for its own task and for the others, holds after any run (`Session.Holds.run`).
-/
namespace CurrencyWallet

/-! ### Funded exchanges -/

namespace Ledger

variable {l : Ledger} {r : ExchangeRequest} {f : Funding}

theorem Reachable.run (h : l.Reachable) (calls : List Call) : (l.run calls).Reachable := by
  obtain ⟨cs, before, rfl⟩ := h
  exact ⟨cs, before ++ calls, (run_append _ _ _).symm⟩

theorem Reachable.nonNegative (h : l.Reachable) : l.NonNegative := by
  obtain ⟨cs, calls, rfl⟩ := h
  exact (nonNegative_new cs).run calls

theorem Serves.run (h : l.Serves r) (calls : List Call) : (l.run calls).Serves r where
  wellFormed := h.wellFormed.run calls
  opened := contains_run h.opened calls
  source := by
    rw [currencies_run]
    exact h.source
  target := by
    rw [currencies_run]
    exact h.target

structure Covers (l : Ledger) (r : ExchangeRequest) (f : Funding) : Prop extends l.Serves r where
  enough : ¬ f.source < r.amount
  nonneg : ¬ f.target.IsNegative

theorem Covers.run (h : l.Covers r f) (calls : List Call) : (l.run calls).Covers r f :=
  ⟨h.toServes.run calls, h.enough, h.nonneg⟩

/-- What a check of balances can have found: an exchange that is covered, or a reason that does not
point at a defect. -/
def Found (l : Ledger) (r : ExchangeRequest) : Except LedgerError Funding → Prop
  | .ok f => l.Covers r f
  | .error e => ¬ (ExchangeError.ofLedger e).IsInternal

theorem Found.run {found : Except LedgerError Funding} (h : l.Found r found) (calls : List Call) :
    (l.run calls).Found r found := by
  cases found with
  | error e => exact h
  | ok f => exact Covers.run h calls

theorem covers_fund {w : Wallet} (h : w.ledger.Reachable) (hfund : w.fund r = .ok f) :
    w.ledger.Covers r f := by
  obtain ⟨hsource, htarget, henough, -⟩ := Funding.check_eq_ok.1 hfund
  have hopen := contains_of_balance? hsource
  have hmem := h.wellFormed.accounts r.user hopen
  refine ⟨⟨h.wellFormed, hopen, ?_, ?_⟩, henough, h.nonNegative _ _ _ htarget⟩
  · exact (hmem r.source).1 (Option.isSome_of_mem hsource)
  · exact (hmem r.target).1 (Option.isSome_of_mem htarget)

theorem found_fund {w : Wallet} (h : w.ledger.Reachable) (r : ExchangeRequest) :
    w.ledger.Found r (w.fund r) := by
  cases hfund : w.fund r with
  | error e =>
    unfold Wallet.fund Funding.check at hfund
    split at hfund
    · cases hfund
      exact id
    · split at hfund
      · cases hfund
        exact id
      · split at hfund
        · cases hfund
          exact id
        · cases hfund
  | ok f => exact covers_fund h hfund

end Ledger

def Resolution.IsUsable (r : Resolution) : Prop :=
  ∀ rate, r.result? = some (.ok rate) → rate.rate.IsPositive

/-- An exchange under way: a positive amount between two currencies, with what was found in the
accounts of its user, before its join or before its settlement. -/
structure ExchangeTask.Sound (l : Ledger) (t : ExchangeTask) : Prop where
  distinct : t.run.request.source ≠ t.run.request.target
  amount : t.run.request.amount.IsPositive
  found : ∀ found, t.funding = some found → l.Found t.run.request found
  staged : t.run.stage = .inFlight ∨
    ∃ f rate p, t.run.Priced f rate p ∧ l.Covers t.run.request f

namespace ExchangeTask

variable {w : Wallet} {l : Ledger} {t : ExchangeTask} {f : Funding} {rate : ResolvedRate}

theorem Sound.run (h : t.Sound l) (calls : List Ledger.Call) : t.Sound (l.run calls) where
  distinct := h.distinct
  amount := h.amount
  found found hfound := (h.found found hfound).run calls
  staged := h.staged.imp_right fun ⟨f, rate, p, hpriced, hcovers⟩ =>
    ⟨f, rate, p, hpriced, hcovers.run calls⟩

theorem Sound.isCovered (h : t.Sound l) (hfunding : t.funding = some (.ok f))
    (hrate : rate.rate.IsPositive) : (t.run.pricingInput f rate).IsCovered :=
  have hcovers : l.Covers t.run.request f := h.found _ hfunding
  ⟨hrate, h.amount, hcovers.enough, hcovers.nonneg⟩

/-- How an exchange can end: at its join it is cancelled, reports what was found, or is broken off
by its price; at its settlement it is done or finds another balance. -/
inductive Ends (w : Wallet) (t : ExchangeTask) :
    Move → Attempt ExchangeFailure ExchangeOutcome → Prop
  | cancelled (h : t.cancelled = true) :
    Ends w t .join (.refused ⟨.deadlineExceeded, .deadlineExceeded⟩)
  | notFunded {e : LedgerError} (h : t.funding = some (.error e)) :
    Ends w t .join (.refused ⟨.validationFailed, .ofLedger e⟩)
  | notRated {e : RateError} (h : t.resolution.result? = some (.error e)) :
    Ends w t .join (.refused ⟨.rateFailed, .ofRate e⟩)
  | overflowed {f : Funding} {rate : ResolvedRate} {o : Overflow}
    (hflight : t.run.stage = .inFlight) (hcancelled : t.cancelled = false)
    (hfunding : t.funding = some (.ok f)) (hrate : t.resolution.result? = some (.ok rate))
    (hprice : Pricing.compute (t.run.pricingInput f rate) = .overflowed o) :
    Ends w t .join (.overflowed o)
  | conflict {f : Funding} {rate : ResolvedRate} {p : Pricing} {leg : SettlementLeg}
    {found : Decimal} (hpriced : t.run.Priced f rate p)
    (hconflict : (t.run.settlement f p).Conflict (w.ledger.balances t.run.request.user) leg found) :
    Ends w t .settle (.refused ⟨.commitFailed, .balanceConflict leg.currency leg.expected found⟩)
  | done {f : Funding} {rate : ResolvedRate} {p : Pricing} (hpriced : t.run.Priced f rate p)
    (hconfirms : w.ledger.Confirms t.run.request f) :
    Ends w t .settle (.ok (t.run.outcome f rate p))

def GoesOn (next : Wallet × Task) : Prop :=
  ∃ t : ExchangeTask, next.2 = .exchanging t ∧ t.Sound next.1.ledger

def Concludes (w : Wallet) (t : ExchangeTask) (m : Move) (next : Wallet × Task) : Prop :=
  ∃ result w', t.Ends w m result ∧ (result.isOk = false → w' = w) ∧
    next = (w'.recordAll (Wallet.exchangeEvent? result),
      .finished (Wallet.outcomeResult result) (some t.resolution))

theorem Concludes.of_ends {m : Move} {t' : ExchangeTask}
    {result : Attempt ExchangeFailure ExchangeOutcome} (h : t.Ends w m result)
    (hresult : t'.run.result? = some result) (hresolution : t'.resolution = t.resolution) :
    t.Concludes w m (Task.conclude w t') := by
  refine ⟨result, w, h, fun _ => rfl, ?_⟩
  rw [Task.conclude_of_some hresult, hresolution]

theorem Sound.result?_eq_none (h : t.Sound l) : t.run.result? = none := by
  unfold ExchangeRun.result?
  obtain hflight | ⟨f, rate, p, hpriced, -⟩ := h.staged
  · rw [hflight]
  · rw [hpriced.stage]

theorem Sound.goesOn (h : t.Sound w.ledger) : GoesOn (Task.conclude w t) := by
  rw [Task.conclude_of_none h.result?_eq_none]
  exact ⟨t, rfl, h⟩

theorem Sound.join (h : t.Sound w.ledger) (hrate : t.resolution.IsUsable) (now : Nat) :
    GoesOn (Task.moveExchange now w t .join) ∨
      t.Concludes w .join (Task.moveExchange now w t .join) := by
  simp only [Task.moveExchange]
  obtain hflight | ⟨f, rate, p, hpriced, hcovers⟩ := h.staged
  · rw [ExchangeRun.join_of_inFlight t.view hflight]
    obtain hverdict | ⟨hcancelled, hverdict⟩ | ⟨e, hfunding, hverdict⟩ | ⟨e, hrate, hverdict⟩ |
      ⟨f, rate, hcancelled, hfunding, hresult, hverdict⟩ := t.view.verdict_cases
    · left
      rw [hverdict]
      exact Sound.goesOn ⟨h.distinct, h.amount, h.found, Or.inl rfl⟩
    · right
      rw [hverdict]
      exact .of_ends (.cancelled hcancelled) rfl rfl
    · right
      rw [hverdict]
      exact .of_ends (.notFunded hfunding) rfl rfl
    · right
      rw [hverdict]
      exact .of_ends (.notRated hrate) rfl rfl
    · rw [hverdict]
      have hinput := h.isCovered hfunding (hrate rate hresult)
      cases hp : Pricing.compute (t.run.pricingInput f rate) with
      | ok p =>
        left
        simp only [hp]
        exact Sound.goesOn ⟨h.distinct, h.amount, h.found,
          Or.inr ⟨f, rate, p, ⟨h.distinct, hp, rfl⟩, h.found _ hfunding⟩⟩
      | refused e => exact absurd hp (Pricing.compute_ne_refused hinput e)
      | overflowed o =>
        right
        simp only [hp]
        exact .of_ends (.overflowed hflight hcancelled hfunding hresult hp) rfl rfl
  · left
    rw [ExchangeRun.step_looked_of_computed hpriced.stage,
      ExchangeRun.step_priced_of_computed hpriced.stage]
    exact h.goesOn

theorem Sound.settle (h : t.Sound w.ledger) (now : Nat) :
    GoesOn (Task.moveExchange now w t .settle) ∨
      t.Concludes w .settle (Task.moveExchange now w t .settle) := by
  simp only [Task.moveExchange]
  obtain hflight | ⟨f, rate, p, hpriced, hcovers⟩ := h.staged
  · left
    rw [Wallet.settle_of_pending (ExchangeRun.pending?_of_inFlight hflight)]
    exact h.goesOn
  · right
    obtain ⟨hconfirms, heq⟩ | ⟨-, leg, found, hconflict, heq⟩ :=
      Wallet.settle_cases hpriced hcovers.toServes
    · rw [heq]
      refine ⟨_, _, .done hpriced hconfirms, ?_, Task.conclude_of_some rfl⟩
      intro hfailed
      cases hfailed
    · rw [heq]
      exact .of_ends (.conflict hpriced hconflict) rfl rfl

theorem Sound.moveExchange (h : t.Sound w.ledger) (hreach : w.ledger.Reachable)
    (hrate : t.resolution.IsUsable) (now : Nat) (m : Move) :
    GoesOn (Task.moveExchange now w t m) ∨ t.Concludes w m (Task.moveExchange now w t m) := by
  cases m with
  | begin => exact Or.inl ⟨t, rfl, h⟩
  | fund =>
    refine Or.inl ⟨_, rfl, h.distinct, h.amount, ?_, h.staged⟩
    intro found hfound
    cases hfunding : t.funding with
    | none =>
      simp only [hfunding, Option.getD_none, Option.some.injEq] at hfound
      exact hfound ▸ Ledger.found_fund hreach _
    | some before =>
      simp only [hfunding, Option.getD_some] at hfound
      exact h.found found (hfunding.trans hfound)
  | serveRate => exact Or.inl ⟨_, rfl, h.distinct, h.amount, h.found, h.staged⟩
  | cancel => exact Or.inl ⟨_, rfl, h.distinct, h.amount, h.found, h.staged⟩
  | join => exact h.join hrate now
  | settle => exact h.settle now

end ExchangeTask

/-! ### Tasks -/

namespace Task

variable {w : Wallet} {t : Task}

def Sound (l : Ledger) : Task → Prop
  | exchanging t => t.Sound l
  | _ => True

theorem Sound.run {l : Ledger} (h : t.Sound l) (calls : List Ledger.Call) :
    t.Sound (l.run calls) := by
  cases t with
  | waiting id request => trivial
  | exchanging t => exact ExchangeTask.Sound.run h calls
  | finished result resolution => trivial

def resolution? : Task → Option Resolution
  | waiting _ _ => none
  | exchanging t => some t.resolution
  | finished _ resolution => resolution

theorem ledger_settle (w : Wallet) (run : ExchangeRun) :
    ∃ calls, (w.settle run).1.ledger = w.ledger.run calls := by
  unfold Wallet.settle
  cases run.pending? with
  | none => exact ⟨[], rfl⟩
  | some settlement => exact ⟨[.settle settlement], rfl⟩

@[simp] theorem ledger_conclude (w : Wallet) (t : ExchangeTask) :
    (conclude w t).1.ledger = w.ledger := by
  unfold conclude
  split
  · rfl
  · exact Wallet.ledger_recordAll _ _

theorem ledger_move (now : Nat) (w : Wallet) (t : Task) (m : Move) :
    ∃ calls, (t.move now w m).1.ledger = w.ledger.run calls := by
  cases t with
  | waiting id request =>
    cases m with
    | begin =>
      obtain ⟨next, hnext, hbegins⟩ := exists_begins now w id request
      rw [hnext]
      cases hbegins with
      | @queried call => exact ⟨[call], rfl⟩
      | @moved movement call => exact ⟨[call], Wallet.ledger_recordAll _ _⟩
      | rejected | started | stopped => exact ⟨[], rfl⟩
    | _ => exact ⟨[], rfl⟩
  | exchanging t =>
    cases m with
    | join => exact ⟨[], ledger_conclude _ _⟩
    | settle =>
      simp only [move, moveExchange, ledger_conclude]
      exact ledger_settle w t.run
    | _ => exact ⟨[], rfl⟩
  | finished result resolution =>
    cases resolution with
    | none => exact ⟨[], rfl⟩
    | some resolution =>
      cases m with
      | serveRate => exact ⟨[], rfl⟩
      | _ => exact ⟨[], rfl⟩

theorem exchangeTimeout_recordAll (w : Wallet) (event : Option MetricEvent) :
    (w.recordAll event).exchangeTimeout = w.exchangeTimeout := by
  cases event <;> rfl

theorem exchangeTimeout_conclude (w : Wallet) (t : ExchangeTask) :
    (conclude w t).1.exchangeTimeout = w.exchangeTimeout := by
  unfold conclude
  split
  · rfl
  · exact exchangeTimeout_recordAll w _

theorem exchangeTimeout_settle (w : Wallet) (run : ExchangeRun) :
    (w.settle run).1.exchangeTimeout = w.exchangeTimeout := by
  unfold Wallet.settle
  split <;> rfl

theorem exchangeTimeout_move (now : Nat) (w : Wallet) (t : Task) (m : Move) :
    (t.move now w m).1.exchangeTimeout = w.exchangeTimeout := by
  cases t with
  | waiting id request =>
    cases m with
    | begin =>
      obtain ⟨next, hnext, hbegins⟩ := exists_begins now w id request
      rw [hnext]
      cases hbegins with
      | moved => exact exchangeTimeout_recordAll _ _
      | _ => rfl
    | _ => rfl
  | exchanging t =>
    cases m with
    | join => exact exchangeTimeout_conclude w _
    | settle => exact (exchangeTimeout_conclude _ _).trans (exchangeTimeout_settle w t.run)
    | _ => rfl
  | finished result resolution =>
    cases resolution with
    | none => rfl
    | some resolution => cases m <;> rfl

theorem sound_begin (now : Nat) (w : Wallet) (id : ExchangeId) (request : WalletRequest) :
    ((waiting id request).move now w .begin).2.Sound w.ledger := by
  simp only [move]
  cases hcheck : request.check with
  | error e => trivial
  | ok admitted =>
    cases request with
    | balance u =>
      obtain rfl := WalletRequest.check_balance hcheck
      trivial
    | openAccounts u =>
      obtain rfl := WalletRequest.check_openAccounts hcheck
      trivial
    | move m u c amount =>
      obtain ⟨delta, rfl, -, -⟩ := WalletRequest.check_move hcheck
      trivial
    | exchange r =>
      obtain ⟨checked, rfl, hchecked⟩ := WalletRequest.check_exchange hcheck
      obtain ⟨rfl, hdistinct, hpositive⟩ := ExchangeRequest.check_eq_ok hchecked
      simp only [beginAdmitted]
      split
      · refine ⟨hdistinct, hpositive, ?_, Or.inl rfl⟩
        intro found hfound
        cases hfound
      · trivial

theorem Sound.move (h : t.Sound w.ledger) (hreach : w.ledger.Reachable)
    (hrate : ∀ r, t.resolution? = some r → r.IsUsable) (now : Nat) (m : Move) :
    (t.move now w m).2.Sound (t.move now w m).1.ledger := by
  obtain ⟨calls, hledger⟩ := ledger_move now w t m
  cases t with
  | waiting id request =>
    cases m with
    | begin =>
      rw [hledger]
      exact (sound_begin now w id request).run calls
    | _ => trivial
  | exchanging t =>
    obtain ⟨t', hnext, hsound⟩ | ⟨result, w', -, -, hnext⟩ :=
      ExchangeTask.Sound.moveExchange h hreach (hrate _ rfl) now m
    · change (moveExchange now w t m).2.Sound (moveExchange now w t m).1.ledger
      rw [hnext]
      exact hsound
    · change (moveExchange now w t m).2.Sound (moveExchange now w t m).1.ledger
      rw [hnext]
      trivial
  | finished result resolution =>
    cases resolution with
    | none => trivial
    | some resolution => cases m <;> trivial

/-! ### Searches -/

theorem resolution?_conclude (w : Wallet) (t : ExchangeTask) :
    (conclude w t).2.resolution? = some t.resolution := by
  unfold conclude
  split <;> rfl

@[simp] theorem desk_recordAll (w : Wallet) (events : Option MetricEvent) :
    (w.recordAll events).desk = w.desk := by
  cases events <;> rfl

theorem desk_conclude (w : Wallet) (t : ExchangeTask) : (conclude w t).1.desk = w.desk := by
  unfold conclude
  split
  · rfl
  · exact desk_recordAll _ _

theorem desk_settle (w : Wallet) (run : ExchangeRun) : (w.settle run).1.desk = w.desk := by
  unfold Wallet.settle
  cases run.pending? <;> rfl

theorem resolution?_move (now : Nat) (w : Wallet) (t : Task) (m : Move) :
    (∃ r, t.resolution? = some r ∧ (t.move now w m).1.desk = (w.desk.assist now r).1 ∧
      (t.move now w m).2.resolution? = some (w.desk.assist now r).2) ∨
    (t.move now w m).1.desk = w.desk ∧ ∀ r, (t.move now w m).2.resolution? = some r →
      t.resolution? = some r ∨ ∃ pair, r = .start w.desk.policy pair := by
  cases t with
  | waiting id request =>
    right
    cases m with
    | begin =>
      obtain ⟨next, hnext, hbegins⟩ := exists_begins now w id request
      rw [hnext]
      cases hbegins with
      | moved => exact ⟨desk_recordAll _ _, fun r hr => Or.inl hr⟩
      | started => exact ⟨rfl, fun r hr => Or.inr ⟨_, (Option.some.inj hr).symm⟩⟩
      | rejected | queried | stopped => exact ⟨rfl, fun r hr => Or.inl hr⟩
    | _ => exact ⟨rfl, fun r hr => Or.inl hr⟩
  | exchanging t =>
    cases m with
    | serveRate => exact Or.inl ⟨t.resolution, rfl, rfl, rfl⟩
    | join =>
      have hsame := resolution?_conclude w
        { t with run := (t.run.step (.looked t.view)).step .priced }
      exact Or.inr ⟨desk_conclude _ _, fun r hr => Or.inl (hsame.symm.trans hr)⟩
    | settle =>
      have hsame := resolution?_conclude (w.settle t.run).1 { t with run := (w.settle t.run).2 }
      exact Or.inr ⟨(desk_conclude _ _).trans (desk_settle w t.run),
        fun r hr => Or.inl (hsame.symm.trans hr)⟩
    | _ => exact Or.inr ⟨rfl, fun r hr => Or.inl hr⟩
  | finished result resolution =>
    cases resolution with
    | none => exact Or.inr ⟨rfl, fun r hr => Or.inl hr⟩
    | some resolution =>
      cases m with
      | serveRate => exact Or.inl ⟨resolution, rfl, rfl, rfl⟩
      | _ => exact Or.inr ⟨rfl, fun r hr => Or.inl hr⟩

end Task

namespace Resolution.IsUsable

variable {r : Resolution}

theorem start (policy : RatePolicy) (pair : CurrencyPair) :
    (Resolution.start policy pair).IsUsable := nofun

/-- No answer, from wherever, makes a search give a rate that is not positive. -/
theorem advance (h : r.IsUsable) (policy : RatePolicy) (answer : RateAnswer) :
    (r.advance policy answer).IsUsable := by
  obtain ⟨pair, request, result⟩ := r
  unfold Resolution.advance
  split
  · split
    · rename_i hrate
      intro rate heq
      cases heq
      exact hrate
    · exact h
  · exact h
  · exact h
  · split
    · rename_i hrate
      intro rate heq
      cases heq
      exact hrate
    · nofun
  · nofun
  · nofun
  · nofun
  · exact h
  · exact h
  · exact h

theorem assist (h : r.IsUsable) (d : RateDesk) (now : Nat) : (d.assist now r).2.IsUsable := by
  unfold RateDesk.assist
  split
  · exact h
  · exact h.advance _ _

end Resolution.IsUsable

/-! ### Runs -/

namespace Session

section Holds

variable {W : Wallet → Prop} {T : Wallet → Task → Prop} {s : Session}

structure Holds (W : Wallet → Prop) (T : Wallet → Task → Prop) (s : Session) : Prop where
  wallet : W s.wallet
  tasks : ∀ t ∈ s.tasks, T s.wallet t

/-- Every move keeps the properties, also for the tasks that do not move. -/
structure Kept (W : Wallet → Prop) (T : Wallet → Task → Prop) : Prop where
  move : ∀ (now : Nat) (w : Wallet) (t : Task) (m : Move), W w → T w t →
    W (t.move now w m).1 ∧ T (t.move now w m).1 (t.move now w m).2
  others : ∀ (now : Nat) (w : Wallet) (t t' : Task) (m : Move), W w → T w t → T w t' →
    T (t.move now w m).1 t'

theorem holds_start {w : Wallet} (hw : W w) (ht : ∀ id request, T w (.waiting id request))
    (now : Nat) (requests : List (ExchangeId × WalletRequest)) :
    (start now w requests).Holds W T := by
  refine ⟨hw, ?_⟩
  intro t hmem
  obtain ⟨r, -, rfl⟩ := List.mem_map.1 hmem
  exact ht r.1 r.2

theorem Holds.step (h : s.Holds W T) (hkept : Kept W T) (e : Event)
    (hanswer : ∀ i a, e = .answer i a → ∀ w t, T w t → T w (t.receive w.desk.policy a)) :
    (s.step e).Holds W T := by
  cases e with
  | elapse time => exact ⟨h.wallet, h.tasks⟩
  | move i m =>
    simp only [Session.step]
    cases hget : s.tasks[i]? with
    | none => exact h
    | some t =>
      have ht := h.tasks t (List.mem_of_getElem? hget)
      obtain ⟨hwallet, hmoved⟩ := hkept.move s.now s.wallet t m h.wallet ht
      refine ⟨hwallet, ?_⟩
      intro t' ht'
      obtain hother | rfl := List.mem_or_eq_of_mem_set ht'
      · exact hkept.others s.now s.wallet t t' m h.wallet ht (h.tasks t' hother)
      · exact hmoved
  | answer i a =>
    simp only [Session.step]
    cases hget : s.tasks[i]? with
    | none => exact h
    | some t =>
      have ht := h.tasks t (List.mem_of_getElem? hget)
      refine ⟨h.wallet, ?_⟩
      intro t' ht'
      obtain hother | rfl := List.mem_or_eq_of_mem_set ht'
      · exact h.tasks t' hother
      · exact hanswer i a rfl s.wallet t ht

theorem Holds.run (h : s.Holds W T) (hkept : Kept W T) (events : List Event)
    (hanswer : ∀ i a, .answer i a ∈ events → ∀ w t, T w t → T w (t.receive w.desk.policy a)) :
    (s.run events).Holds W T := by
  induction events generalizing s with
  | nil => exact h
  | cons e events ih =>
    refine ih (h.step hkept e ?_) ?_
    · intro i a he
      exact hanswer i a (he ▸ List.mem_cons_self)
    · intro i a hmem
      exact hanswer i a (List.mem_cons_of_mem _ hmem)

end Holds

end Session

end CurrencyWallet

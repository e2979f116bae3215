import CurrencyWallet.Proofs.Ledger.Frame
import CurrencyWallet.Proofs.Wallet.Accounting
import CurrencyWallet.Proofs.Wallet.Course

/-!
No fractions of a cent. Whatever amounts are asked for and whatever rates come in, no balance that
is stored and no amount in an answer ever has more than two places: every amount is rounded before
it goes any further, and sums and differences have no more places than their terms.
-/
namespace CurrencyWallet

open Decimal (amountScale)

/-! ### Ledgers -/

def Balances.IsRounded (b : Balances) : Prop := ∀ c d, b.get? c = some d → d.scale ≤ amountScale

theorem Balances.IsRounded.insert {b : Balances} {c : Currency} {d : Decimal} (h : b.IsRounded)
    (hd : d.scale ≤ amountScale) : Balances.IsRounded (b.insert c d) := by
  intro c' d' hget
  rw [Table.get?_insert] at hget
  split at hget
  · cases hget
    exact hd
  · exact h c' d' hget

namespace Ledger

def IsRounded (l : Ledger) : Prop := ∀ u, (l.balances u).IsRounded

def Call.IsRounded : Call → Prop
  | .apply _ _ delta => delta.scale ≤ amountScale
  | .settle s => s.source.updated.scale ≤ amountScale ∧ s.target.updated.scale ≤ amountScale
  | _ => True

variable {l : Ledger} {call : Call} {b : Balances}

theorem isRounded_new (cs : List Currency) : (new cs).IsRounded := fun _ _ _ h => by cases h

theorem IsRounded.of_commits {revision : Revision} (h : l.IsRounded) (hcall : call.IsRounded)
    (hcommits : l.Commits call revision) {e : Currency × Decimal} (he : e ∈ revision) :
    e.2.scale ≤ amountScale := by
  obtain ⟨u, c, delta, current, rfl, hcurrent, hupdated⟩ | ⟨s, rfl, -, hleg⟩ :=
    hcommits.written he
  · have hsum := Decimal.scale_add_le (applyDelta_eq_ok.1 hupdated).1
    exact hsum.trans (max_le (h u c current hcurrent) hcall)
  · obtain heq | heq := hleg
    · exact heq ▸ hcall.1
    · exact heq ▸ hcall.2

theorem IsRounded.perform (h : l.IsRounded) (hcall : call.IsRounded) :
    (l.perform call).1.IsRounded := by
  intro u c d hd
  obtain hbefore | rfl | ⟨-, revision, hcommits, hmem⟩ := eq_or_mem_of_balance?_perform hd
  · exact h u c d hbefore
  · decide
  · exact h.of_commits hcall hcommits hmem

theorem IsRounded.reply (h : l.IsRounded) (hcall : call.IsRounded)
    (hreply : (l.perform call).2 = .ok b) : b.IsRounded := by
  rw [balances_of_reply hreply]
  exact h.perform hcall call.user

end Ledger

/-! ### Prices and exchanges -/

structure Pricing.IsRounded (p : Pricing) : Prop where
  source : p.sourceBalance.scale ≤ amountScale
  target : p.targetBalance.scale ≤ amountScale
  received : p.received.scale ≤ amountScale

theorem Pricing.isRounded_of_compute {i : PricingInput} {p : Pricing} (h : compute i = .ok p) :
    p.IsRounded := by
  obtain ⟨-, -, product, rest, sum, -, -, -, -, -, rfl⟩ := compute_eq_ok.1 h
  exact ⟨Decimal.scale_roundAmount_le rest, Decimal.scale_roundAmount_le sum,
    Decimal.scale_roundAmount_le product⟩

/-- No amount of an outcome has more than two places; its rate may have more. -/
structure ExchangeOutcome.IsRounded (o : ExchangeOutcome) : Prop where
  sourceBalance : o.sourceBalance.scale ≤ amountScale
  targetBalance : o.targetBalance.scale ≤ amountScale
  spent : o.spent.scale ≤ amountScale
  received : o.received.scale ≤ amountScale
  balances : o.balances.IsRounded

def ExchangeStage.IsRounded : ExchangeStage → Prop
  | joined f _ => f.balances.IsRounded
  | computed f _ p => f.balances.IsRounded ∧ p.IsRounded
  | committed o | done o => o.IsRounded
  | _ => True

def ExchangeEvent.IsRounded : ExchangeEvent → Prop
  | looked view => ∀ f, view.funding = some (.ok f) → f.balances.IsRounded
  | _ => True

structure ExchangeRun.IsRounded (r : ExchangeRun) : Prop where
  amount : r.request.amount.scale ≤ amountScale
  stage : r.stage.IsRounded

namespace ExchangeRun.IsRounded

variable {r : ExchangeRun} {event : ExchangeEvent}

theorem outcome (h : r.IsRounded) {f : Funding} {p : Pricing} (hf : f.balances.IsRounded)
    (hp : p.IsRounded) (rate : ResolvedRate) : (r.outcome f rate p).IsRounded where
  sourceBalance := hp.source
  targetBalance := hp.target
  spent := h.amount
  received := hp.received
  balances := (hf.insert hp.source).insert hp.target

theorem nextStage_looked {view : JoinView} (hstage : r.stage = .inFlight)
    (hevent : (ExchangeEvent.looked view).IsRounded) :
    (r.nextStage (.looked view)).IsRounded := by
  unfold ExchangeRun.nextStage
  rw [hstage]
  dsimp only
  split
  · trivial
  · trivial
  · rename_i f rate hverdict
    exact hevent f (JoinView.funding_of_verdict hverdict)

theorem nextStage_priced {f : Funding} {rate : ResolvedRate} (hstage : r.stage = .joined f rate)
    (hf : f.balances.IsRounded) : (r.nextStage .priced).IsRounded := by
  unfold ExchangeRun.nextStage
  rw [hstage]
  dsimp only
  split
  · rename_i pricing hpricing
    exact ⟨hf, Pricing.isRounded_of_compute hpricing⟩
  · trivial
  · trivial

theorem step (h : r.IsRounded) (hevent : event.IsRounded) : (r.step event).IsRounded := by
  refine ⟨h.amount, ?_⟩
  change (r.nextStage event).IsRounded
  obtain ⟨id, request, stage⟩ := r
  cases stage with
  | started => cases event <;> trivial
  | inFlight =>
    cases event with
    | looked view => exact nextStage_looked rfl hevent
    | _ => trivial
  | joined f rate =>
    cases event with
    | priced => exact nextStage_priced rfl h.stage
    | _ => exact h.stage
  | computed f rate p =>
    cases event with
    | settled reply =>
      cases reply with
      | ok b => exact h.outcome h.stage.1 h.stage.2 rate
      | refused e => trivial
      | overflowed o => trivial
    | _ => exact h.stage
  | committed o => cases event <;> exact h.stage
  | done o => cases event <;> exact h.stage
  | failed failure => cases event <;> trivial
  | broken reached o => cases event <;> trivial

theorem pending (h : r.IsRounded) {s : Settlement} (hpending : r.pending? = some s) :
    (Ledger.Call.settle s).IsRounded := by
  have hstage := h.stage
  unfold ExchangeRun.pending? at hpending
  split at hpending
  · rename_i f rate p hcomputed
    cases hpending
    rw [hcomputed] at hstage
    exact ⟨hstage.2.source, hstage.2.target⟩
  · cases hpending

theorem result (h : r.IsRounded) {o : ExchangeOutcome} (hresult : r.result? = some (.ok o)) :
    o.IsRounded := by
  have hstage := h.stage
  unfold ExchangeRun.result? at hresult
  split at hresult
  · rename_i hdone
    cases hresult
    rwa [hdone] at hstage
  · cases hresult
  · cases hresult
  · cases hresult

end ExchangeRun.IsRounded

/-! ### Wallets -/

def WalletReply.IsRounded : WalletReply → Prop
  | balances b => b.IsRounded
  | outcome o => o.IsRounded

def Admitted.IsRounded : Admitted → Prop
  | query call | move _ call => call.IsRounded
  | exchange request => request.amount.scale ≤ amountScale

theorem WalletRequest.isRounded_of_check {request : WalletRequest} {admitted : Admitted}
    (h : request.check = .ok admitted) : admitted.IsRounded := by
  cases request with
  | balance u =>
    obtain rfl := check_balance h
    trivial
  | openAccounts u =>
    obtain rfl := check_openAccounts h
    trivial
  | move m u c amount =>
    obtain ⟨delta, rfl, hscale, -⟩ := check_move h
    exact hscale
  | exchange r =>
    obtain ⟨checked, rfl, hchecked⟩ := check_exchange h
    obtain ⟨rfl, -, -⟩ := ExchangeRequest.check_eq_ok hchecked
    exact Decimal.scale_roundAmount_le r.amount

structure ExchangeTask.IsRounded (t : ExchangeTask) : Prop where
  run : t.run.IsRounded
  funding : ∀ f, t.funding = some (.ok f) → f.balances.IsRounded

namespace Task

def IsRounded : Task → Prop
  | exchanging t => t.IsRounded
  | finished result _ => ∀ reply, result = .ok reply → reply.IsRounded
  | waiting _ _ => True

variable {w : Wallet} {t : ExchangeTask}

theorem isRounded_balancesResult {reply : Ledger.Reply}
    (h : ∀ b, reply = .ok b → b.IsRounded) (resolution : Option Resolution) :
    (finished (Wallet.balancesResult reply) resolution).IsRounded := by
  intro answer hanswer
  cases reply with
  | ok b =>
    cases hanswer
    exact h b rfl
  | refused e => cases hanswer
  | overflowed o => cases hanswer

theorem isRounded_outcomeResult {result : Attempt ExchangeFailure ExchangeOutcome}
    (h : ∀ o, result = .ok o → o.IsRounded) (resolution : Option Resolution) :
    (finished (Wallet.outcomeResult result) resolution).IsRounded := by
  intro answer hanswer
  cases result with
  | ok o =>
    cases hanswer
    exact h o rfl
  | refused e => cases hanswer
  | overflowed o => cases hanswer

theorem isRounded_conclude (h : t.IsRounded) : (conclude w t).2.IsRounded := by
  cases hresult : t.run.result? with
  | none =>
    rw [conclude_of_none hresult]
    exact h
  | some result =>
    rw [conclude_of_some hresult]
    exact isRounded_outcomeResult (fun o ho => h.run.result (ho ▸ hresult)) _

theorem isRounded_begin (hw : w.ledger.IsRounded) (now : Nat) (id : ExchangeId)
    (request : WalletRequest) :
    ((waiting id request).move now w .begin).1.ledger.IsRounded ∧
      ((waiting id request).move now w .begin).2.IsRounded := by
  obtain ⟨next, hnext, hbegins⟩ := exists_begins now w id request
  rw [hnext]
  cases hbegins with
  | queried hcheck =>
    have hcall := WalletRequest.isRounded_of_check hcheck
    exact ⟨hw.perform hcall, isRounded_balancesResult (fun b => hw.reply hcall) _⟩
  | moved hcheck =>
    have hcall := WalletRequest.isRounded_of_check hcheck
    refine ⟨?_, isRounded_balancesResult (fun b => hw.reply hcall) _⟩
    rw [Wallet.ledger_recordAll]
    exact hw.perform hcall
  | started hcheck =>
    exact ⟨hw, ⟨WalletRequest.isRounded_of_check hcheck, trivial⟩, fun f hf => by cases hf⟩
  | rejected | stopped => exact ⟨hw, fun reply hreply => by cases hreply⟩

theorem isRounded_settle (hw : w.ledger.IsRounded) (h : t.IsRounded) :
    (w.settle t.run).1.ledger.IsRounded ∧ (w.settle t.run).2.IsRounded := by
  unfold Wallet.settle
  cases hpending : t.run.pending? with
  | none => exact ⟨hw, h.run⟩
  | some s =>
    have hledger := hw.perform (h.run.pending hpending)
    have hsettled : (ExchangeEvent.settled (w.call (.settle s)).2).IsRounded := trivial
    have hconcluded : ExchangeEvent.concluded.IsRounded := trivial
    exact ⟨hledger, (h.run.step hsettled).step hconcluded⟩

theorem isRounded_moveExchange (hw : w.ledger.IsRounded) (h : t.IsRounded) (now : Nat)
    (m : Move) :
    (moveExchange now w t m).1.ledger.IsRounded ∧ (moveExchange now w t m).2.IsRounded := by
  cases m with
  | begin => exact ⟨hw, h⟩
  | fund =>
    refine ⟨hw, h.run, fun f hf => ?_⟩
    cases hfunding : t.funding with
    | none =>
      simp only [hfunding, Option.getD_none, Option.some.injEq] at hf
      obtain ⟨-, -, -, hbalances⟩ := Funding.check_eq_ok.1 hf
      exact hbalances ▸ hw t.run.request.user
    | some before =>
      simp only [hfunding, Option.getD_some] at hf
      exact h.funding f (hfunding.trans hf)
  | serveRate => exact ⟨hw, h.run, h.funding⟩
  | cancel => exact ⟨hw, h.run, h.funding⟩
  | join =>
    have hlooked : (ExchangeEvent.looked t.view).IsRounded := h.funding
    refine ⟨?_, isRounded_conclude ⟨(h.run.step hlooked).step trivial, h.funding⟩⟩
    rw [moveExchange, ledger_conclude]
    exact hw
  | settle =>
    obtain ⟨hledger, hrun⟩ := isRounded_settle hw h
    refine ⟨?_, isRounded_conclude ⟨hrun, h.funding⟩⟩
    simp only [moveExchange, ledger_conclude]
    exact hledger

theorem kept_isRounded :
    Session.Kept (fun w => w.ledger.IsRounded) (fun _ t => t.IsRounded) where
  move now w t m hw ht := by
    cases t with
    | waiting id request =>
      cases m with
      | begin => exact isRounded_begin hw now id request
      | _ => exact ⟨hw, trivial⟩
    | exchanging t => exact isRounded_moveExchange hw ht now m
    | finished result resolution =>
      cases resolution with
      | none => exact ⟨hw, ht⟩
      | some resolution => cases m <;> exact ⟨hw, ht⟩
  others _ _ _ _ _ _ _ ht' := ht'

theorem IsRounded.receive {t : Task} (h : t.IsRounded) (policy : RatePolicy)
    (answer : RateAnswer) : (t.receive policy answer).IsRounded := by
  cases t with
  | waiting id request => trivial
  | exchanging t => exact ⟨h.run, h.funding⟩
  | finished result resolution => cases resolution <;> exact h

end Task

/-! ### Runs -/

namespace Session

/-- Nothing ever has more than two places: from a ledger without users on, through any requests and
whatever happens to them in any order, every stored balance, and every amount of every answer. -/
theorem isRounded_run {w : Wallet} {currencies : List Currency}
    (hempty : w.ledger = .new currencies) (now : Nat)
    (requests : List (ExchangeId × WalletRequest)) (events : List Event) :
    (∀ u c d, ((start now w requests).run events).wallet.ledger.balance? u c = some d →
      d.scale ≤ amountScale) ∧
    ∀ reply, .ok reply ∈ ((start now w requests).run events).results → reply.IsRounded := by
  have hstart : (start now w requests).Holds (fun w => w.ledger.IsRounded)
      (fun _ t => t.IsRounded) := by
    refine holds_start ?_ (fun _ _ => trivial) now requests
    rw [hempty]
    exact Ledger.isRounded_new currencies
  have hrun := hstart.run Task.kept_isRounded events fun _ a _ w t ht => ht.receive _ a
  refine ⟨hrun.wallet, fun reply hreply => ?_⟩
  obtain ⟨t, ht, hresult⟩ := List.mem_filterMap.1 hreply
  have hrounded := hrun.tasks t ht
  cases t with
  | waiting id request => cases hresult
  | exchanging t => cases hresult
  | finished result resolution =>
    cases hresult
    exact hrounded reply rfl

theorem isRounded_run_some :
    newWallet.ledger = .new [.usd, .eur, .rub] ∧
    (∃ d, ((start 0 newWallet someRequests).run someEvents).wallet.ledger.balance? ⟨1⟩ .usd =
      some d ∧ d.scale ≤ amountScale) ∧
    ∃ o, .ok (.outcome o) ∈ ((start 0 newWallet someRequests).run someEvents).results ∧
      o.IsRounded := by
  have hempty : newWallet.ledger = .new [.usd, .eur, .rub] := rfl
  obtain ⟨hbalances, hreplies⟩ := isRounded_run hempty 0 someRequests someEvents
  refine ⟨hempty, ?_, ?_⟩
  · have hstored : ((((start 0 newWallet someRequests).run someEvents).wallet.ledger.balance?
        ⟨1⟩ .usd)).isSome := by decide +kernel
    obtain ⟨d, hd⟩ := Option.isSome_iff_exists.1 hstored
    exact ⟨d, hd, hbalances _ _ d hd⟩
  · obtain ⟨o, ho⟩ : ∃ o, ((start 0 newWallet someRequests).run someEvents).results[2]? =
        some (.ok (.outcome o)) := ⟨_, rfl⟩
    exact ⟨o, List.mem_of_getElem? ho, hreplies _ (List.mem_of_getElem? ho)⟩

end Session

end CurrencyWallet

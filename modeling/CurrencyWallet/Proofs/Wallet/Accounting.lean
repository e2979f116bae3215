import CurrencyWallet.Proofs.Exchange.Settlement
import CurrencyWallet.Proofs.Wallet.Request
import CurrencyWallet.Wallet.Concurrent
import Mathlib.Algebra.BigOperators.Group.List.Basic

/-!
The books of a wallet. Over any run of any requests, in any order of their moves and with any rates,
every account holds exactly what the requests that succeeded have put into it, less what they have
taken from it, as long as no balance reaches `amountLimit`.
-/
namespace CurrencyWallet

open Decimal (amountScale)

/-! ### What a request moves -/

/-- What a request with this result has put into an account, less what it has taken from it. -/
def WalletRequest.moved (u : UserId) (c : Currency) (q : WalletRequest) (result : WalletResult) :
    ℚ :=
  match q, result with
  | .move m v d amount, .ok _ =>
    if v = u ∧ d = c then m.sign * amount.roundAmount.toRat else 0
  | .exchange r, .ok (.outcome o) =>
    (if r.user = u ∧ r.target = c then o.received.toRat else 0) -
      (if r.user = u ∧ r.source = c then o.spent.toRat else 0)
  | _, _ => 0

theorem WalletRequest.moved_of_not_ok {u : UserId} {c : Currency} {result : WalletResult}
    (q : WalletRequest) (h : result.isOk = false) : q.moved u c result = 0 := by
  cases result with
  | ok _ => cases h
  | refused e => cases q <;> rfl
  | overflowed o => cases q <;> rfl

def Task.moved (u : UserId) (c : Currency) (q : WalletRequest) (t : Task) : ℚ :=
  (t.result?.map (q.moved u c)).getD 0

/-! ### What an exchange has found -/

structure Ledger.Backs (l : Ledger) (r : ExchangeRequest) (f : Funding) : Prop where
  opened : l.users.contains r.user = true
  source : r.source ∈ l.currencies
  target : r.target ∈ l.currencies
  sourcePlaces : f.source.scale ≤ amountScale
  targetPlaces : f.target.scale ≤ amountScale

namespace Ledger.Backs

variable {l : Ledger} {r : ExchangeRequest} {f : Funding}

theorem perform (h : l.Backs r f) (call : Ledger.Call) : (l.perform call).1.Backs r f where
  opened := contains_perform h.opened
  source := by
    rw [currencies_perform]
    exact h.source
  target := by
    rw [currencies_perform]
    exact h.target
  sourcePlaces := h.sourcePlaces
  targetPlaces := h.targetPlaces

theorem serves (h : l.Backs r f) (hl : l.WellFormed) : l.Serves r :=
  ⟨hl, h.opened, h.source, h.target⟩

theorem of_fund {w : Wallet} (hl : w.ledger.WellFormed) (hmoney : w.ledger.HoldsMoney)
    (h : w.fund r = .ok f) : w.ledger.Backs r f := by
  obtain ⟨hsource, htarget, -, -⟩ := Funding.check_eq_ok.1 h
  have hopen := contains_of_balance? hsource
  exact ⟨hopen, (hl.accounts _ hopen _).1 (Option.isSome_of_mem hsource),
    (hl.accounts _ hopen _).1 (Option.isSome_of_mem htarget), (hmoney _ _ _ hsource).places,
    (hmoney _ _ _ htarget).places⟩

end Ledger.Backs

/-- An exchange under way: it is of full cents between two currencies, it has been funded from the
accounts of its user, and it waits for its balances and its rate or for its settlement. -/
structure ExchangeTask.Follows (l : Ledger) (t : ExchangeTask) : Prop where
  distinct : t.run.request.source ≠ t.run.request.target
  places : t.run.request.amount.scale ≤ amountScale
  funded : ∀ f, t.funding = some (.ok f) → l.Backs t.run.request f
  staged : t.run.stage = .inFlight ∨
    ∃ f rate p, t.run.Priced f rate p ∧ l.Backs t.run.request f

def Task.Follows (l : Ledger) (q : WalletRequest) : Task → Prop
  | .waiting _ request => request = q
  | .exchanging t => (∃ a, q = .exchange { t.run.request with amount := a }) ∧ t.Follows l
  | .finished _ _ => True

theorem Task.Follows.perform {l : Ledger} {q : WalletRequest} {t : Task} (h : t.Follows l q)
    (call : Ledger.Call) : t.Follows (l.perform call).1 q := by
  cases t with
  | waiting id request => exact h
  | exchanging t =>
    obtain ⟨hrequest, hfollows⟩ := h
    refine ⟨hrequest, hfollows.distinct, hfollows.places, fun f hf => ?_, ?_⟩
    · exact (hfollows.funded f hf).perform call
    · obtain hflight | ⟨f, rate, p, hpriced, hbacks⟩ := hfollows.staged
      · exact Or.inl hflight
      · exact Or.inr ⟨f, rate, p, hpriced, hbacks.perform call⟩
  | finished result resolution => trivial

/-! ### Moves -/

/-- What a move of a task does: the ledger is left as it is or given one call, it holds money, and
its accounts change by what the task has moved. -/
structure Task.Advance (q : WalletRequest) (w : Wallet) (t : Task) (next : Wallet × Task) :
    Prop where
  ledger : next.1.ledger = w.ledger ∨ ∃ call, next.1.ledger = (w.ledger.perform call).1
  money : next.1.ledger.HoldsMoney
  follows : next.2.Follows next.1.ledger q
  books : next.1.ledger.InRange → ∀ u c,
    next.1.ledger.amount u c - w.ledger.amount u c = next.2.moved u c q - t.moved u c q

namespace Task

variable {q : WalletRequest} {w : Wallet} {t : Task}

theorem Advance.of_same {next : Wallet × Task} (hledger : next.1.ledger = w.ledger)
    (hmoney : w.ledger.HoldsMoney) (hfollows : next.2.Follows w.ledger q)
    (hmoved : ∀ u c, next.2.moved u c q = t.moved u c q) : Advance q w t next where
  ledger := Or.inl hledger
  money := hledger ▸ hmoney
  follows := hledger ▸ hfollows
  books _ u c := by rw [hledger, hmoved, sub_self, sub_self]

theorem Advance.refl (hmoney : w.ledger.HoldsMoney) (hfollows : t.Follows w.ledger q) :
    Advance q w t (w, t) :=
  .of_same rfl hmoney hfollows fun _ _ => rfl

/-! #### Beginning -/

section Begin

variable {id : ExchangeId} {u : UserId} {c : Currency}

theorem advance_balance {v : UserId} {admitted : Admitted} (hmoney : w.ledger.HoldsMoney)
    (h : (WalletRequest.balance v).check = .ok admitted) :
    Advance (.balance v) w (waiting id (.balance v)) (beginAdmitted w id admitted) := by
  obtain rfl := WalletRequest.check_balance h
  exact .of_same rfl hmoney trivial fun _ _ => rfl

theorem advance_openAccounts {v : UserId} {admitted : Admitted} (hmoney : w.ledger.HoldsMoney)
    (h : (WalletRequest.openAccounts v).check = .ok admitted) :
    Advance (.openAccounts v) w (waiting id (.openAccounts v)) (beginAdmitted w id admitted) := by
  obtain rfl := WalletRequest.check_openAccounts h
  refine ⟨Or.inr ⟨.openAccounts v, rfl⟩, hmoney.openAccounts v, trivial, fun _ u c => ?_⟩
  have hsame := w.ledger.amount_openAccounts v u c
  exact (sub_eq_zero.2 hsame).trans (sub_self 0).symm

theorem moved_move {m : Movement} {v : UserId} {d : Currency} {amount : Decimal}
    (reply : Ledger.Reply) :
    (WalletRequest.move m v d amount).moved u c (Wallet.balancesResult reply) =
      if reply.isOk ∧ v = u ∧ d = c then m.sign * amount.roundAmount.toRat else 0 := by
  cases reply with
  | ok b => simp [WalletRequest.moved, Wallet.balancesResult, Attempt.mapReason, Attempt.isOk]
  | refused e => rfl
  | overflowed o => rfl

theorem advance_move {m : Movement} {v : UserId} {d : Currency} {amount : Decimal}
    {admitted : Admitted} (hmoney : w.ledger.HoldsMoney)
    (h : (WalletRequest.move m v d amount).check = .ok admitted) :
    Advance (.move m v d amount) w (waiting id (.move m v d amount))
      (beginAdmitted w id admitted) := by
  obtain ⟨delta, rfl, hplaces, hvalue⟩ := WalletRequest.check_move h
  have hledger : (beginAdmitted w id (.move m (.apply v d delta))).1.ledger =
      (w.ledger.perform (.apply v d delta)).1 :=
    Wallet.ledger_recordAll _ _
  refine ⟨Or.inr ⟨_, hledger⟩, ?_, trivial, fun hrange u c => ?_⟩
  · rw [hledger]
    exact hmoney.apply hplaces
  · rw [hledger] at hrange ⊢
    have hmoved : (beginAdmitted w id (.move m (.apply v d delta))).2.moved u c
        (.move m v d amount) = _ :=
      moved_move (w.ledger.perform (.apply v d delta)).2
    rw [hmoved, Ledger.amount_apply hmoney hplaces hrange, hvalue]
    have hwaiting : (waiting id (.move m v d amount)).moved u c (.move m v d amount) = 0 := rfl
    rw [hwaiting, sub_zero, add_sub_cancel_left]

theorem advance_exchange {r : ExchangeRequest} {admitted : Admitted} (hmoney : w.ledger.HoldsMoney)
    (h : (WalletRequest.exchange r).check = .ok admitted) :
    Advance (.exchange r) w (waiting id (.exchange r)) (beginAdmitted w id admitted) := by
  obtain ⟨checked, rfl, hchecked⟩ := WalletRequest.check_exchange h
  obtain ⟨rfl, hdistinct, -⟩ := ExchangeRequest.check_eq_ok hchecked
  by_cases hreach : IsWithinReach w.exchangeTimeout
  · rw [beginAdmitted_of_reach hreach]
    refine .of_same rfl hmoney ⟨⟨r.amount, rfl⟩, hdistinct, ?_, ?_, Or.inl rfl⟩ fun _ _ => rfl
    · exact Decimal.scale_roundAmount_le r.amount
    · intro found hfound
      cases hfound
  · rw [beginAdmitted_of_not_reach hreach]
    exact .of_same rfl hmoney trivial fun _ _ => rfl

theorem advance_begin (hmoney : w.ledger.HoldsMoney) (now : Nat) :
    Advance q w (waiting id q) ((waiting id q).move now w .begin) := by
  simp only [move]
  cases hcheck : q.check with
  | error e => exact .of_same rfl hmoney trivial fun u c => q.moved_of_not_ok rfl
  | ok admitted =>
    cases q with
    | balance u => exact advance_balance hmoney hcheck
    | openAccounts u => exact advance_openAccounts hmoney hcheck
    | move m v d amount => exact advance_move hmoney hcheck
    | exchange r => exact advance_exchange hmoney hcheck

end Begin

/-! #### Exchanges under way -/

section Exchanging

variable {now : Nat} {t : ExchangeTask} {a : Decimal}

theorem conclude_of_none (h : t.run.result? = none) : conclude w t = (w, exchanging t) := by
  unfold conclude
  rw [h]

theorem conclude_of_some {result : Attempt ExchangeFailure ExchangeOutcome}
    (h : t.run.result? = some result) :
    conclude w t = (w.recordAll (Wallet.exchangeEvent? result),
      finished (Wallet.outcomeResult result) (some t.resolution)) := by
  unfold conclude
  rw [h]

theorem isOk_outcomeResult (result : Attempt ExchangeFailure ExchangeOutcome) :
    (Wallet.outcomeResult result).isOk = result.isOk := by
  cases result <;> rfl

theorem advance_conclude {t' : ExchangeTask} {result : Attempt ExchangeFailure ExchangeOutcome}
    (hmoney : w.ledger.HoldsMoney) (hresult : t'.run.result? = some result)
    (hfailed : result.isOk = false) : Advance q w (exchanging t) (conclude w t') := by
  rw [conclude_of_some hresult]
  refine .of_same (Wallet.ledger_recordAll _ _) hmoney trivial fun u c => ?_
  have hnothing : (Wallet.outcomeResult result).isOk = false := by
    rw [isOk_outcomeResult, hfailed]
  exact q.moved_of_not_ok hnothing

theorem result?_of_follows {l : Ledger} (h : t.Follows l) : t.run.result? = none := by
  unfold ExchangeRun.result?
  obtain hflight | ⟨f, rate, p, hpriced, -⟩ := h.staged
  · rw [hflight]
  · rw [hpriced.stage]

theorem advance_exchanging {t' : ExchangeTask} {w' : Wallet} (hledger : w'.ledger = w.ledger)
    (hmoney : w.ledger.HoldsMoney) (hq : q = .exchange { t'.run.request with amount := a })
    (h : t'.Follows w.ledger) : Advance q w (exchanging t) (w', exchanging t') :=
  .of_same hledger hmoney ⟨⟨a, hq⟩, h⟩ fun _ _ => rfl

theorem advance_join (hmoney : w.ledger.HoldsMoney)
    (hq : q = .exchange { t.run.request with amount := a }) (h : t.Follows w.ledger) :
    Advance q w (exchanging t) (moveExchange now w t .join) := by
  simp only [moveExchange]
  obtain hflight | ⟨f, rate, p, hpriced, hbacks⟩ := h.staged
  · obtain hsame | ⟨f, rate, p, hfunding, hp, hstage⟩ | ⟨result, hresult, hfailed⟩ :=
      ExchangeRun.join_cases (v := t.view) hflight
    · have hfollows : ExchangeTask.Follows w.ledger
          { t with run := (t.run.step (.looked t.view)).step .priced } :=
        ⟨h.distinct, h.places, h.funded, Or.inl hsame⟩
      rw [conclude_of_none (result?_of_follows hfollows)]
      exact advance_exchanging rfl hmoney hq hfollows
    · have hfollows : ExchangeTask.Follows w.ledger
          { t with run := (t.run.step (.looked t.view)).step .priced } :=
        ⟨h.distinct, h.places, h.funded,
          Or.inr ⟨f, rate, p, ⟨h.distinct, hp, hstage⟩, h.funded f hfunding⟩⟩
      rw [conclude_of_none (result?_of_follows hfollows)]
      exact advance_exchanging rfl hmoney hq hfollows
    · exact advance_conclude hmoney hresult hfailed
  · rw [ExchangeRun.step_looked_of_computed hpriced.stage,
      ExchangeRun.step_priced_of_computed hpriced.stage, conclude_of_none (result?_of_follows h)]
    exact advance_exchanging rfl hmoney hq h

theorem advance_done {f : Funding} {rate : ResolvedRate} {p : Pricing}
    (hmoney : w.ledger.HoldsMoney) (hq : q = .exchange { t.run.request with amount := a })
    (h : t.Follows w.ledger) (hpriced : t.run.Priced f rate p)
    (hbacks : w.ledger.Backs t.run.request f) (hconfirms : w.ledger.Confirms t.run.request f)
    (hcall : ∃ call, w.ledger.commit t.run.request.user
      (Ledger.settledRevision (t.run.settlement f p)) = (w.ledger.perform call).1) :
    Advance q w (exchanging t)
      (conclude
        { w with
          ledger := w.ledger.commit t.run.request.user
            (Ledger.settledRevision (t.run.settlement f p)) }
        { t with run := { t.run with stage := .done (t.run.outcome f rate p) } }) := by
  rw [conclude_of_some rfl]
  refine ⟨?_, ?_, trivial, fun hrange u c => ?_⟩
  · rw [Wallet.ledger_recordAll]
    exact Or.inr hcall
  · rw [Wallet.ledger_recordAll]
    exact Ledger.holdsMoney_commit_settled hpriced hbacks.opened hmoney
  · rw [Wallet.ledger_recordAll] at hrange ⊢
    rw [Ledger.amount_commit_settled hpriced hbacks.opened hconfirms hbacks.sourcePlaces
      hbacks.targetPlaces h.places hrange, hq, add_sub_assoc, add_sub_cancel_left]
    exact (sub_zero _).symm

theorem advance_settle (hwell : w.ledger.WellFormed) (hmoney : w.ledger.HoldsMoney)
    (hq : q = .exchange { t.run.request with amount := a }) (h : t.Follows w.ledger) :
    Advance q w (exchanging t) (moveExchange now w t .settle) := by
  simp only [moveExchange]
  obtain hflight | ⟨f, rate, p, hpriced, hbacks⟩ := h.staged
  · have hpending : t.run.pending? = none := by
      unfold ExchangeRun.pending?
      rw [hflight]
    have hsettle : w.settle t.run = (w, t.run) := by
      unfold Wallet.settle
      rw [hpending]
    rw [hsettle]
    simp only
    rw [conclude_of_none (result?_of_follows h)]
    exact advance_exchanging rfl hmoney hq h
  · obtain ⟨hconfirms, heq⟩ | ⟨-, leg, found, -, heq⟩ :=
      Wallet.settle_cases hpriced (hbacks.serves hwell)
    · have hperform := congrArg (fun next => next.1.ledger) (w.settle_of_stage hpriced.stage)
      simp only [heq] at hperform ⊢
      exact advance_done hmoney hq h hpriced hbacks hconfirms ⟨_, hperform⟩
    · rw [heq]
      exact advance_conclude hmoney rfl rfl

theorem advance_moveExchange (hwell : w.ledger.WellFormed) (hmoney : w.ledger.HoldsMoney)
    (hq : q = .exchange { t.run.request with amount := a }) (h : t.Follows w.ledger) (m : Move) :
    Advance q w (exchanging t) (moveExchange now w t m) := by
  cases m with
  | begin => exact advance_exchanging rfl hmoney hq h
  | fund =>
    refine advance_exchanging rfl hmoney hq ⟨h.distinct, h.places, fun f hf => ?_, h.staged⟩
    cases hfunding : t.funding with
    | none =>
      simp only [hfunding, Option.getD_none, Option.some.injEq] at hf
      exact .of_fund hwell hmoney hf
    | some found =>
      simp only [hfunding, Option.getD_some] at hf
      exact h.funded f (hfunding.trans hf)
  | serveRate =>
    exact advance_exchanging rfl hmoney hq ⟨h.distinct, h.places, h.funded, h.staged⟩
  | cancel => exact advance_exchanging rfl hmoney hq ⟨h.distinct, h.places, h.funded, h.staged⟩
  | join => exact advance_join hmoney hq h
  | settle => exact advance_settle hwell hmoney hq h

end Exchanging

/-! #### Any move -/

theorem advance_of_move (hwell : w.ledger.WellFormed) (hmoney : w.ledger.HoldsMoney)
    (h : t.Follows w.ledger q) (now : Nat) (m : Move) : Advance q w t (t.move now w m) := by
  cases t with
  | waiting id request =>
    obtain rfl : request = q := h
    cases m with
    | begin => exact advance_begin hmoney now
    | _ => exact .refl hmoney rfl
  | exchanging t =>
    obtain ⟨⟨a, hq⟩, hfollows⟩ := h
    exact advance_moveExchange hwell hmoney hq hfollows m
  | finished result resolution =>
    cases resolution with
    | none => exact .refl hmoney h
    | some resolution =>
      cases m with
      | serveRate => exact .of_same rfl hmoney trivial fun _ _ => rfl
      | _ => exact .refl hmoney trivial

theorem advance_receive (hmoney : w.ledger.HoldsMoney) (h : t.Follows w.ledger q)
    (answer : RateAnswer) : Advance q w t (w, t.receive w.desk.policy answer) := by
  cases t with
  | waiting id request => exact .refl hmoney h
  | exchanging t =>
    obtain ⟨⟨a, hq⟩, hfollows⟩ := h
    exact advance_exchanging rfl hmoney hq
      ⟨hfollows.distinct, hfollows.places, hfollows.funded, hfollows.staged⟩
  | finished result resolution =>
    cases resolution with
    | none => exact .refl hmoney h
    | some resolution => exact .of_same rfl hmoney trivial fun _ _ => rfl

end Task

/-! ### Sessions -/

namespace Session

def moved (requests : List (ExchangeId × WalletRequest)) (s : Session) (u : UserId) (c : Currency) :
    ℚ :=
  (List.zipWith (fun r t => Task.moved u c r.2 t) requests s.tasks).sum

def StaysInRange (s : Session) (events : List Event) : Prop :=
  ∀ done, done <+: events → (s.run done).wallet.ledger.InRange

structure Sound (requests : List (ExchangeId × WalletRequest)) (s : Session) : Prop where
  length : s.tasks.length = requests.length
  follows : ∀ (i : Nat) (r : ExchangeId × WalletRequest) (t : Task),
    requests[i]? = some r → s.tasks[i]? = some t → t.Follows s.wallet.ledger r.2
  wellFormed : s.wallet.ledger.WellFormed
  money : s.wallet.ledger.HoldsMoney
  books : ∀ u c, s.wallet.ledger.amount u c = s.moved requests u c

section Steps

variable {requests : List (ExchangeId × WalletRequest)} {s : Session} {i : Nat}
  {r : ExchangeId × WalletRequest} {t t' : Task}

theorem zipWith_set {α β γ : Type} (f : α → β → γ) {as : List α} {a : α} {i : Nat}
    (h : as[i]? = some a) (bs : List β) (b : β) :
    List.zipWith f as (bs.set i b) = (List.zipWith f as bs).set i (f a b) := by
  induction as generalizing bs i with
  | nil => cases h
  | cons a' as ih =>
    cases bs with
    | nil => rfl
    | cons b' bs =>
      cases i with
      | zero =>
        cases h
        rfl
      | succ i => exact congrArg (f a' b' :: ·) (ih h bs)

theorem moved_set (hr : requests[i]? = some r) (ht : s.tasks[i]? = some t) (w : Wallet)
    (u : UserId) (c : Currency) :
    moved requests { s with wallet := w, tasks := s.tasks.set i t' } u c =
      s.moved requests u c + (t'.moved u c r.2 - t.moved u c r.2) := by
  have hget : (List.zipWith (fun r t => Task.moved u c r.2 t) requests s.tasks)[i]? =
      some (t.moved u c r.2) := by
    rw [List.getElem?_zipWith, hr, ht]
  obtain ⟨hlt, hat⟩ := List.getElem?_eq_some_iff.1 hget
  rw [moved, zipWith_set _ hr, List.sum_set', dif_pos hlt, hat, moved]
  ring

theorem Sound.set {w : Wallet} (h : s.Sound requests) (hr : requests[i]? = some r)
    (ht : s.tasks[i]? = some t) (hadvance : Task.Advance r.2 s.wallet t (w, t'))
    (hrange : w.ledger.InRange) :
    Sound requests { s with wallet := w, tasks := s.tasks.set i t' } := by
  have hledger : w.ledger = s.wallet.ledger ∨ ∃ call, w.ledger = (s.wallet.ledger.perform call).1 :=
    hadvance.ledger
  have hkeep : ∀ {q : WalletRequest} {t : Task}, t.Follows s.wallet.ledger q →
      t.Follows w.ledger q := fun {q t} hfollows => by
    obtain heq | ⟨call, heq⟩ := hledger
    · rwa [heq]
    · rw [heq]
      exact hfollows.perform call
  have hwell : w.ledger.WellFormed := by
    obtain heq | ⟨call, heq⟩ := hledger
    · rw [heq]
      exact h.wellFormed
    · rw [heq]
      exact h.wellFormed.perform call
  refine ⟨?_, ?_, hwell, hadvance.money, fun u c => ?_⟩
  · rw [List.length_set, h.length]
  · intro k r' task hr' htask
    have hlt : i < s.tasks.length := (List.getElem?_eq_some_iff.1 ht).1
    by_cases hk : k = i
    · subst hk
      simp only [List.getElem?_set_self hlt] at htask
      cases htask
      cases hr.symm.trans hr'
      exact hadvance.follows
    · simp only [List.getElem?_set_ne (Ne.symm hk)] at htask
      exact hkeep (h.follows k r' task hr' htask)
  · rw [moved_set hr ht, ← h.books, ← hadvance.books hrange]
    ring

theorem Sound.exists_request (h : s.Sound requests) (ht : s.tasks[i]? = some t) :
    ∃ r, requests[i]? = some r := by
  have hlt : i < requests.length := h.length ▸ (List.getElem?_eq_some_iff.1 ht).1
  exact ⟨requests[i], List.getElem?_eq_getElem hlt⟩

theorem Sound.step (h : s.Sound requests) (e : Event)
    (hrange : (s.step e).wallet.ledger.InRange) : (s.step e).Sound requests := by
  cases e with
  | elapse time => exact ⟨h.length, h.follows, h.wellFormed, h.money, h.books⟩
  | move index m =>
    simp only [Session.step] at hrange ⊢
    cases ht : s.tasks[index]? with
    | none => exact h
    | some t =>
      obtain ⟨r, hr⟩ := h.exists_request ht
      rw [ht] at hrange
      exact h.set hr ht
        (Task.advance_of_move h.wellFormed h.money (h.follows index r t hr ht) s.now m) hrange
  | answer index a =>
    simp only [Session.step] at hrange ⊢
    cases ht : s.tasks[index]? with
    | none => exact h
    | some t =>
      obtain ⟨r, hr⟩ := h.exists_request ht
      rw [ht] at hrange
      exact h.set hr ht (Task.advance_receive h.money (h.follows index r t hr ht) a) hrange

theorem Sound.run (h : s.Sound requests) {events : List Event} (hrange : s.StaysInRange events) :
    (s.run events).Sound requests := by
  induction events generalizing s with
  | nil => exact h
  | cons e events ih =>
    have hfirst : (s.step e).wallet.ledger.InRange := hrange [e] ⟨events, rfl⟩
    refine ih (h.step e hfirst) fun done hdone => ?_
    exact hrange (e :: done) ((List.cons_prefix_cons).2 ⟨rfl, hdone⟩)

end Steps

theorem sound_start (now : Nat) {w : Wallet} {currencies : List Currency}
    (hempty : w.ledger = .new currencies) (requests : List (ExchangeId × WalletRequest)) :
    (start now w requests).Sound requests := by
  refine ⟨List.length_map _, fun i r t hr ht => ?_, ?_, ?_, fun u c => ?_⟩
  · simp only [start, List.getElem?_map, hr, Option.map_some] at ht
    cases ht
    rfl
  · simp only [start]
    rw [hempty]
    exact Ledger.wellFormed_new currencies
  · simp only [start]
    rw [hempty]
    exact Ledger.holdsMoney_new currencies
  · have hnothing : List.zipWith (fun r t => Task.moved u c r.2 t) requests
        (start now w requests).tasks = requests.map fun _ => 0 := by
      rw [start, List.zipWith_map_right, List.zipWith_self]
      rfl
    rw [moved, hnothing, List.sum_map_zero]
    simp only [start]
    rw [hempty]
    rfl

/-- Over any run from an empty ledger, every account holds what its requests have moved. -/
theorem amount_run (now : Nat) {w : Wallet} {currencies : List Currency}
    (hempty : w.ledger = .new currencies) (requests : List (ExchangeId × WalletRequest))
    (events : List Event) (hrange : (start now w requests).StaysInRange events)
    (u : UserId) (c : Currency) :
    ((start now w requests).run events).wallet.ledger.amount u c =
      ((start now w requests).run events).moved requests u c :=
  ((sound_start now hempty requests).run hrange).books u c

theorem staysInRange_of_forall {s : Session} {events : List Event}
    (h : ∀ done ∈ events.inits, ∀ e ∈ (s.run done).wallet.ledger.users.toList,
      ∀ f ∈ e.2.balances.toList, f.2.toRat < Decimal.amountLimit) : s.StaysInRange events :=
  fun done hdone => Ledger.inRange_of_forall (h done ((List.mem_inits done events).2 hdone))

def newWallet : Wallet :=
  ⟨.new [.usd, .eur, .rub], ⟨⟨0, 0, 0, false⟩, ∅, .new 0⟩, 10000, .zero⟩

def someRequests : List (ExchangeId × WalletRequest) :=
  [(⟨0⟩, .openAccounts ⟨1⟩),
    (⟨1⟩, .move .deposit ⟨1⟩ .usd (.small 100005 3)),
    (⟨2⟩, .exchange ⟨⟨1⟩, .usd, .eur, .small 10 0⟩),
    (⟨3⟩, .move .deposit ⟨1⟩ .rub (.small 500 0)),
    (⟨4⟩, .exchange ⟨⟨1⟩, .usd, .eur, .small 100 0⟩)]

def someEvents : List Event :=
  [.move 0 .begin, .move 1 .begin, .move 2 .begin, .move 2 .fund, .move 3 .begin,
    .answer 2 (.quoted (.small 92 2)), .move 2 .join, .move 2 .settle,
    .move 4 .begin, .move 4 .fund, .move 4 .join]

theorem amount_run_some :
    ((start 0 newWallet someRequests).run someEvents).wallet.ledger.amount ⟨1⟩ .usd =
      9001 / 100 := by
  have hrange : (start 0 newWallet someRequests).StaysInRange someEvents :=
    staysInRange_of_forall (by decide +kernel)
  rw [amount_run 0 rfl someRequests someEvents hrange]
  decide +kernel

end Session

end CurrencyWallet

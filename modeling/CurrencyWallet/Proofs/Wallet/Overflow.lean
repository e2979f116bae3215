import CurrencyWallet.Proofs.Wallet.Faults

/-!
When a request is broken off. Nothing bounds an amount, a rate or a balance but the width of a
decimal, so that a deposit can make its balance too wide, and an exchange its product or the balance
that receives it. Nothing bounds the time for an exchange either, and where it is so long that no
clock reaches its deadline, an exchange is broken off before it has begun. These are the only
requests that are broken off, whatever other requests are under way and wherever the rates come
from: no difference overflows, and no settlement does. A request that is broken off changes nothing,
and its end is not counted either.
-/
namespace CurrencyWallet

open Decimal (rangeLimit)

/-! ### Movements -/

theorem applyDelta_eq_overflowed {c : Currency} {current amount : Decimal} {o : Overflow}
    (m : Movement) (hcurrent : ¬ current.IsNegative) (hamount : amount.IsPositive) :
    applyDelta c current (m.delta amount) = .overflowed o ↔
      m = .deposit ∧ o = .addition ∧ rangeLimit ≤ current.toRat + amount.toRat := by
  have hnonneg : 0 ≤ amount.toRat := Decimal.toRat_nonneg_iff.2 (le_of_lt hamount)
  have hcurrent' : 0 ≤ current.toRat := not_lt.1 fun hlt => hcurrent (Decimal.isNegative_iff.2 hlt)
  cases m with
  | deposit =>
    have hadd := Decimal.add_eq_error_iff (a := current) (b := amount) (o := o)
    rw [abs_of_nonneg (add_nonneg hcurrent' hnonneg)] at hadd
    rw [Movement.delta, applyDelta_deposit hamount, ← hadd]
    cases current.add amount <;> simp [Attempt.ofArithmetic]
  | withdraw =>
    obtain ⟨rest, hsub⟩ := Decimal.exists_sub_of_nonneg hcurrent' hnonneg
    rw [Movement.delta, applyDelta_withdraw hcurrent hamount, hsub]
    refine iff_of_false ?_ ?_
    · split <;> rintro ⟨⟩
    · rintro ⟨hdeposit, -⟩
      cases hdeposit

theorem Ledger.perform_apply_overflowed {l : Ledger} (hl : l.WellFormed) {u : UserId}
    {c : Currency} {delta : Decimal} {o : Overflow} :
    (l.perform (.apply u c delta)).2 = .overflowed o ↔
      ∃ current, l.balance? u c = some current ∧ applyDelta c current delta = .overflowed o := by
  rw [perform_apply hl]
  by_cases hc : c ∈ l.currencies
  · rw [if_pos hc]
    cases hb : l.balance? u c with
    | none => simp
    | some current => cases hdelta : applyDelta c current delta <;> simp [hdelta]
  · rw [if_neg hc]
    refine iff_of_false (by rintro ⟨⟩) ?_
    rintro ⟨current, hb, -⟩
    have hopen := contains_of_balance? hb
    exact hc ((hl.accounts u hopen c).1 (Option.isSome_of_mem hb))

/-! ### Tasks -/

/-- What breaks a request off: the sum of a deposit and its balance, the deadline of an exchange,
its product, or the sum of what is received and its balance. -/
inductive Task.Overflows (w : Wallet) : Task → Move → Overflow → Prop
  | deposit {id : ExchangeId} {u : UserId} {c : Currency} {amount current : Decimal}
    (huser : u.IsValid) (hcode : c.IsValid) (hamount : amount.roundAmount.IsPositive)
    (hcurrent : w.ledger.balance? u c = some current)
    (hwide : rangeLimit ≤ current.toRat + amount.roundAmount.toRat) :
    Overflows w (waiting id (.move .deposit u c amount)) .begin .addition
  | deadline {id : ExchangeId} {asked checked : ExchangeRequest}
    (hcheck : asked.check = .ok checked) (hbeyond : ¬ IsWithinReach w.exchangeTimeout) :
    Overflows w (waiting id (.exchange asked)) .begin .moment
  | product {t : ExchangeTask} {f : Funding} {rate : ResolvedRate}
    (hflight : t.run.stage = .inFlight) (hcancelled : t.cancelled = false)
    (hfunding : t.funding = some (.ok f)) (hrate : t.resolution.result? = some (.ok rate))
    (hwide : rangeLimit ≤ t.run.request.amount.toRat * rate.rate.toRat) :
    Overflows w (exchanging t) .join .multiplication
  | received {t : ExchangeTask} {f : Funding} {rate : ResolvedRate} {product : Decimal}
    (hflight : t.run.stage = .inFlight) (hcancelled : t.cancelled = false)
    (hfunding : t.funding = some (.ok f)) (hrate : t.resolution.result? = some (.ok rate))
    (hproduct : t.run.request.amount.mul rate.rate = .ok product)
    (hwide : rangeLimit ≤ f.target.toRat + product.roundAmount.toRat) :
    Overflows w (exchanging t) .join .addition

namespace Task

variable {w : Wallet} {o : Overflow}

theorem move_begin_movement (now : Nat) (w : Wallet) (id : ExchangeId) (m : Movement) (u : UserId)
    (c : Currency) (amount : Decimal) :
    (waiting id (.move m u c amount)).move now w .begin =
      if ¬ u.IsValid then (w, finished (.refused (.invalid (.userId u))) none)
      else if ¬ c.IsValid then (w, finished (.refused (.invalid (.currencyCode c))) none)
      else if ¬ amount.roundAmount.IsPositive then
        (w, finished (.refused (.invalid (.amountBelowCent amount))) none)
      else beginAdmitted w id (.move m (.apply u c (m.delta amount.roundAmount))) := by
  simp only [move, WalletRequest.check_move_eq]
  split_ifs <;> rfl

theorem balancesResult_overflowed {reply : Ledger.Reply} :
    Wallet.balancesResult reply = .overflowed o ↔ reply = .overflowed o := by
  cases reply <;> simp [Wallet.balancesResult, Attempt.mapReason]

theorem outcomeResult_overflowed {result : Attempt ExchangeFailure ExchangeOutcome} :
    Wallet.outcomeResult result = .overflowed o ↔ result = .overflowed o := by
  cases result <;> simp [Wallet.outcomeResult, Attempt.mapReason]

theorem beginAdmitted_movement {id : ExchangeId} {m : Movement} {u : UserId} {c : Currency}
    {delta : Decimal} {r : Option Resolution} {w' : Wallet} :
    beginAdmitted w id (.move m (.apply u c delta)) = (w', finished (.overflowed o) r) ↔
      (w.ledger.perform (.apply u c delta)).2 = .overflowed o ∧ w' = w ∧ r = none := by
  have hequation : beginAdmitted w id (.move m (.apply u c delta)) =
      (({ w with ledger := (w.ledger.perform (.apply u c delta)).1 } : Wallet).recordAll
          (Wallet.movementEvent? m (w.ledger.perform (.apply u c delta)).2),
        finished (Wallet.balancesResult (w.ledger.perform (.apply u c delta)).2) none) := rfl
  rw [hequation]
  constructor
  · intro h
    obtain ⟨hwallet, hanswer⟩ := Prod.mk.inj h
    obtain ⟨hreply, hr⟩ := finished.inj hanswer
    rw [balancesResult_overflowed] at hreply
    rw [hreply, Ledger.perform_eq_of_not_isOk (by rw [hreply]; rfl)] at hwallet
    exact ⟨hreply, hwallet.symm, hr.symm⟩
  · rintro ⟨hreply, rfl, rfl⟩
    rw [hreply, Ledger.perform_eq_of_not_isOk (by rw [hreply]; rfl)]
    rfl

theorem overflows_movement_iff {id : ExchangeId} {m : Movement} {u : UserId} {c : Currency}
    {amount : Decimal} :
    Overflows w (waiting id (.move m u c amount)) .begin o ↔
      m = .deposit ∧ o = .addition ∧ u.IsValid ∧ c.IsValid ∧ amount.roundAmount.IsPositive ∧
        ∃ current, w.ledger.balance? u c = some current ∧
          rangeLimit ≤ current.toRat + amount.roundAmount.toRat := by
  constructor
  · intro h
    cases h with
    | deposit huser hcode hamount hcurrent hwide =>
      exact ⟨rfl, rfl, huser, hcode, hamount, _, hcurrent, hwide⟩
  · rintro ⟨rfl, rfl, huser, hcode, hamount, current, hcurrent, hwide⟩
    exact .deposit huser hcode hamount hcurrent hwide

theorem overflows_exchange_iff {id : ExchangeId} {asked : ExchangeRequest} :
    Overflows w (waiting id (.exchange asked)) .begin o ↔
      o = .moment ∧ (∃ checked, asked.check = .ok checked) ∧
        ¬ IsWithinReach w.exchangeTimeout := by
  constructor
  · intro h
    cases h with
    | deadline hcheck hbeyond => exact ⟨rfl, ⟨_, hcheck⟩, hbeyond⟩
  · rintro ⟨rfl, ⟨checked, hcheck⟩, hbeyond⟩
    exact .deadline hcheck hbeyond

theorem not_overflowed_begin {now : Nat} {w' : Wallet} {id : ExchangeId} {request : WalletRequest}
    (h : ∀ admitted, request.check = .ok admitted →
      ∀ r, (beginAdmitted w id admitted).2 ≠ finished (.overflowed o) r) :
    ¬ ∃ r, (waiting id request).move now w .begin = (w', finished (.overflowed o) r) := by
  rintro ⟨r, hr⟩
  simp only [move] at hr
  cases hcheck : request.check with
  | error e =>
    rw [hcheck] at hr
    cases hr
  | ok admitted =>
    rw [hcheck] at hr
    exact h admitted hcheck r (congrArg Prod.snd hr)

theorem overflowed_begin_exchange (now : Nat) (id : ExchangeId) (asked : ExchangeRequest)
    (w' : Wallet) :
    (∃ r, (waiting id (.exchange asked)).move now w .begin =
      (w', finished (.overflowed o) r)) ↔
      w' = w ∧ Overflows w (waiting id (.exchange asked)) .begin o := by
  rw [overflows_exchange_iff]
  simp only [move]
  cases hcheck : (WalletRequest.exchange asked).check with
  | error e =>
    refine iff_of_false ?_ ?_
    · rintro ⟨r, hr⟩
      cases hr
    · rintro ⟨-, -, ⟨checked, hchecked⟩, -⟩
      rw [WalletRequest.check, hchecked] at hcheck
      cases hcheck
  | ok admitted =>
    obtain ⟨checked, rfl, hchecked⟩ := WalletRequest.check_exchange hcheck
    simp only [beginAdmitted]
    split
    · rename_i hreach
      refine iff_of_false ?_ fun h => h.2.2.2 hreach
      rintro ⟨r, hr⟩
      cases hr
    · rename_i hbeyond
      constructor
      · rintro ⟨r, hr⟩
        cases hr
        exact ⟨rfl, rfl, ⟨checked, hchecked⟩, hbeyond⟩
      · rintro ⟨rfl, rfl, -, -⟩
        exact ⟨none, rfl⟩

theorem overflowed_begin (hreach : w.ledger.Reachable) (now : Nat) (id : ExchangeId)
    (request : WalletRequest) (w' : Wallet) :
    (∃ r, (waiting id request).move now w .begin = (w', finished (.overflowed o) r)) ↔
      w' = w ∧ Overflows w (waiting id request) .begin o := by
  cases request with
  | balance u =>
    refine iff_of_false (not_overflowed_begin ?_) ?_
    · intro admitted hcheck r hr
      obtain rfl := WalletRequest.check_balance hcheck
      cases hr
    · rintro ⟨-, hover⟩
      cases hover
  | openAccounts u =>
    refine iff_of_false (not_overflowed_begin ?_) ?_
    · intro admitted hcheck r hr
      obtain rfl := WalletRequest.check_openAccounts hcheck
      cases hr
    · rintro ⟨-, hover⟩
      cases hover
  | exchange asked => exact overflowed_begin_exchange now id asked w'
  | move m u c amount =>
    have hrefused : ∀ e, ¬ ∃ r, ((w, finished (.refused e) none) : Wallet × Task) =
        (w', finished (.overflowed o) r) := by
      rintro e ⟨r, hr⟩
      cases hr
    rw [move_begin_movement, overflows_movement_iff]
    by_cases huser : u.IsValid
    swap
    · rw [if_pos huser]
      exact iff_of_false (hrefused _) fun h => huser h.2.2.2.1
    by_cases hcode : c.IsValid
    swap
    · rw [if_neg (not_not.2 huser), if_pos hcode]
      exact iff_of_false (hrefused _) fun h => hcode h.2.2.2.2.1
    by_cases hamount : amount.roundAmount.IsPositive
    swap
    · rw [if_neg (not_not.2 huser), if_neg (not_not.2 hcode), if_pos hamount]
      exact iff_of_false (hrefused _) fun h => hamount h.2.2.2.2.2.1
    rw [if_neg (not_not.2 huser), if_neg (not_not.2 hcode), if_neg (not_not.2 hamount)]
    simp only [beginAdmitted_movement, Ledger.perform_apply_overflowed hreach.wellFormed]
    constructor
    · rintro ⟨r, ⟨current, hcurrent, hdelta⟩, rfl, -⟩
      obtain ⟨rfl, rfl, hwide⟩ := (applyDelta_eq_overflowed m
        (hreach.nonNegative _ _ _ hcurrent) hamount).1 hdelta
      exact ⟨rfl, rfl, rfl, huser, hcode, hamount, current, hcurrent, hwide⟩
    · rintro ⟨rfl, rfl, rfl, -, -, -, current, hcurrent, hwide⟩
      have hdelta := (applyDelta_eq_overflowed (c := c) .deposit
        (hreach.nonNegative _ _ _ hcurrent) hamount).2 ⟨rfl, rfl, hwide⟩
      exact ⟨none, ⟨current, hcurrent, hdelta⟩, rfl, rfl⟩

theorem join_of_overflowed {t : ExchangeTask} {f : Funding} {rate : ResolvedRate}
    (hflight : t.run.stage = .inFlight) (hcancelled : t.cancelled = false)
    (hfunding : t.funding = some (.ok f)) (hrate : t.resolution.result? = some (.ok rate))
    (hprice : Pricing.compute (t.run.pricingInput f rate) = .overflowed o) (now : Nat) :
    moveExchange now w t .join = (w, finished (.overflowed o) (some t.resolution)) := by
  have hverdict : t.view.verdict = some (.ok (f, rate)) := by
    simp only [ExchangeTask.view, JoinView.verdict, hcancelled, hfunding, hrate]
    rfl
  simp only [moveExchange, ExchangeRun.join_of_inFlight t.view hflight, hverdict, hprice]
  rfl

theorem overflowed_exchange {t : ExchangeTask} (hsound : t.Sound w.ledger)
    (hreach : w.ledger.Reachable) (hrate : t.resolution.IsUsable) (now : Nat) (m : Move)
    (w' : Wallet) :
    (∃ r, moveExchange now w t m = (w', finished (.overflowed o) r)) ↔
      w' = w ∧ Overflows w (exchanging t) m o := by
  constructor
  · rintro ⟨r, hr⟩
    obtain ⟨t', hgoes, -⟩ | ⟨result, w'', hends, hsame, hconcluded⟩ :=
      hsound.moveExchange hreach hrate now m
    · rw [hr] at hgoes
      cases hgoes
    · obtain ⟨hwallet, hanswer⟩ := Prod.mk.inj (hr.symm.trans hconcluded)
      obtain ⟨hresult, -⟩ := finished.inj hanswer
      rw [eq_comm, outcomeResult_overflowed] at hresult
      subst hresult
      refine ⟨hwallet.trans (hsame rfl), ?_⟩
      cases hends with
      | overflowed hflight hcancelled hfunding hresult hprice =>
        have hcovered := hsound.isCovered hfunding (hrate _ hresult)
        obtain ⟨rfl, hwide⟩ | ⟨rfl, product, hmul, hwide⟩ :=
          (Pricing.compute_eq_overflowed hcovered).1 hprice
        · exact .product hflight hcancelled hfunding hresult hwide
        · exact .received hflight hcancelled hfunding hresult hmul hwide
  · rintro ⟨rfl, h⟩
    cases h with
    | product hflight hcancelled hfunding hresult hwide =>
      have hcovered := hsound.isCovered hfunding (hrate _ hresult)
      have hprice := (Pricing.compute_eq_overflowed hcovered).2 (Or.inl ⟨rfl, hwide⟩)
      exact ⟨_, join_of_overflowed hflight hcancelled hfunding hresult hprice now⟩
    | received hflight hcancelled hfunding hresult hmul hwide =>
      have hcovered := hsound.isCovered hfunding (hrate _ hresult)
      have hprice :=
        (Pricing.compute_eq_overflowed hcovered).2 (Or.inr ⟨rfl, _, hmul, hwide⟩)
      exact ⟨_, join_of_overflowed hflight hcancelled hfunding hresult hprice now⟩

structure Priceable (w : Wallet) (t : Task) : Prop where
  sound : t.Sound w.ledger
  usable : ∀ r, t.resolution? = some r → r.IsUsable

theorem Priceable.overflowed_move {t : Task} (h : t.Priceable w) (hreach : w.ledger.Reachable)
    (hbefore : t.result? = none) (now : Nat) (m : Move) (w' : Wallet) :
    (∃ r, t.move now w m = (w', finished (.overflowed o) r)) ↔ w' = w ∧ t.Overflows w m o := by
  cases t with
  | waiting id request =>
    cases m with
    | begin => exact overflowed_begin hreach now id request w'
    | _ =>
      refine iff_of_false ?_ nofun
      rintro ⟨r, hr⟩
      cases hr
  | exchanging t => exact overflowed_exchange h.sound hreach (h.usable _ rfl) now m w'
  | finished result resolution => cases hbefore

theorem kept_priceable : Session.Kept (fun w => w.ledger.Reachable) Priceable where
  move now w t m hw ht := by
    obtain ⟨calls, hledger⟩ := ledger_move now w t m
    refine ⟨?_, ht.sound.move hw ht.usable now m, ?_⟩
    · rw [hledger]
      exact hw.run calls
    · intro r hr
      obtain ⟨before, hbefore, -, hnext⟩ | ⟨-, hnext⟩ := resolution?_move now w t m
      · rw [hnext] at hr
        cases hr
        exact (ht.usable before hbefore).assist _ _
      · obtain hbefore | ⟨pair, rfl⟩ := hnext r hr
        · exact ht.usable r hbefore
        · exact .start _ _
  others now w t t' m hw ht ht' := by
    obtain ⟨calls, hledger⟩ := ledger_move now w t m
    refine ⟨?_, ht'.usable⟩
    rw [hledger]
    exact ht'.sound.run calls

theorem Priceable.receive {t : Task} (h : t.Priceable w) (answer : RateAnswer) :
    (t.receive w.desk.policy answer).Priceable w := by
  cases t with
  | waiting id request => exact h
  | exchanging t =>
    have hsound : t.Sound w.ledger := h.sound
    refine ⟨⟨hsound.distinct, hsound.amount, hsound.found, hsound.staged⟩, ?_⟩
    intro r hr
    cases hr
    exact (h.usable t.resolution rfl).advance _ _
  | finished result resolution =>
    cases resolution with
    | none => exact h
    | some resolution =>
      refine ⟨trivial, ?_⟩
      intro r hr
      cases hr
      exact (h.usable resolution rfl).advance _ _

end Task

/-! ### Sessions -/

namespace Session

/-- By this event the request at place `i` is broken off: it had no result and will never have
one. -/
structure BreaksOff (s : Session) (e : Event) (i : Nat) (o : Overflow) : Prop where
  before : ∃ t, s.tasks[i]? = some t ∧ t.result? = none
  answered : ∃ r, (s.step e).tasks[i]? = some (.finished (.overflowed o) r)

/-- A request is broken off if and only if a sum of a deposit, or a product or a sum of an exchange,
is too wide, or no clock reaches the deadline of an exchange. Nothing of the wallet changes then,
not even a counter. -/
theorem breaksOff_iff {w : Wallet} (hreach : w.ledger.Reachable) (now : Nat)
    (requests : List (ExchangeId × WalletRequest)) (events : List Event) {s : Session}
    (hs : s = (start now w requests).run events) (e : Event) (i : Nat) (o : Overflow) :
    (s.BreaksOff e i o ↔
      ∃ m t, e = .move i m ∧ s.tasks[i]? = some t ∧ t.Overflows s.wallet m o) ∧
    (s.BreaksOff e i o → (s.step e).wallet = s.wallet) := by
  have hstart : (start now w requests).Holds (fun w => w.ledger.Reachable) Task.Priceable :=
    holds_start hreach (fun id request => ⟨trivial, nofun⟩) now requests
  have hholds : s.Holds (fun w => w.ledger.Reachable) Task.Priceable := by
    rw [hs]
    exact hstart.run Task.kept_priceable events fun i a _ w t ht => ht.receive a
  have hforward : s.BreaksOff e i o → (s.step e).wallet = s.wallet ∧
      ∃ m t, e = .move i m ∧ s.tasks[i]? = some t ∧ t.Overflows s.wallet m o := by
    rintro ⟨⟨t, ht, hbefore⟩, ⟨r, hr⟩⟩
    obtain ⟨m, he, hnext, hwallet⟩ := move_of_result ht hr (by rw [hbefore]; nofun)
    have hmove : t.move s.now s.wallet m = ((s.step e).wallet, .finished (.overflowed o) r) := by
      rw [hwallet, hnext]
    obtain ⟨hsame, hover⟩ := ((hholds.tasks t (List.mem_of_getElem? ht)).overflowed_move
      hholds.wallet hbefore s.now m _).1 ⟨r, hmove⟩
    exact ⟨hsame, m, t, he, ht, hover⟩
  refine ⟨⟨fun h => (hforward h).2, ?_⟩, fun h => (hforward h).1⟩
  rintro ⟨m, t, rfl, ht, hover⟩
  have hbefore : t.result? = none := by cases hover <;> rfl
  obtain ⟨r, hr⟩ := ((hholds.tasks t (List.mem_of_getElem? ht)).overflowed_move
    hholds.wallet hbefore s.now m s.wallet).2 ⟨rfl, hover⟩
  refine ⟨⟨t, ht, hbefore⟩, r, ?_⟩
  have hlt : i < s.tasks.length := (List.getElem?_eq_some_iff.1 ht).1
  simp only [step, ht, hr, List.getElem?_set_self hlt]

theorem widest_lt : (79228162514264337593543950335 : Int).natAbs < coefficientLimit := by
  decide

def widest : Decimal := ⟨79228162514264337593543950335, 0, widest_lt, Nat.zero_le _⟩

def tooManyDollars : List (ExchangeId × WalletRequest) :=
  [(⟨0⟩, .openAccounts ⟨1⟩), (⟨1⟩, .move .deposit ⟨1⟩ .usd widest),
    (⟨2⟩, .move .deposit ⟨1⟩ .usd (.small 1 0))]

def full : Session :=
  (start 0 newWallet tooManyDollars).run [.move 0 .begin, .move 1 .begin]

theorem breaksOff_full :
    full.BreaksOff (.move 2 .begin) 2 .addition ∧
      (full.step (.move 2 .begin)).wallet = full.wallet := by
  have h := breaksOff_iff (w := newWallet) ⟨_, [], rfl⟩ 0 tooManyDollars
    [.move 0 .begin, .move 1 .begin] rfl (.move 2 .begin) 2 .addition
  have hcurrent : full.wallet.ledger.balance? ⟨1⟩ .usd = some widest := by decide +kernel
  have hbreaks : full.BreaksOff (.move 2 .begin) 2 .addition :=
    h.1.2 ⟨.begin, _, rfl, rfl, .deposit (by decide +kernel) (by decide +kernel)
      (by decide +kernel) hcurrent (by decide +kernel)⟩
  exact ⟨hbreaks, h.2 hbreaks⟩

end Session

end CurrencyWallet

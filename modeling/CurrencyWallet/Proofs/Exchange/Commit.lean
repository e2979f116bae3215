import CurrencyWallet.Proofs.Exchange.Settlement

/-!
Exchanges among other calls. The balances of an exchange are checked at one time and written at
another, and between the two any calls may be done. What is written is what the exchange would
write if it were done from start to end at the later time, or nothing is written at all. Only the
two rows that are written are compared: the other balances that an exchange reports are those of
the earlier time.
-/
namespace CurrencyWallet

/-! ### Exchanges up to their settlement -/

namespace Wallet

/-- An exchange as far as its settlement: the balances are checked now, and it is priced at this
rate. -/
def prepare (w : Wallet) (id : ExchangeId) (r : ExchangeRequest) (rate : ResolvedRate) :
    ExchangeRun :=
  (ExchangeRun.start id r).run
    [.launched, .looked ⟨false, some (w.fund r), some (.ok rate)⟩, .priced]

variable {w : Wallet} {id : ExchangeId} {r : ExchangeRequest} {rate : ResolvedRate}

theorem prepare_of_funded {funding : Funding} (h : w.fund r = .ok funding) :
    w.prepare id r rate =
      { id := id
        request := r
        stage := match Pricing.compute ((ExchangeRun.start id r).pricingInput funding rate) with
          | .ok pricing => .computed funding rate pricing
          | .refused e => .failed ⟨.computeFailed, e.toExchangeError⟩
          | .overflowed o => .broken .joined o } := by
  unfold prepare
  rw [h]
  have hstage : (ExchangeRun.mk id r (.joined funding rate)).stage = .joined funding rate := rfl
  exact ExchangeRun.step_priced hstage

theorem prepare_of_priced {funding : Funding} {pricing : Pricing} (h : w.fund r = .ok funding)
    (hp : Pricing.compute ((ExchangeRun.start id r).pricingInput funding rate) = .ok pricing) :
    w.prepare id r rate = ⟨id, r, .computed funding rate pricing⟩ := by
  rw [prepare_of_funded h, hp]

theorem priced_of_compute {funding : Funding} {pricing : Pricing} (hdistinct : r.source ≠ r.target)
    (hp : Pricing.compute ((ExchangeRun.start id r).pricingInput funding rate) = .ok pricing) :
    (ExchangeRun.mk id r (.computed funding rate pricing)).Priced funding rate pricing :=
  ⟨hdistinct, hp, rfl⟩

theorem prepare_cases (w : Wallet) (id : ExchangeId) (r : ExchangeRequest) (rate : ResolvedRate) :
    (∃ funding pricing, w.fund r = .ok funding ∧
      Pricing.compute ((ExchangeRun.start id r).pricingInput funding rate) = .ok pricing) ∨
    (w.prepare id r rate).state ≠ .computed ∧ (w.prepare id r rate).state ≠ .done := by
  cases hfund : w.fund r with
  | error e =>
    right
    unfold prepare
    rw [hfund]
    exact ⟨nofun, nofun⟩
  | ok funding =>
    rw [prepare_of_funded hfund]
    cases hp : Pricing.compute ((ExchangeRun.start id r).pricingInput funding rate) with
    | ok pricing => exact Or.inl ⟨funding, pricing, rfl, hp⟩
    | refused e => exact Or.inr ⟨nofun, nofun⟩
    | overflowed o => exact Or.inr ⟨nofun, nofun⟩

theorem settle_congr {w' : Wallet} (h : w'.ledger = w.ledger) (run : ExchangeRun) :
    (w'.settle run).1.ledger = (w.settle run).1.ledger ∧ (w'.settle run).2 = (w.settle run).2 := by
  unfold settle call
  rw [h]
  cases run.pending? with
  | none => exact ⟨h, rfl⟩
  | some settlement => exact ⟨rfl, rfl⟩

theorem ledger_exchange {now : Nat} (h : (w.desk.resolve now r.pair).2 = .ok rate) :
    (w.exchange now id r).1.ledger = (w.settle (w.prepare id r rate)).1.ledger := by
  have hledger : ({ w.record .exchangeStarted with
    desk := (w.desk.resolve now r.pair).1 } : Wallet).ledger = w.ledger := rfl
  rw [← (settle_congr hledger (w.prepare id r rate)).1]
  unfold exchange prepare
  rw [← h]
  exact ledger_recordAll _ _

end Wallet

/-! ### Before and after -/

namespace Ledger

def Reachable (l : Ledger) : Prop := ∃ cs calls, l = (new cs).run calls

theorem Reachable.wellFormed {l : Ledger} (h : l.Reachable) : l.WellFormed := by
  obtain ⟨cs, calls, rfl⟩ := h
  exact (wellFormed_new cs).run calls

/-- Both rows of an exchange hold the same values in two ledgers. -/
def SameRows (l l' : Ledger) (r : ExchangeRequest) : Prop :=
  l'.value? r.user r.source = l.value? r.user r.source ∧
    l'.value? r.user r.target = l.value? r.user r.target

/-- The first of the two currencies of an exchange, in the order of the codes, whose balance has
another value. -/
structure FirstChange (l l' : Ledger) (r : ExchangeRequest) (c : Currency)
    (expected actual : Decimal) : Prop where
  mem : c = r.source ∨ c = r.target
  expected_eq : l.balance? r.user c = some expected
  actual_eq : l'.balance? r.user c = some actual
  changed : actual.toRat ≠ expected.toRat
  first : ∀ d, d = r.source ∨ d = r.target → d < c → l'.value? r.user d = l.value? r.user d

/-- The second ledger is the first one with the balances of a price in the two rows. -/
structure Exchanged (l l' : Ledger) (r : ExchangeRequest) (p : Pricing) : Prop where
  currencies : l'.currencies = l.currencies
  users : ∀ u, l'.users.contains u = l.users.contains u
  source : l'.value? r.user r.source = some p.sourceBalance.toRat
  target : l'.value? r.user r.target = some p.targetBalance.toRat
  others : ∀ u c, ¬ (u = r.user ∧ (c = r.source ∨ c = r.target)) →
    l'.value? u c = l.value? u c

theorem exchanged_commit {l : Ledger} {run : ExchangeRun} {funding : Funding} {pricing p : Pricing}
    (hne : run.request.source ≠ run.request.target)
    (hopen : l.users.contains run.request.user = true)
    (hs : pricing.sourceBalance.toRat = p.sourceBalance.toRat)
    (ht : pricing.targetBalance.toRat = p.targetBalance.toRat) :
    l.Exchanged (l.commit run.request.user (settledRevision (run.settlement funding pricing)))
      run.request p := by
  refine ⟨currencies_commit _ _ _, fun u => contains_commit _ _ _ _, ?_, ?_, fun u c h => ?_⟩
  · rw [← hs, value?]
    exact congrArg _ (balance?_commit_source (s := run.settlement funding pricing) hopen hne)
  · rw [← ht, value?]
    exact congrArg _ (balance?_commit_target (s := run.settlement funding pricing) hopen)
  · exact congrArg _ (balance?_commit_of_not (s := run.settlement funding pricing) hopen h)

end Ledger

/-! ### Settling -/

namespace Wallet

variable {w w' : Wallet} {between : List Ledger.Call} {id : ExchangeId} {r : ExchangeRequest}
  {rate : ResolvedRate} {funding : Funding} {pricing : Pricing}

theorem serves_of_funded (hreach : w.ledger.Reachable) (h : w.fund r = .ok funding)
    (hbetween : w'.ledger = w.ledger.run between) : w'.ledger.Serves r := by
  obtain ⟨hsource, htarget, -, -⟩ := Funding.check_eq_ok.1 h
  have hopen : w.ledger.users.contains r.user = true := Ledger.contains_of_balance? hsource
  have hwell := hreach.wellFormed
  have hmem : ∀ c, (w.ledger.balance? r.user c).isSome → c ∈ w'.ledger.currencies := fun c hc => by
    rw [hbetween, Ledger.currencies_run]
    exact (hwell.accounts _ hopen c).1 hc
  refine ⟨?_, ?_, hmem _ (Option.isSome_of_mem hsource), hmem _ (Option.isSome_of_mem htarget)⟩
  · rw [hbetween]
    exact hwell.run between
  · rw [hbetween]
    exact Ledger.contains_run hopen between

theorem confirms_iff_sameRows (h : w.fund r = .ok funding) :
    w'.ledger.Confirms r funding ↔ w.ledger.SameRows w'.ledger r := by
  obtain ⟨hsource, htarget, -, -⟩ := Funding.check_eq_ok.1 h
  have hs : w.ledger.value? r.user r.source = some funding.source.toRat := by
    rw [Ledger.value?, Ledger.balance?, hsource, Option.map_some]
  have ht : w.ledger.value? r.user r.target = some funding.target.toRat := by
    rw [Ledger.value?, Ledger.balance?, htarget, Option.map_some]
  rw [Ledger.Confirms, Ledger.SameRows, hs, ht]

theorem fund_of_sameRows (h : w.fund r = .ok funding) (hsame : w.ledger.SameRows w'.ledger r) :
    ∃ funding', w'.fund r = .ok funding' ∧ funding.source.toRat = funding'.source.toRat ∧
      funding.target.toRat = funding'.target.toRat := by
  obtain ⟨hs, ht⟩ := (confirms_iff_sameRows h).2 hsame
  obtain ⟨source, hsource, hs⟩ := Option.map_eq_some_iff.1 hs
  obtain ⟨target, htarget, ht⟩ := Option.map_eq_some_iff.1 ht
  refine ⟨⟨w'.ledger.balances r.user, source, target⟩, ?_, hs.symm, ht.symm⟩
  refine Funding.check_eq_ok.2 ⟨hsource, htarget, ?_, rfl⟩
  have henough := (Funding.check_eq_ok.1 h).2.2.1
  rw [Decimal.lt_iff_toRat] at henough ⊢
  rwa [hs]

theorem firstChange_of_conflict {run : ExchangeRun} {leg : SettlementLeg} {found : Decimal}
    (h : w.fund run.request = .ok funding)
    (hc : (run.settlement funding pricing).Conflict (w'.ledger.balances run.request.user) leg
      found) :
    w.ledger.FirstChange w'.ledger run.request leg.currency leg.expected found := by
  obtain ⟨hsource, htarget, -, -⟩ := Funding.check_eq_ok.1 h
  obtain ⟨hmem, hget, hchanged, hfirst⟩ := hc
  refine ⟨?_, ?_, hget, hchanged, ?_⟩
  · obtain rfl | rfl := hmem
    · exact Or.inl rfl
    · exact Or.inr rfl
  · obtain rfl | rfl := hmem
    · exact hsource
    · exact htarget
  · rintro d (rfl | rfl) hlt
    · have hheld := hfirst _ (Or.inl rfl) hlt
      rw [Ledger.value?, Ledger.value?, Ledger.balance?, Ledger.balance?, hsource]
      exact hheld
    · have hheld := hfirst _ (Or.inr rfl) hlt
      rw [Ledger.value?, Ledger.value?, Ledger.balance?, Ledger.balance?, htarget]
      exact hheld

theorem settle_of_sameRows (hserves : w'.ledger.Serves r) (hdistinct : r.source ≠ r.target)
    (hfund : w.fund r = .ok funding)
    (hp : Pricing.compute ((ExchangeRun.start id r).pricingInput funding rate) = .ok pricing)
    (hsame : w.ledger.SameRows w'.ledger r) {p : Pricing} (hvalues : pricing.SameValues p) :
    (w'.settle (w.prepare id r rate)).2.state = .done ∧
      w'.ledger.Exchanged (w'.settle (w.prepare id r rate)).1.ledger r p := by
  have hrun : w.prepare id r rate = ⟨id, r, .computed funding rate pricing⟩ :=
    prepare_of_priced hfund hp
  have hpriced := priced_of_compute hdistinct hp
  rw [hrun]
  obtain ⟨-, heq⟩ | ⟨hchanged, -⟩ := settle_cases hpriced hserves
  · rw [heq]
    exact ⟨rfl, Ledger.exchanged_commit hdistinct hserves.opened hvalues.source hvalues.target⟩
  · exact absurd ((confirms_iff_sameRows hfund).2 hsame) hchanged

theorem settle_of_changed (hserves : w'.ledger.Serves r) (hdistinct : r.source ≠ r.target)
    (hfund : w.fund r = .ok funding)
    (hp : Pricing.compute ((ExchangeRun.start id r).pricingInput funding rate) = .ok pricing)
    (hchanged : ¬ w.ledger.SameRows w'.ledger r) :
    ∃ c expected actual, w.ledger.FirstChange w'.ledger r c expected actual ∧
      w'.settle (w.prepare id r rate) =
        (w', ⟨id, r, .failed ⟨.commitFailed, .balanceConflict c expected actual⟩⟩) := by
  have hrun : w.prepare id r rate = ⟨id, r, .computed funding rate pricing⟩ :=
    prepare_of_priced hfund hp
  have hpriced := priced_of_compute hdistinct hp
  rw [hrun]
  obtain ⟨hconfirms, -⟩ | ⟨-, leg, found, hconflict, heq⟩ := settle_cases hpriced hserves
  · exact absurd ((confirms_iff_sameRows hfund).1 hconfirms) hchanged
  · exact ⟨leg.currency, leg.expected, found, firstChange_of_conflict hfund hconflict, heq⟩

/-- A prepared exchange that is settled later, after any calls, is done if and only if both rows
still hold the same values. Then both balances of a price over the ledger of that time are
written, as by an exchange that is done at once; otherwise the first change is reported and nothing
is written. -/
theorem settle_prepared (hreach : w.ledger.Reachable) (hbetween : w'.ledger = w.ledger.run between)
    (hdistinct : r.source ≠ r.target) (hcomputed : (w.prepare id r rate).state = .computed) :
    ((w'.settle (w.prepare id r rate)).2.state = .done ↔ w.ledger.SameRows w'.ledger r) ∧
    (w.ledger.SameRows w'.ledger r → ∃ source target p,
      w'.ledger.balance? r.user r.source = some source ∧
      w'.ledger.balance? r.user r.target = some target ∧
      Pricing.compute ⟨r.source, source, r.target, target, rate.rate, r.amount⟩ = .ok p ∧
      w'.ledger.Exchanged (w'.settle (w.prepare id r rate)).1.ledger r p ∧
      (w'.settle (w'.prepare id r rate)).2.state = .done ∧
      w'.ledger.Exchanged (w'.settle (w'.prepare id r rate)).1.ledger r p ∧
      ∀ now, (w'.desk.resolve now r.pair).2 = .ok rate →
        w'.ledger.Exchanged (w'.exchange now id r).1.ledger r p) ∧
    (¬ w.ledger.SameRows w'.ledger r → ∃ c expected actual,
      w.ledger.FirstChange w'.ledger r c expected actual ∧
      w'.settle (w.prepare id r rate) =
        (w', ⟨id, r, .failed ⟨.commitFailed, .balanceConflict c expected actual⟩⟩)) := by
  obtain ⟨funding, pricing, hfund, hp⟩ | ⟨hended, -⟩ := w.prepare_cases id r rate
  swap
  · exact absurd hcomputed hended
  have hserves := serves_of_funded hreach hfund hbetween
  have hchange := settle_of_changed hserves hdistinct hfund hp
  refine ⟨⟨fun hdone => ?_, fun hsame => ?_⟩, fun hsame => ?_, hchange⟩
  · by_contra hchanged
    obtain ⟨c, expected, actual, -, heq⟩ := hchange hchanged
    rw [heq] at hdone
    cases hdone
  · exact (settle_of_sameRows hserves hdistinct hfund hp hsame ⟨rfl, rfl, rfl⟩).1
  · obtain ⟨funding', hfund', hs, ht⟩ := fund_of_sameRows hfund hsame
    obtain ⟨p, hp', hvalues⟩ := Pricing.compute_congr
      (j := (ExchangeRun.start id r).pricingInput funding' rate) hp hs ht rfl rfl
    obtain ⟨hsource, htarget, -, -⟩ := Funding.check_eq_ok.1 hfund'
    obtain ⟨-, hexchanged⟩ := settle_of_sameRows hserves hdistinct hfund hp hsame hvalues
    obtain ⟨hdone, hfresh⟩ :=
      settle_of_sameRows hserves hdistinct hfund' hp' ⟨rfl, rfl⟩ ⟨rfl, rfl, rfl⟩
    refine ⟨funding'.source, funding'.target, p, hsource, htarget, hp', hexchanged, hdone, hfresh,
      fun now hrate => ?_⟩
    rw [ledger_exchange hrate]
    exact hfresh

def dollars : Wallet where
  ledger := (Ledger.new [.usd, .eur, .rub]).run
    [.openAccounts ⟨1⟩, .apply ⟨1⟩ .usd (.small 10000 2)]
  desk := ⟨⟨0, 0, 0, false⟩, ∅, .new 0⟩
  exchangeTimeout := 10000
  metrics := .zero

/-- What is done meanwhile: a dollar goes and comes back, and rubles are deposited. -/
def meanwhile : List Ledger.Call :=
  [.apply ⟨1⟩ .usd (.small (-1) 0), .apply ⟨1⟩ .usd (.small 10 1),
    .apply ⟨1⟩ .rub (.small 500 0)]

def later : Wallet := { dollars with ledger := dollars.ledger.run meanwhile }

def tenDollars : ExchangeRequest := ⟨⟨1⟩, .usd, .eur, .small 10 0⟩

def euroRate : ResolvedRate := ⟨tenDollars.pair, .small 92 2, .remote⟩

theorem settle_prepared_meanwhile :
    (later.settle (dollars.prepare ⟨0⟩ tenDollars euroRate)).2.state = .done ∧
      dollars.ledger.SameRows later.ledger tenDollars := by
  have hreach : dollars.ledger.Reachable := ⟨_, _, rfl⟩
  have hbetween : later.ledger = dollars.ledger.run meanwhile := rfl
  have hcomputed : (dollars.prepare ⟨0⟩ tenDollars euroRate).state = .computed := by
    decide +kernel
  have hdone : (later.settle (dollars.prepare ⟨0⟩ tenDollars euroRate)).2.state = .done := by
    decide +kernel
  have h := settle_prepared hreach hbetween (by decide +kernel) hcomputed
  exact ⟨hdone, h.1.1 hdone⟩

end Wallet

/-! ### The balances that are reported -/

namespace Wallet

variable {w w' : Wallet} {id : ExchangeId} {r : ExchangeRequest} {rate : ResolvedRate}
  {outcome : ExchangeOutcome}

theorem settle_done (h : (w'.settle (w.prepare id r rate)).2.stage = .done outcome) :
    ∃ funding pricing, w.fund r = .ok funding ∧
      outcome = (ExchangeRun.start id r).outcome funding rate pricing ∧
      w'.ledger.Commits (.settle ((ExchangeRun.start id r).settlement funding pricing))
        (Ledger.settledRevision ((ExchangeRun.start id r).settlement funding pricing)) ∧
      (w'.settle (w.prepare id r rate)).1.ledger = w'.ledger.commit r.user
        (Ledger.settledRevision ((ExchangeRun.start id r).settlement funding pricing)) := by
  obtain ⟨funding, pricing, hfund, hp⟩ | ⟨hcomputed, hdone⟩ := w.prepare_cases id r rate
  · rw [prepare_of_priced hfund hp, settle_of_stage rfl] at h ⊢
    refine ⟨funding, pricing, hfund, ?_⟩
    obtain ⟨-, hfailed⟩ | ⟨revision, hcommits⟩ := w'.ledger.settle_commits
      ((ExchangeRun.mk id r (.computed funding rate pricing)).settlement funding pricing)
    · -- A settlement without success leaves no outcome.
      simp only at h
      split at h
      · rename_i hok
        rw [hok] at hfailed
        cases hfailed
      · cases h
      · cases h
    · obtain rfl := Ledger.eq_settledRevision hcommits.revised
      rw [hcommits.performed] at h ⊢
      exact ⟨(ExchangeStage.done.inj h).symm, hcommits, rfl⟩
  · have hpending : (w.prepare id r rate).pending? = none := by
      unfold ExchangeRun.pending?
      split
      · rename_i hstage
        exact absurd (congrArg ExchangeStage.state hstage) hcomputed
      · rfl
    unfold settle at h
    rw [hpending] at h
    exact absurd (congrArg ExchangeStage.state h) hdone

/-- The balances that an exchange reports are those of the ledger after it in exactly these
currencies: its own two, and those in which the balance has been the same since the check. -/
theorem balances_outcome_iff (h : (w'.settle (w.prepare id r rate)).2.stage = .done outcome)
    (c : Currency) :
    (outcome.balances.get? c).map Decimal.toRat =
        (w'.settle (w.prepare id r rate)).1.ledger.value? r.user c ↔
      c = r.source ∨ c = r.target ∨
        w'.ledger.value? r.user c = w.ledger.value? r.user c := by
  obtain ⟨funding, pricing, hfund, rfl, hcommits, hledger⟩ := settle_done h
  obtain ⟨hvalid, hopen⟩ := Ledger.screen_settle_eq_ok.1 hcommits.screened
  obtain ⟨hdistinct, -, -⟩ := Settlement.validate_eq_ok.1 hvalid
  obtain ⟨-, -, -, hbalances⟩ := Funding.check_eq_ok.1 hfund
  have hreported : ((ExchangeRun.start id r).outcome funding rate pricing).balances =
      ((w.ledger.balances r.user).insert r.source pricing.sourceBalance).insert r.target
        pricing.targetBalance := by
    rw [← hbalances]
    rfl
  rw [hreported, hledger, Ledger.value?]
  by_cases htarget : c = r.target
  · subst htarget
    have hafter := Ledger.balance?_commit_target hopen
    rw [Table.get?_insert_self]
    exact iff_of_true (congrArg _ hafter.symm) (Or.inr (Or.inl rfl))
  by_cases hsource : c = r.source
  · subst hsource
    have hafter := Ledger.balance?_commit_source hopen hdistinct
    rw [Table.get?_insert_of_ne _ htarget, Table.get?_insert_self]
    exact iff_of_true (congrArg _ hafter.symm) (Or.inl rfl)
  · -- Neither map has been written at any other currency.
    have hafter := Ledger.balance?_commit_of_not (u := r.user) (c := c) hopen fun hc =>
      hc.2.elim hsource htarget
    have hboth : (w'.ledger.commit r.user (Ledger.settledRevision
        ((ExchangeRun.start id r).settlement funding pricing))).balance? r.user c =
        w'.ledger.balance? r.user c := hafter
    rw [Table.get?_insert_of_ne _ htarget, Table.get?_insert_of_ne _ hsource, hboth, eq_comm]
    simp only [htarget, hsource, false_or]
    rfl

def reported : ExchangeOutcome where
  id := ⟨0⟩
  user := ⟨1⟩
  source := .usd
  sourceBalance := .small 9000 2
  target := .eur
  targetBalance := .small 920 2
  spent := .small 10 0
  received := .small 920 2
  rate := .small 92 2
  rateSource := .remote
  balances := Table.ofList [(.eur, .small 920 2), (.rub, .zero),
    (.usd, .small 9000 2)]

/-- The rubles deposited meanwhile are in the ledger and not in the report. -/
theorem balances_outcome_meanwhile :
    (later.settle (dollars.prepare ⟨0⟩ tenDollars euroRate)).2.stage = .done reported ∧
      (reported.balances.get? .rub).map Decimal.toRat ≠
        (later.settle (dollars.prepare ⟨0⟩ tenDollars euroRate)).1.ledger.value? ⟨1⟩ .rub := by
  have hdone : (later.settle (dollars.prepare ⟨0⟩ tenDollars euroRate)).2.stage =
      .done reported := by
    rfl
  refine ⟨hdone, fun hsame => ?_⟩
  obtain h | h | h := (balances_outcome_iff hdone .rub).1 hsame
  · exact absurd h (by decide +kernel)
  · exact absurd h (by decide +kernel)
  · exact absurd h (by decide +kernel)

end Wallet

end CurrencyWallet

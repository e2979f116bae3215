import CurrencyWallet.Proofs.Scenario.Verdict

/-!
The search of an exchange goes on by itself. What it asks for and what it leaves in the cache is
the same whatever becomes of the exchange: the run with it and the run of the searches alone stop at
the same desks, though not at the same times on the way.
-/
namespace CurrencyWallet.Scenario

structure RateState where
  shared : RateDesk
  own? : Option RateDesk
  jobs : List (Side × RateJob)

namespace World

variable {v w w' : World} {a a' : Activity} {now : Nat} {out out' : RateState}

def rateState (w : World) : RateState := ⟨w.shared, w.own?, w.jobs⟩

theorem SameRates.rateState (h : v.SameRates w) : v.rateState = w.rateState := by
  simp [World.rateState, h.shared, h.own, h.jobs]

/-- The searches of the world come to this when they go on and nothing else does. -/
def ComesTo (w : World) (out : RateState) : Prop :=
  ∃ turns, (follow turns w .idle).1.IsQuiet ∧ (follow turns w .idle).1.rateState = out

/-! ### The searches alone -/

theorem SameRates.turn_idle (h : v.SameRates w) :
    turn v .idle = none ∧ turn w .idle = none ∨
    ∃ v' w', turn v .idle = some (v', .idle) ∧ turn w .idle = some (w', .idle) ∧
      v'.SameRates w' := by
  obtain ⟨hmoved, hjobs⟩ := h.runJobs
  cases hv : v.runJobs.1 with
  | true =>
    exact Or.inr ⟨_, _, turn_of_moved rfl hv, turn_of_moved rfl (hmoved ▸ hv), hjobs⟩
  | false =>
    have hnext : nextMoment? v .idle = nextMoment? w .idle := by
      rw [nextMoment?, nextMoment?, h.now, h.jobs]
    rw [turn_of_waiting rfl hv, turn_of_waiting rfl (hmoved ▸ hv), hnext]
    cases nextMoment? w .idle with
    | none => exact Or.inl ⟨rfl, rfl⟩
    | some now => exact Or.inr ⟨_, _, rfl, rfl, h.setNow now⟩

theorem SameRates.follow_idle (h : v.SameRates w) (turns : Nat) :
    (follow turns v .idle).1.SameRates (follow turns w .idle).1 := by
  induction turns generalizing v w with
  | zero => exact h
  | succ turns ih =>
    obtain ⟨hv, hw⟩ | ⟨v', w', hv, hw, hsame⟩ := h.turn_idle
    · rwa [follow_of_none hv, follow_of_none hw]
    · rw [follow_of_turn hv, follow_of_turn hw]
      exact ih hsame

theorem ComesTo.of_sameRates (h : w.ComesTo out) (hsame : v.SameRates w) : v.ComesTo out := by
  obtain ⟨turns, hquiet, rfl⟩ := h
  have hlast := hsame.follow_idle turns
  exact ⟨turns, hlast.isQuiet.2 hquiet, hlast.rateState⟩

theorem IsQuiet.turn_idle (h : w.IsQuiet) : turn w .idle = none := by
  rw [turn_of_waiting rfl h.runJobs, Option.map_eq_none_iff]
  have hdues : w.jobs.filterMap (·.2.due?) = [] := by
    rw [List.filterMap_eq_nil_iff]
    exact fun j hj => RateJob.due?_of_isFinished (h j hj)
  simp [nextMoment?, Activity.dues, hdues]

theorem IsQuiet.comesTo (h : w.IsQuiet) : w.ComesTo w.rateState := ⟨0, h, rfl⟩

theorem comesTo_of_turn_idle (hturn : turn w .idle = some (w', .idle)) :
    w.ComesTo out ↔ w'.ComesTo out := by
  constructor
  · rintro ⟨turns, hquiet, rfl⟩
    cases turns with
    | zero =>
      have hnone : turn w .idle = none := IsQuiet.turn_idle hquiet
      rw [hnone] at hturn
      cases hturn
    | succ turns =>
      rw [follow_of_turn hturn] at hquiet ⊢
      exact ⟨turns, hquiet, rfl⟩
  · rintro ⟨turns, hquiet, rfl⟩
    rw [← follow_of_turn hturn] at hquiet ⊢
    exact ⟨turns + 1, hquiet, rfl⟩

theorem IsQuiet.eq_of_comesTo (h : w.IsQuiet) (hout : w.ComesTo out) : out = w.rateState := by
  obtain ⟨turns, -, rfl⟩ := hout
  rw [follow_of_none h.turn_idle]

theorem ComesTo.unique (h : w.ComesTo out) (h' : w.ComesTo out') : out = out' := by
  obtain ⟨turns, hquiet, hlast⟩ := h
  induction turns generalizing w with
  | zero => exact hlast ▸ (hquiet.eq_of_comesTo h').symm
  | succ turns ih =>
    obtain ⟨hturn, -⟩ | ⟨w', -, hturn, -, -⟩ := (SameRates.refl w).turn_idle
    · rw [follow_of_none hturn] at hquiet hlast
      exact hlast ▸ (hquiet.eq_of_comesTo h').symm
    · rw [follow_of_turn hturn] at hquiet hlast
      exact ih ((comesTo_of_turn_idle hturn).1 h') hquiet hlast

/-! ### The searches beside an activity -/

theorem nextMoment?_idle (h : ∀ j ∈ w.jobs, j.2.isWaiting w.now = true) :
    nextMoment? w .idle = (w.jobs.filterMap (·.2.due?)).min? := by
  have hlater : (w.jobs.filterMap (·.2.due?)).filter (w.now < ·) =
      w.jobs.filterMap (·.2.due?) := by
    rw [List.filter_eq_self]
    intro due hdue
    obtain ⟨j, hj, hdue⟩ := List.mem_filterMap.1 hdue
    exact decide_eq_true (RateJob.lt_due_of_isWaiting (h j hj) hdue)
  exact congrArg List.min? hlater

theorem ComesTo.of_passed (hmoved : w.runJobs.1 = false) (hnext : nextMoment? w a = some now)
    (h : { w with now }.ComesTo out) : w.ComesTo out := by
  have hwaiting := runJobs_eq_false.1 hmoved
  obtain ⟨-, -, hleast⟩ := nextMoment?_eq_some hnext
  cases hidle : nextMoment? w .idle with
  | none =>
    have hquiet : w.IsQuiet := isQuiet_of_rest hmoved hidle
    have hlater : { w with now }.IsQuiet := hquiet
    rw [hlater.eq_of_comesTo h]
    exact hquiet.comesTo
  | some first =>
    obtain ⟨hfirst, hdue, hleast'⟩ := nextMoment?_eq_some hidle
    have hturn : turn w .idle = some ({ w with now := first }, .idle) := by
      rw [turn_of_waiting rfl hmoved, hidle]
      rfl
    obtain rfl | hearly : now = first ∨ now < first := by
      have hle := hleast first (Or.inr (hdue.resolve_left List.not_mem_nil)) hfirst
      omega
    · exact (comesTo_of_turn_idle hturn).2 h
    · -- Nobody has been reached yet, so that the same moment is still the next one.
      have hstill : ∀ j ∈ w.jobs, j.2.isWaiting now = true := fun j hj =>
        RateJob.isWaiting_of_le (hwaiting j hj) fun due hdue => by
          have hlater := RateJob.lt_due_of_isWaiting (hwaiting j hj) hdue
          have hfirst_le := hleast' due (Or.inr ⟨j, hj, hdue⟩) hlater
          omega
      have hturn' : turn { w with now } .idle = some ({ w with now := first }, .idle) := by
        rw [turn_of_waiting rfl (runJobs_eq_false.2 hstill), nextMoment?_idle hstill,
          ← nextMoment?_idle hwaiting, hidle]
        rfl
      exact (comesTo_of_turn_idle hturn).2 ((comesTo_of_turn_idle hturn').1 h)

/-- Whatever a turn of an activity that has begun is, the searches come to what they would have
come to. -/
theorem ComesTo.of_turn (ha : a.HasBegun) (hturn : turn w a = some (w', a'))
    (h : w'.ComesTo out) : w.ComesTo out := by
  cases turn_cases hturn with
  | polled hpoll =>
    obtain ⟨-, -, vault, metrics, -, -, rfl⟩ := ha.poll hpoll
    exact h.of_sameRates ⟨rfl, rfl, rfl, rfl⟩
  | worked hpoll hmoved => exact (comesTo_of_turn_idle (turn_of_moved rfl hmoved)).2 h
  | passed hpoll hmoved hnext => exact h.of_passed hmoved hnext

theorem comesTo_of_follow (ha : a.HasBegun) (turns : Nat)
    (hquiet : (follow turns w a).1.IsQuiet) :
    w.ComesTo (follow turns w a).1.rateState := by
  induction turns generalizing w a with
  | zero => exact hquiet.comesTo
  | succ turns ih =>
    cases hturn : turn w a with
    | none =>
      rw [follow_of_none hturn] at hquiet ⊢
      exact hquiet.comesTo
    | some next =>
      rw [follow_of_turn hturn] at hquiet ⊢
      exact (ih (ha.turn hturn) hquiet).of_turn ha hturn

/-! ### Two exchanges -/

/-- The same number of quotes was asked for and of writes begun, and the caches hold the same. -/
structure SameUse (v w : World) : Prop where
  quotes : v.shared.service.quotes = w.shared.service.quotes
  writes : v.shared.cache.writes = w.shared.cache.writes
  cache : v.shared.cache.cache = w.shared.cache.cache

theorem SameUse.of_rateState (h : v.rateState = w.rateState) : v.SameUse w := by
  have hshared : v.shared = w.shared := congrArg RateState.shared h
  exact ⟨by rw [hshared], by rw [hshared], by rw [hshared]⟩

theorem SameRates.execute (h : v.SameRates w) {r₁ r₂ : ExchangeRequest}
    (hpair : r₁.pair = r₂.pair) (limit₁ limit₂ : Nat) :
    (v.begin (.execute r₁ limit₁)).1.SameRates (w.begin (.execute r₂ limit₂)).1 := by
  refine ⟨h.now, h.shared, h.own, ?_⟩
  have hjobs : v.jobs ++ [(Side.shared, RateJob.start v.shared.policy r₁.pair)] =
      w.jobs ++ [(.shared, .start w.shared.policy r₂.pair)] := by
    rw [h.jobs, h.shared, hpair]
  exact hjobs

theorem IsQuiet.after_execute (h : w.IsQuiet) (r : ExchangeRequest) (limit turns : Nat)
    (hfinished : (w.after (.execute r limit) turns).1.isFinished w.jobs.length = true) :
    (w.after (.execute r limit) turns).1.IsQuiet := by
  intro job hjob
  obtain ⟨i, hi, hget⟩ := List.getElem_of_mem hjob
  have hbegun : (w.begin (.execute r limit)).1.jobs =
      w.jobs ++ [(.shared, .start w.shared.policy r.pair)] := rfl
  have hlength : (w.after (.execute r limit) turns).1.jobs.length = w.jobs.length + 1 := by
    rw [after, length_jobs_follow (.of_waiting _), hbegun]
    simp
  have hsome : (w.after (.execute r limit) turns).1.jobs[i]? = some job := by
    rw [List.getElem?_eq_getElem hi, hget]
  obtain hold | rfl : i < w.jobs.length ∨ i = w.jobs.length := by omega
  · have hearlier : (w.begin (.execute r limit)).1.jobs[i]? = some w.jobs[i] := by
      rw [hbegun, List.getElem?_append_left hold, List.getElem?_eq_getElem hold]
    have hend := h _ (List.getElem_mem hold)
    have hstill : (w.after (.execute r limit) turns).1.jobs[i]? = some w.jobs[i] :=
      getElem?_jobs_follow (.of_waiting _) turns hearlier hend
    rw [hsome] at hstill
    cases hstill
    exact hend
  · simpa [isFinished, job?, hsome] using hfinished

/-- Two exchanges of the same pair begin where the same is found of rates, for whatever users,
amounts and limits and over whatever ledgers. All searches come to their ends in both cases, and
then there have been as many quotes and as many writes, and the cache is the same. If nobody else
searches, it is enough that the searches of the two exchanges are at their ends. -/
theorem sameUse_execute {v w : World} (hsame : v.SameRates w) (horderly : v.IsOrderly)
    {r₁ r₂ : ExchangeRequest} (hpair : r₁.pair = r₂.pair) (limit₁ limit₂ : Nat) :
    let first := fun turns => (v.after (.execute r₁ limit₁) turns).1
    let second := fun turns => (w.after (.execute r₂ limit₂) turns).1
    ((∃ turns, (first turns).IsQuiet) ∧ ∃ turns, (second turns).IsQuiet) ∧
    (∀ m n, (first m).IsQuiet → (second n).IsQuiet → (first m).SameUse (second n)) ∧
    (v.IsQuiet → ∀ m n, (first m).isFinished v.jobs.length = true →
      (second n).isFinished w.jobs.length = true → (first m).SameUse (second n)) := by
  intro first second
  have hbegun := hsame.execute hpair limit₁ limit₂
  have hquiet : ∀ m n, (first m).IsQuiet → (second n).IsQuiet →
      (first m).SameUse (second n) := by
    intro m n hm hn
    have hfirst := comesTo_of_follow (.of_waiting _) m hm
    have hsecond := comesTo_of_follow (.of_waiting _) n hn
    exact .of_rateState (hfirst.unique (hsecond.of_sameRates hbegun))
  have hv := horderly.begin (.execute r₁ limit₁)
  have hw : (w.begin (.execute r₂ limit₂)).1.IsOrderly := by
    intro j hj
    exact hv j (hbegun.jobs ▸ hj)
  refine ⟨⟨?_, ?_⟩, hquiet, fun hv m n hm hn => ?_⟩
  · obtain ⟨turns, -, hlast⟩ := exists_quiet hv (.of_waiting _)
    exact ⟨turns, hlast⟩
  · obtain ⟨turns, -, hlast⟩ := exists_quiet hw (.of_waiting _)
    exact ⟨turns, hlast⟩
  · exact hquiet m n (hv.after_execute r₁ limit₁ m hm)
      ((hsame.isQuiet.1 hv).after_execute r₂ limit₂ n hn)

def unfunded : World := { slowQuotes with vault := ⟨.new [.usd, .eur], none, [], 0⟩ }

theorem sameUse_execute_unfunded :
    let first := slowQuotes.after (.execute Wallet.tenDollars 6) 4
    let second := unfunded.after (.execute Wallet.tenDollars 1) 6
    (∃ outcome, first.2 = .finished (.outcome outcome)) ∧
      (∃ failure, second.2 = .finished (.failure failure)) ∧
      first.1.shared.service.quotes = 1 ∧ first.1.shared.cache.writes = 1 ∧
      first.1.SameUse second.1 := by
  have hsame : slowQuotes.SameRates unfunded := ⟨rfl, rfl, rfl, rfl⟩
  have hquiet : slowQuotes.IsQuiet := fun _ hj => absurd hj List.not_mem_nil
  obtain ⟨-, -, huse⟩ := sameUse_execute hsame isOrderly_slowQuotes
    (rfl : Wallet.tenDollars.pair = Wallet.tenDollars.pair) 6 1
  exact ⟨⟨_, rfl⟩, ⟨_, rfl⟩, rfl, rfl,
    huse hquiet 4 6 (by decide +kernel) (by decide +kernel)⟩

end World

end CurrencyWallet.Scenario

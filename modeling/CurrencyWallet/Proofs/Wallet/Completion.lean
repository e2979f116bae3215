import CurrencyWallet.Proofs.Wallet.Course
import CurrencyWallet.Proofs.Wallet.Sequence

/-!
Sessions come to an end. Whatever has happened to its tasks, each of them has a next move until it
has its result, and every next move brings it closer to that (`Task.movesLeft`), while the moves of
the others leave it where it is. Taking the tasks one by one as many moves as a task can take at
most therefore ends them all.
-/
namespace CurrencyWallet

/-! ### Searches -/

namespace Resolution

variable {r : Resolution}

def IsLive (r : Resolution) : Prop := r.result? = none → 2 ≤ r.callsLeft

def answersLeft (r : Resolution) : Nat := if r.result?.isNone then r.callsLeft - 1 else 0

theorem isLive_start (policy : RatePolicy) (pair : CurrencyPair) :
    (start policy pair).IsLive := by
  intro _
  unfold start
  split <;> simp [callsLeft]

theorem answersLeft_le (r : Resolution) : r.answersLeft ≤ 2 := by
  unfold answersLeft callsLeft
  split
  · split <;> decide
  · decide

theorem IsLive.advance (h : r.IsLive) (policy : RatePolicy) (answer : RateAnswer) :
    (r.advance policy answer).IsLive := by
  obtain ⟨pair, request, result⟩ := r
  -- A search that has come to the writing has its result.
  have hwriting : ∀ key rate ttl, request = some (.writeCache key rate ttl) → result ≠ none := by
    rintro key rate ttl rfl hnone
    exact absurd (h hnone) (by simp [callsLeft])
  unfold Resolution.advance
  split
  · split
    · nofun
    · exact fun _ => Nat.le_refl 2
  · exact fun _ => Nat.le_refl 2
  · exact fun _ => Nat.le_refl 2
  · split
    · nofun
    · nofun
  · nofun
  · nofun
  · nofun
  · rename_i hrequest
    exact fun hnone => absurd hnone (hwriting _ _ _ hrequest)
  · rename_i hrequest
    exact fun hnone => absurd hnone (hwriting _ _ _ hrequest)
  · exact h

theorem IsLive.assist (h : r.IsLive) (d : RateDesk) (now : Nat) : (d.assist now r).2.IsLive := by
  unfold RateDesk.assist
  split
  · exact h
  · exact h.advance _ _

theorem IsLive.answersLeft_assist (h : r.IsLive) (hnone : r.result? = none) (d : RateDesk)
    (now : Nat) : (d.assist now r).2.answersLeft < r.answersLeft := by
  have hlive := h hnone
  obtain ⟨pair, request, result⟩ := r
  cases hnone
  cases request with
  | none => simp [callsLeft] at hlive
  | some call =>
    cases call with
    | readCache key =>
      simp only [RateDesk.assist, RateDesk.serve]
      cases (d.cache.lookup now key).2 with
      | none => simp [Resolution.advance, answersLeft, callsLeft]
      | some rate =>
        simp only [Resolution.advance]
        split <;> simp [Resolution.finish, answersLeft, callsLeft]
    | quote asked =>
      simp only [RateDesk.assist, RateDesk.serve]
      cases d.rates.quote asked with
      | error e => simp [Resolution.advance, Resolution.finish, answersLeft, callsLeft]
      | ok rate =>
        simp only [Resolution.advance]
        split <;> simp [Resolution.finish, Resolution.deliver, answersLeft, callsLeft]
    | writeCache key rate ttl => simp [callsLeft] at hlive

end Resolution

/-! ### Exchanges -/

theorem JoinView.verdict_ne_none {v : JoinView} (hfunding : v.funding ≠ none)
    (hrate : v.rate ≠ none) : v.verdict ≠ none := by
  obtain ⟨cancelled, funding, rate⟩ := v
  cases cancelled with
  | true => nofun
  | false =>
    match funding, rate with
    | none, _ => exact absurd rfl hfunding
    | _, none => exact absurd rfl hrate
    | some (.error e), some _ => nofun
    | some (.ok f), some (.error e) => nofun
    | some (.ok f), some (.ok rate) => nofun

namespace ExchangeRun

variable {run : ExchangeRun} {funding : Funding} {rate : ResolvedRate} {pricing : Pricing}

theorem result?_of_inFlight (h : run.stage = .inFlight) : run.result? = none := by
  unfold result?
  rw [h]

theorem result?_of_computed (h : run.stage = .computed funding rate pricing) :
    run.result? = none := by
  unfold result?
  rw [h]

theorem isSome_pending?_of_computed (h : run.stage = .computed funding rate pricing) :
    run.pending?.isSome = true := by
  unfold pending?
  rw [h]
  rfl

theorem ended_or_computed_of_join {v : JoinView} (h : run.stage = .inFlight)
    (hverdict : v.verdict ≠ none) :
    ((run.step (.looked v)).step .priced).result? ≠ none ∨
      ∃ funding rate pricing,
        ((run.step (.looked v)).step .priced).stage = .computed funding rate pricing := by
  rw [join_of_inFlight v h]
  cases hv : v.verdict with
  | none => exact absurd hv hverdict
  | some both =>
    cases both with
    | error failure => exact Or.inl nofun
    | ok both =>
      dsimp only
      cases Pricing.compute (run.pricingInput both.1 both.2) with
      | ok pricing => exact Or.inr ⟨_, _, _, rfl⟩
      | refused e => exact Or.inl nofun
      | overflowed o => exact Or.inl nofun

end ExchangeRun

structure ExchangeTask.Live (t : ExchangeTask) : Prop where
  staged : t.run.stage = .inFlight ∨
    ∃ funding rate pricing, t.run.stage = .computed funding rate pricing
  search : t.resolution.IsLive

/-- The moves an exchange needs at most: its balances are found, its rate is searched for, it is
joined and it is settled. -/
def ExchangeTask.movesLeft (t : ExchangeTask) : Nat :=
  if t.run.pending?.isSome then 1
  else t.resolution.answersLeft + (if t.funding.isNone then 3 else 2)

/-! ### Tasks -/

namespace Task

variable {w : Wallet} {t : Task}

def Live : Task → Prop
  | exchanging t => t.Live
  | _ => True

def movesLeft : Task → Nat
  | waiting _ _ => 6
  | exchanging t => t.movesLeft
  | finished _ _ => 0

theorem movesLeft_le (t : Task) : t.movesLeft ≤ 6 := by
  cases t with
  | waiting id request => exact Nat.le_refl 6
  | exchanging e =>
    have hanswers := e.resolution.answersLeft_le
    simp only [movesLeft, ExchangeTask.movesLeft]
    split
    · decide
    · split <;> omega
  | finished result resolution => exact Nat.zero_le 6

theorem isSome_result?_of_movesLeft (h : t.movesLeft = 0) : t.result?.isSome := by
  cases t with
  | waiting id request => cases h
  | exchanging e =>
    simp only [movesLeft, ExchangeTask.movesLeft] at h
    split at h
    · cases h
    · split at h <;> omega
  | finished result resolution => rfl

theorem movesLeft_of_nextMove? (h : t.nextMove? = none) : t.movesLeft = 0 := by
  cases t with
  | waiting id request => cases h
  | exchanging e =>
    simp only [nextMove?] at h
    split_ifs at h
  | finished result resolution => rfl

section Exchanges

variable {e : ExchangeTask} {run : ExchangeRun}

theorem movesLeft_of_inFlight (h : e.run.stage = .inFlight) :
    (exchanging e).movesLeft = e.resolution.answersLeft + (if e.funding.isNone then 3 else 2) := by
  simp only [movesLeft, ExchangeTask.movesLeft, ExchangeRun.pending?_of_inFlight h,
    Option.isSome_none, Bool.false_eq_true, if_false]

theorem live_conclude (hsearch : e.resolution.IsLive)
    (h : run.result? ≠ none ∨ ∃ funding rate pricing, run.stage = .computed funding rate pricing) :
    (conclude w { e with run }).2.Live ∧ (conclude w { e with run }).2.movesLeft ≤ 1 := by
  obtain hended | ⟨funding, rate, pricing, hstage⟩ := h
  · obtain ⟨result, hresult⟩ := Option.ne_none_iff_exists'.1 hended
    rw [conclude_of_some hresult]
    exact ⟨trivial, Nat.zero_le 1⟩
  · rw [conclude_of_none (ExchangeRun.result?_of_computed hstage)]
    refine ⟨⟨Or.inr ⟨_, _, _, hstage⟩, hsearch⟩, ?_⟩
    simp only [movesLeft, ExchangeTask.movesLeft,
      if_pos (ExchangeRun.isSome_pending?_of_computed hstage), Nat.le_refl]

theorem live_join (h : e.Live) (now : Nat) : ((exchanging e).move now w .join).2.Live := by
  change (conclude w { e with run := (e.run.step (.looked e.view)).step .priced }).2.Live
  obtain hflight | ⟨funding, rate, pricing, hstage⟩ := h.staged
  · obtain hflight' | ⟨funding, rate, pricing, -, -, hstage⟩ | ⟨result, hresult, -⟩ :=
      ExchangeRun.join_cases (v := e.view) hflight
    · rw [conclude_of_none (ExchangeRun.result?_of_inFlight hflight')]
      exact ⟨Or.inl hflight', h.search⟩
    · exact (live_conclude h.search (Or.inr ⟨_, _, _, hstage⟩)).1
    · rw [conclude_of_some hresult]
      trivial
  · rw [ExchangeRun.step_looked_of_computed hstage, ExchangeRun.step_priced_of_computed hstage]
    exact (live_conclude h.search (Or.inr ⟨_, _, _, hstage⟩)).1

theorem movesLeft_fund (hflight : e.run.stage = .inFlight) (now : Nat) :
    ((exchanging e).move now w .fund).2.movesLeft = e.resolution.answersLeft + 2 :=
  movesLeft_of_inFlight hflight

theorem movesLeft_serveRate (h : e.Live) (hflight : e.run.stage = .inFlight)
    (hnone : e.resolution.result? = none) (now : Nat) :
    ((exchanging e).move now w .serveRate).2.movesLeft < (exchanging e).movesLeft := by
  have hnext : ((exchanging e).move now w .serveRate).2.movesLeft =
      (w.desk.assist now e.resolution).2.answersLeft + (if e.funding.isNone then 3 else 2) :=
    movesLeft_of_inFlight hflight
  rw [hnext, movesLeft_of_inFlight hflight]
  exact Nat.add_lt_add_right (h.search.answersLeft_assist hnone w.desk now) _

theorem movesLeft_join (h : e.Live) (hflight : e.run.stage = .inFlight)
    (hfunding : e.funding ≠ none) (hrate : e.resolution.result? ≠ none) (now : Nat) :
    ((exchanging e).move now w .join).2.movesLeft ≤ 1 :=
  have hverdict : e.view.verdict ≠ none := JoinView.verdict_ne_none hfunding hrate
  (live_conclude h.search (ExchangeRun.ended_or_computed_of_join hflight hverdict)).2

theorem settle_of_pending? (h : e.Live) (hpending : e.run.pending?.isSome = true) (now : Nat) :
    ∃ result, ((exchanging e).move now w .settle).2 = finished result (some e.resolution) := by
  obtain hflight | ⟨funding, rate, pricing, hstage⟩ := h.staged
  · rw [ExchangeRun.pending?_of_inFlight hflight] at hpending
    cases hpending
  · obtain ⟨result, hresult⟩ := Wallet.exists_result_settle (w := w) hstage
    refine ⟨Wallet.outcomeResult result, ?_⟩
    change (conclude (w.settle e.run).1 { e with run := (w.settle e.run).2 }).2 = _
    rw [conclude_of_some hresult]

theorem live_settle (h : e.Live) (now : Nat) : ((exchanging e).move now w .settle).2.Live := by
  cases hpending : e.run.pending? with
  | none =>
    change (conclude (w.settle e.run).1 { e with run := (w.settle e.run).2 }).2.Live
    rw [Wallet.settle_of_pending hpending]
    unfold conclude
    split
    · exact h
    · trivial
  | some settlement =>
    obtain ⟨result, hfinished⟩ := settle_of_pending? (w := w) h (by rw [hpending]; rfl) now
    rw [hfinished]
    trivial

theorem nextMove?_cases (h : e.Live) {m : Move} (hm : (exchanging e).nextMove? = some m) :
    m = .settle ∧ e.run.pending?.isSome = true ∨
    e.run.stage = .inFlight ∧
      (m = .fund ∧ e.funding = none ∨
      m = .serveRate ∧ e.resolution.result? = none ∨
      m = .join ∧ e.funding ≠ none ∧ e.resolution.result? ≠ none) := by
  simp only [nextMove?] at hm
  obtain hflight | ⟨funding, rate, pricing, hstage⟩ := h.staged
  · refine Or.inr ⟨hflight, ?_⟩
    rw [ExchangeRun.pending?_of_inFlight hflight] at hm
    cases hfunding : e.funding with
    | none =>
      rw [hfunding] at hm
      exact Or.inl ⟨(Option.some.inj hm).symm, rfl⟩
    | some found =>
      rw [hfunding] at hm
      cases hresult : e.resolution.result? with
      | none =>
        rw [hresult] at hm
        exact Or.inr (Or.inl ⟨(Option.some.inj hm).symm, rfl⟩)
      | some rate =>
        rw [hresult] at hm
        exact Or.inr (Or.inr ⟨(Option.some.inj hm).symm, nofun, nofun⟩)
  · have hpending := ExchangeRun.isSome_pending?_of_computed hstage
    rw [if_pos hpending] at hm
    exact Or.inl ⟨(Option.some.inj hm).symm, hpending⟩

theorem movesLeft_exchanging (h : e.Live) {m : Move} (hm : (exchanging e).nextMove? = some m)
    (now : Nat) : ((exchanging e).move now w m).2.movesLeft < (exchanging e).movesLeft := by
  obtain ⟨rfl, hpending⟩ | ⟨hflight, ⟨rfl, hnone⟩ | ⟨rfl, hnone⟩ | ⟨rfl, hfunding, hrate⟩⟩ :=
    nextMove?_cases h hm
  · obtain ⟨result, hfinished⟩ := settle_of_pending? (w := w) h hpending now
    have hone : (exchanging e).movesLeft = 1 := if_pos hpending
    rw [hfinished, hone]
    exact Nat.zero_lt_one
  · rw [movesLeft_fund hflight, movesLeft_of_inFlight hflight, hnone]
    exact Nat.lt_succ_self _
  · exact movesLeft_serveRate h hflight hnone now
  · have htwo : 2 ≤ (exchanging e).movesLeft := by
      rw [movesLeft_of_inFlight hflight]
      split <;> omega
    exact (movesLeft_join h hflight hfunding hrate now).trans_lt htwo

end Exchanges

theorem Live.move (h : t.Live) (now : Nat) (w : Wallet) (m : Move) : (t.move now w m).2.Live := by
  cases t with
  | waiting id request =>
    cases m with
    | begin =>
      obtain ⟨next, hnext, hbegins⟩ := exists_begins now w id request
      rw [hnext]
      cases hbegins with
      | started => exact ⟨Or.inl rfl, Resolution.isLive_start _ _⟩
      | _ => trivial
    | _ => trivial
  | exchanging e =>
    cases m with
    | serveRate => exact ⟨h.staged, h.search.assist w.desk now⟩
    | join => exact live_join h now
    | settle => exact live_settle h now
    | _ => exact ⟨h.staged, h.search⟩
  | finished result resolution =>
    cases resolution with
    | none => trivial
    | some resolution => cases m <;> trivial

theorem Live.receive (h : t.Live) (policy : RatePolicy) (answer : RateAnswer) :
    (t.receive policy answer).Live := by
  cases t with
  | waiting id request => trivial
  | exchanging e => exact ⟨h.staged, h.search.advance policy answer⟩
  | finished result resolution => cases resolution <;> trivial

theorem kept_live : Session.Kept (fun _ => True) (fun _ t => t.Live) where
  move now w _ m _ ht := ⟨trivial, ht.move now w m⟩
  others _ _ _ _ _ _ _ ht' := ht'

theorem movesLeft_begin (now : Nat) (w : Wallet) (id : ExchangeId) (request : WalletRequest) :
    ((waiting id request).move now w .begin).2.movesLeft ≤ 5 := by
  obtain ⟨next, hnext, hbegins⟩ := exists_begins now w id request
  rw [hnext]
  cases hbegins with
  | started => exact Nat.add_le_add_right (Resolution.answersLeft_le _) 3
  | _ => exact Nat.zero_le 5

/-- Each next move brings a task closer to its result. -/
theorem Live.movesLeft_move (h : t.Live) {m : Move} (hm : t.nextMove? = some m) (now : Nat)
    (w : Wallet) : (t.move now w m).2.movesLeft ≤ t.movesLeft - 1 := by
  cases t with
  | waiting id request =>
    cases hm
    exact movesLeft_begin now w id request
  | exchanging e =>
    exact Nat.le_sub_one_of_lt (movesLeft_exchanging h hm now)
  | finished result resolution =>
    cases resolution with
    | none => cases hm
    | some resolution => cases m <;> exact Nat.le_refl 0

end Task

/-! ### Sessions -/

namespace Session

variable {s : Session}

def IsDone (s : Session) : Prop := ∀ t ∈ s.tasks, t.result?.isSome

def Live (s : Session) : Prop := s.Holds (fun _ => True) (fun _ t => t.Live)

theorem Live.run (h : s.Live) (events : List Event) : (s.run events).Live :=
  Holds.run h Task.kept_live events fun _ a _ w _ ht => ht.receive w.desk.policy a

theorem live_start (now : Nat) (w : Wallet) (requests : List (ExchangeId × WalletRequest)) :
    (start now w requests).Live := holds_start trivial (fun _ _ => trivial) now requests

def movesLeft (s : Session) (i : Nat) : Nat := (s.tasks[i]?).elim 0 Task.movesLeft

theorem advance_cases (s : Session) (i : Nat) :
    s.advance i = s ∧ s.movesLeft i = 0 ∨
    ∃ t m, s.tasks[i]? = some t ∧ t.nextMove? = some m ∧ s.advance i = s.step (.move i m) := by
  unfold advance movesLeft
  cases ht : s.tasks[i]? with
  | none => exact Or.inl ⟨rfl, rfl⟩
  | some t =>
    cases hm : t.nextMove? with
    | none =>
      rw [Option.bind_some, hm]
      exact Or.inl ⟨rfl, Task.movesLeft_of_nextMove? hm⟩
    | some m =>
      rw [Option.bind_some, hm]
      exact Or.inr ⟨t, m, rfl, hm, rfl⟩

theorem exists_run_advance (s : Session) (i : Nat) : ∃ events, s.advance i = s.run events := by
  obtain ⟨heq, -⟩ | ⟨t, m, -, -, heq⟩ := s.advance_cases i
  · exact ⟨[], heq⟩
  · exact ⟨[.move i m], heq⟩

theorem run_append (s : Session) (first second : List Event) :
    s.run (first ++ second) = (s.run first).run second := List.foldl_append

theorem exists_run_follow (s : Session) (schedule : List Nat) :
    ∃ events, s.follow schedule = s.run events := by
  induction schedule generalizing s with
  | nil => exact ⟨[], rfl⟩
  | cons i schedule ih =>
    obtain ⟨first, hfirst⟩ := s.exists_run_advance i
    obtain ⟨rest, hrest⟩ := ih (s.advance i)
    refine ⟨first ++ rest, ?_⟩
    rw [run_append, ← hfirst, ← hrest]
    rfl

theorem exists_run_finish (s : Session) : ∃ events, s.finish = s.run events :=
  s.exists_run_follow _

theorem length_tasks_step (s : Session) (e : Event) : (s.step e).tasks.length = s.tasks.length := by
  cases e with
  | elapse time => rfl
  | move i m =>
    simp only [step]
    split
    · rfl
    · exact List.length_set
  | answer i a =>
    simp only [step]
    split
    · rfl
    · exact List.length_set

theorem length_tasks_run (s : Session) (events : List Event) :
    (s.run events).tasks.length = s.tasks.length := by
  induction events generalizing s with
  | nil => rfl
  | cons e events ih => exact (ih (s.step e)).trans (s.length_tasks_step e)

theorem Live.movesLeft_advance (h : s.Live) (i k : Nat) :
    (s.advance k).movesLeft i ≤ s.movesLeft i - (if k = i then 1 else 0) := by
  obtain ⟨heq, hzero⟩ | ⟨t, m, ht, hm, heq⟩ := s.advance_cases k
  · rw [heq]
    split
    · rename_i hk
      rw [← hk, hzero]
    · exact Nat.le_refl _
  · have hlt : k < s.tasks.length := (List.getElem?_eq_some_iff.1 ht).1
    rw [heq]
    simp only [step, ht, movesLeft]
    split
    · rename_i hk
      subst hk
      rw [List.getElem?_set_self hlt, ht]
      exact (h.tasks t (List.mem_of_getElem? ht)).movesLeft_move hm s.now s.wallet
    · rename_i hk
      rw [List.getElem?_set_ne hk]
      exact Nat.le_refl _

theorem Live.movesLeft_follow (h : s.Live) (schedule : List Nat) (i : Nat) :
    (s.follow schedule).movesLeft i ≤ s.movesLeft i - schedule.count i := by
  induction schedule generalizing s with
  | nil => exact Nat.le_refl _
  | cons k schedule ih =>
    obtain ⟨events, hevents⟩ := s.exists_run_advance k
    have hlive : (s.advance k).Live := by
      rw [hevents]
      exact h.run events
    have hrest : (s.follow (k :: schedule)).movesLeft i ≤
        (s.advance k).movesLeft i - schedule.count i := ih hlive
    have hfirst := h.movesLeft_advance i k
    rw [List.count_cons]
    simp only [beq_iff_eq] at hfirst ⊢
    omega

theorem isDone_of_movesLeft (h : ∀ i, s.movesLeft i = 0) : s.IsDone := by
  intro t ht
  obtain ⟨i, hi⟩ := List.mem_iff_getElem?.1 ht
  have hzero := h i
  rw [movesLeft, hi] at hzero
  exact Task.isSome_result?_of_movesLeft hzero

/-- Whatever has happened in a session, it can be taken to its end. -/
theorem Live.isDone_finish (h : s.Live) : s.finish.IsDone := by
  refine isDone_of_movesLeft fun i => ?_
  refine Nat.le_zero.1 ((h.movesLeft_follow _ i).trans ?_)
  obtain hlt | hge := Nat.lt_or_ge i s.tasks.length
  · have hsub : (List.replicate Task.movesToFinish i).Sublist
        ((List.range s.tasks.length).flatMap (List.replicate Task.movesToFinish)) := by
      rw [List.flatMap_def]
      exact List.sublist_flatten_of_mem (List.mem_map.2 ⟨i, List.mem_range.2 hlt, rfl⟩)
    have hcount := hsub.count_le i
    rw [List.count_replicate_self] at hcount
    have hmoves : s.movesLeft i ≤ 6 := by
      rw [movesLeft, List.getElem?_eq_getElem hlt]
      exact Task.movesLeft_le _
    have height : Task.movesToFinish = 8 := rfl
    omega
  · rw [movesLeft, List.getElem?_eq_none hge]
    exact Nat.sub_le 0 _

end Session

end CurrencyWallet

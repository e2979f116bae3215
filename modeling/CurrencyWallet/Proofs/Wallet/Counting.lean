import CurrencyWallet.Proofs.Exchange.Lifecycle
import CurrencyWallet.Proofs.Lists
import CurrencyWallet.Proofs.Wallet.Accounting
import CurrencyWallet.Proofs.Wallet.Faults

/-!
What the counters of a wallet say. A call is counted when it returns, an exchange also when it is
started; whatever the store and the rates answer, and wherever a call is lost, the counters are the
sum of what the calls have been counted for. What is known of the counters of a single call
therefore holds of them all. An exchange is started when it has passed its checks and has a
deadline. Where no clock reaches the deadline, it stops in between, and only there do the counters
leave out exchanges that have passed their checks.
-/
namespace CurrencyWallet

/-- A call to a wallet, as far as it has come. An exchange stops if it gets no deadline; a call that
is lost was dropped or has panicked after its checks, and one that ends in an overflow has panicked
too: none of them returns. -/
inductive WalletCall where
  | asked (id : ExchangeId) (request : WalletRequest)
  | rejected (error : ExchangeError)
  | querying (call : Ledger.Call)
  | queried (reply : Ledger.Reply)
  | moving (movement : Movement) (call : Ledger.Call)
  | moved (movement : Movement) (reply : Ledger.Reply)
  | stopped (request : ExchangeRequest)
  | exchanging (run : ExchangeRun)
  | exchanged (result : Attempt ExchangeFailure ExchangeOutcome)
  | lost (admitted : Admitted)

/-- What can happen to a call. The store replies to a query or a movement, and that returns; an
exchange is told of its events, and returns when its run has ended. -/
inductive WalletIncident where
  | begin
  | replied (reply : Ledger.Reply)
  | told (event : ExchangeEvent)
  | returns
  | lost

namespace WalletCall

def begin (timeout : Nat) (id : ExchangeId) (request : WalletRequest) :
    Option MetricEvent × WalletCall :=
  match request.check with
  | .error e => (none, rejected e)
  | .ok (.query call) => (none, querying call)
  | .ok (.move movement call) => (none, moving movement call)
  | .ok (.exchange request) =>
    if IsWithinReach timeout then (some .exchangeStarted, exchanging (.start id request))
    else (none, stopped request)

/-- What is counted by an incident, and what it makes of the call. An incident that does not fit
changes nothing. -/
def step (timeout : Nat) : WalletCall → WalletIncident → Option MetricEvent × WalletCall
  | asked id request, .begin => begin timeout id request
  | querying _, .replied reply => (none, queried reply)
  | moving movement _, .replied reply =>
    (Wallet.movementEvent? movement reply, moved movement reply)
  | exchanging run, .told event => (none, exchanging (run.step event))
  | exchanging run, .returns =>
    match run.result? with
    | none => (none, exchanging run)
    | some result => (Wallet.exchangeEvent? result, exchanged result)
  | querying call, .lost => (none, lost (.query call))
  | moving movement call, .lost => (none, lost (.move movement call))
  | exchanging run, .lost => (none, lost (.exchange run.request))
  | call, _ => (none, call)

/-- An exchange that has passed the checks and has not returned. -/
def isOpen : WalletCall → Bool
  | stopped _ | exchanging _ | lost (.exchange _) | exchanged (.overflowed _) => true
  | _ => false

def isStopped : WalletCall → Bool
  | stopped _ => true
  | _ => false

def isServed (source : RateSource) : WalletCall → Bool
  | exchanged (.ok outcome) => outcome.rateSource = source
  | _ => false

def isFailedIn (state : ExchangeState) : WalletCall → Bool
  | exchanged (.refused failure) => failure.state = state
  | _ => false

def isMoved : WalletCall → Bool
  | moved _ (.ok _) | moved _ (.refused _) => true
  | _ => false

end WalletCall

/-- The counters agree with the calls: the exchanges that were started are those that have returned
and those that are open, apart from the ones that were stopped. -/
structure Metrics.Agrees (m : Metrics) (calls : List WalletCall) : Prop where
  inFlight : m.started + calls.countP (·.isStopped) =
    m.succeeded + m.failed + calls.countP (·.isOpen)
  sources : m.succeeded = m.cacheHits + m.cacheMisses
  hits : m.cacheHits = calls.countP (·.isServed .cache)
  misses : m.cacheMisses = calls.countP (·.isServed .remote)
  failures : ∀ state, m.failures state = calls.countP (·.isFailedIn state)
  movements : m.deposits + m.withdrawals + m.movementsFailed = calls.countP (·.isMoved)

structure WalletOffice where
  exchangeTimeout : Nat
  metrics : Metrics
  calls : List WalletCall

def Metrics.recordAll (m : Metrics) (event : Option MetricEvent) : Metrics :=
  event.elim m m.record

namespace WalletOffice

def opening (timeout : Nat) (requests : List (ExchangeId × WalletRequest)) : WalletOffice :=
  ⟨timeout, .zero, requests.map fun r => .asked r.1 r.2⟩

def step (s : WalletOffice) (e : Nat × WalletIncident) : WalletOffice :=
  match s.calls[e.1]? with
  | none => s
  | some call =>
    let (event, next) := call.step s.exchangeTimeout e.2
    { s with metrics := s.metrics.recordAll event, calls := s.calls.set e.1 next }

def run (s : WalletOffice) (incidents : List (Nat × WalletIncident)) : WalletOffice :=
  incidents.foldl step s

end WalletOffice

/-! ### Sums of counters -/

namespace Metrics

instance : Add Metrics where
  add a b :=
    { started := a.started + b.started
      succeeded := a.succeeded + b.succeeded
      validationFailed := a.validationFailed + b.validationFailed
      rateFailed := a.rateFailed + b.rateFailed
      computeFailed := a.computeFailed + b.computeFailed
      commitFailed := a.commitFailed + b.commitFailed
      deadlineExceeded := a.deadlineExceeded + b.deadlineExceeded
      cacheHits := a.cacheHits + b.cacheHits
      cacheMisses := a.cacheMisses + b.cacheMisses
      deposits := a.deposits + b.deposits
      withdrawals := a.withdrawals + b.withdrawals
      movementsFailed := a.movementsFailed + b.movementsFailed }

/-- What is counted does not depend on what has been counted before. -/
theorem record_eq_add (m : Metrics) (event : MetricEvent) :
    m.record event = m + zero.record event := by
  cases event with
  | exchangeStarted => rfl
  | exchangeSucceeded source => cases source <;> rfl
  | exchangeFailed state => cases state <;> rfl
  | moved movement => cases movement <;> rfl
  | movementFailed => rfl

/-- A number that can be read off the counters of each call on its own, and then be added up. -/
structure IsAdditive (f : Metrics → Nat) : Prop where
  zero : f .zero = 0
  add : ∀ a b, f (a + b) = f a + f b

namespace IsAdditive

variable {f g : Metrics → Nat}

theorem none : IsAdditive fun _ => 0 := ⟨rfl, fun _ _ => rfl⟩

theorem plus (hf : IsAdditive f) (hg : IsAdditive g) : IsAdditive fun m => f m + g m where
  zero := by rw [hf.zero, hg.zero]
  add a b := by rw [hf.add, hg.add, Nat.add_add_add_comm]

theorem started : IsAdditive Metrics.started := ⟨rfl, fun _ _ => rfl⟩

theorem succeeded : IsAdditive Metrics.succeeded := ⟨rfl, fun _ _ => rfl⟩

theorem cacheHits : IsAdditive Metrics.cacheHits := ⟨rfl, fun _ _ => rfl⟩

theorem cacheMisses : IsAdditive Metrics.cacheMisses := ⟨rfl, fun _ _ => rfl⟩

theorem failures (state : ExchangeState) : IsAdditive (·.failures state) where
  zero := by cases state <;> rfl
  add a b := by cases state <;> rfl

theorem failed : IsAdditive Metrics.failed :=
  ((((failures .validationFailed).plus (failures .rateFailed)).plus
    (failures .computeFailed)).plus (failures .commitFailed)).plus (failures .deadlineExceeded)

theorem movements : IsAdditive fun m => m.deposits + m.withdrawals + m.movementsFailed :=
  (plus ⟨rfl, fun _ _ => rfl⟩ ⟨rfl, fun _ _ => rfl⟩).plus ⟨rfl, fun _ _ => rfl⟩

theorem recordAll (hf : IsAdditive f) (m : Metrics) (event : Option MetricEvent) :
    f (m.recordAll event) = f m + f (Metrics.zero.recordAll event) := by
  cases event with
  | none => exact (congrArg (f m + ·) hf.zero).symm
  | some event =>
    change f (m.record event) = f m + f (Metrics.zero.record event)
    rw [record_eq_add, hf.add]

end IsAdditive

end Metrics

/-! ### One call -/

namespace WalletCall

def counted : WalletCall → Metrics
  | exchanging _ | lost (.exchange _) => Metrics.zero.record .exchangeStarted
  | exchanged result =>
    (Metrics.zero.record .exchangeStarted).recordAll (Wallet.exchangeEvent? result)
  | moved movement reply => Metrics.zero.recordAll (Wallet.movementEvent? movement reply)
  | _ => .zero

/-- An exchange is started or stopped as its deadline has it, and fails in one of the states that
have a counter. -/
def Sound (timeout : Nat) : WalletCall → Prop
  | stopped _ => ¬ IsWithinReach timeout
  | lost (.exchange _) => IsWithinReach timeout
  | exchanging run =>
    IsWithinReach timeout ∧ ∀ f, run.stage = .failed f → f.state.isFailure = true
  | exchanged result =>
    IsWithinReach timeout ∧ ∀ f, result = .refused f → f.state.isFailure = true
  | _ => True

variable {timeout : Nat}

theorem counted_step (timeout : Nat) (call : WalletCall) (incident : WalletIncident) :
    (call.step timeout incident).2.counted =
      call.counted.recordAll (call.step timeout incident).1 := by
  cases call with
  | asked id request =>
    cases incident with
    | begin =>
      simp only [step, begin]
      split
      · rfl
      · rfl
      · rfl
      · split <;> rfl
    | _ => rfl
  | exchanging run =>
    cases incident with
    | returns =>
      simp only [step]
      split <;> rfl
    | _ => rfl
  | _ => cases incident <;> rfl

theorem sound_begin (timeout : Nat) (id : ExchangeId) (request : WalletRequest) :
    (begin timeout id request).2.Sound timeout := by
  unfold begin
  split
  · trivial
  · trivial
  · trivial
  · split
    · exact ⟨‹_›, nofun⟩
    · exact ‹_›

theorem Sound.step {call : WalletCall} (h : call.Sound timeout) (incident : WalletIncident) :
    (call.step timeout incident).2.Sound timeout := by
  cases call with
  | asked id request =>
    cases incident with
    | begin => exact sound_begin timeout id request
    | _ => trivial
  | exchanging run =>
    cases incident with
    | told event => exact ⟨h.1, (run.turn event).isFailure h.2⟩
    | returns =>
      simp only [WalletCall.step]
      split
      · exact h
      · rename_i result hresult
        refine ⟨h.1, ?_⟩
        rintro f rfl
        have hfailed : run.result? = some (.ofExcept (.error f)) := hresult
        exact h.2 f (ExchangeRun.result?_eq_ofExcept.1 hfailed)
    | lost => exact h.1
    | _ => exact h
  | stopped request => cases incident <;> exact h
  | lost admitted => cases incident <;> exact h
  | exchanged result => cases incident <;> exact h
  | _ => cases incident <;> trivial

end WalletCall

/-! ### All calls -/

namespace WalletOffice

variable {s : WalletOffice}

structure Sound (s : WalletOffice) : Prop where
  calls : ∀ call ∈ s.calls, call.Sound s.exchangeTimeout
  tally : ∀ f, Metrics.IsAdditive f → f s.metrics = (s.calls.map fun call => f call.counted).sum

theorem sum_counted_opening {f : Metrics → Nat} (hf : Metrics.IsAdditive f) (timeout : Nat)
    (requests : List (ExchangeId × WalletRequest)) :
    ((opening timeout requests).calls.map fun call => f call.counted).sum = 0 := by
  refine List.sum_eq_zero fun n hn => ?_
  obtain ⟨call, hcall, rfl⟩ := List.mem_map.1 hn
  obtain ⟨r, -, rfl⟩ := List.mem_map.1 hcall
  exact hf.zero

theorem step_of_get {i : Nat} {call : WalletCall} (h : s.calls[i]? = some call)
    (incident : WalletIncident) :
    s.step (i, incident) = ⟨s.exchangeTimeout,
      s.metrics.recordAll (call.step s.exchangeTimeout incident).1,
      s.calls.set i (call.step s.exchangeTimeout incident).2⟩ := by
  unfold step
  simp only [h]

theorem metrics_step {f : Metrics → Nat} (hf : Metrics.IsAdditive f) (s : WalletOffice)
    (e : Nat × WalletIncident) :
    f (s.step e).metrics + (s.calls.map fun call => f call.counted).sum =
      f s.metrics + ((s.step e).calls.map fun call => f call.counted).sum := by
  obtain ⟨i, incident⟩ := e
  cases hget : s.calls[i]? with
  | none =>
    unfold step
    simp only [hget]
  | some call =>
    have hsum := List.sum_map_set (f := fun call => f call.counted) hget
      (call.step s.exchangeTimeout incident).2
    have hcall := hf.recordAll call.counted (call.step s.exchangeTimeout incident).1
    have hmetrics := hf.recordAll s.metrics (call.step s.exchangeTimeout incident).1
    rw [WalletCall.counted_step, hcall] at hsum
    rw [step_of_get hget]
    dsimp only
    rw [hmetrics]
    omega

theorem metrics_run {f : Metrics → Nat} (hf : Metrics.IsAdditive f) (s : WalletOffice)
    (incidents : List (Nat × WalletIncident)) :
    f (s.run incidents).metrics + (s.calls.map fun call => f call.counted).sum =
      f s.metrics + ((s.run incidents).calls.map fun call => f call.counted).sum := by
  induction incidents generalizing s with
  | nil => rfl
  | cons e incidents ih =>
    have hfirst := metrics_step hf s e
    have hrest := ih (s.step e)
    have hrun : s.run (e :: incidents) = (s.step e).run incidents := rfl
    rw [hrun]
    omega

@[simp] theorem exchangeTimeout_step (s : WalletOffice) (e : Nat × WalletIncident) :
    (s.step e).exchangeTimeout = s.exchangeTimeout := by
  unfold step
  split <;> rfl

@[simp] theorem exchangeTimeout_run (s : WalletOffice) (incidents : List (Nat × WalletIncident)) :
    (s.run incidents).exchangeTimeout = s.exchangeTimeout := by
  induction incidents generalizing s with
  | nil => rfl
  | cons e incidents ih => exact (ih (s.step e)).trans (s.exchangeTimeout_step e)

section Calls

variable {P : WalletCall → Prop}

theorem forall_calls_step
    (hstep : ∀ call, P call → ∀ incident, P (call.step s.exchangeTimeout incident).2)
    (h : ∀ call ∈ s.calls, P call) (e : Nat × WalletIncident) :
    ∀ call ∈ (s.step e).calls, P call := by
  obtain ⟨i, incident⟩ := e
  cases hget : s.calls[i]? with
  | none =>
    unfold step
    simp only [hget]
    exact h
  | some call =>
    rw [step_of_get hget]
    intro other hother
    obtain hother | rfl := List.mem_or_eq_of_mem_set hother
    · exact h other hother
    · exact hstep call (h call (List.mem_of_getElem? hget)) incident

theorem forall_calls_run
    (hstep : ∀ call, P call → ∀ incident, P (call.step s.exchangeTimeout incident).2)
    (h : ∀ call ∈ s.calls, P call) (incidents : List (Nat × WalletIncident)) :
    ∀ call ∈ (s.run incidents).calls, P call := by
  induction incidents generalizing s with
  | nil => exact h
  | cons e incidents ih =>
    refine ih ?_ (forall_calls_step hstep h e)
    rw [exchangeTimeout_step]
    exact hstep

end Calls

theorem Sound.run (h : s.Sound) (incidents : List (Nat × WalletIncident)) :
    (s.run incidents).Sound where
  calls := by
    rw [exchangeTimeout_run]
    exact forall_calls_run (fun _ hcall => hcall.step) h.calls incidents
  tally f hf := by
    have hrun := metrics_run hf s incidents
    have hbefore := h.tally f hf
    omega

end WalletOffice

/-! ### Sessions -/

inductive Task.Shows : Task → WalletCall → Prop
  | asked {id : ExchangeId} {request : WalletRequest} :
    Shows (.waiting id request) (.asked id request)
  | rejected {error : ExchangeError} : Shows (.finished (.refused error) none) (.rejected error)
  | queried {reply : Ledger.Reply} :
    Shows (.finished (Wallet.balancesResult reply) none) (.queried reply)
  | moved {movement : Movement} {reply : Ledger.Reply} :
    Shows (.finished (Wallet.balancesResult reply) none) (.moved movement reply)
  | stopped {request : ExchangeRequest} :
    Shows (.finished (.overflowed .moment) none) (.stopped request)
  | exchanging {t : ExchangeTask} : Shows (.exchanging t) (.exchanging t.run)
  | exchanged {result : Attempt ExchangeFailure ExchangeOutcome} {resolution : Resolution} :
    Shows (.finished (Wallet.outcomeResult result) (some resolution)) (.exchanged result)

namespace WalletCall

def follow (timeout : Nat) (m : Metrics) (call : WalletCall) :
    List WalletIncident → Metrics × WalletCall
  | [] => (m, call)
  | incident :: incidents =>
    (call.step timeout incident).2.follow timeout (m.recordAll (call.step timeout incident).1)
      incidents

/-- Some incidents take the call to what the task has become, and count the same. -/
def ComesTo (timeout : Nat) (m : Metrics) (call : WalletCall) (moved : Wallet × Task) : Prop :=
  ∃ incidents, (call.follow timeout m incidents).1 = moved.1.metrics ∧
    moved.2.Shows (call.follow timeout m incidents).2

variable {timeout : Nat} {m : Metrics} {call : WalletCall} {moved : Wallet × Task}

theorem ComesTo.refl {w : Wallet} {t : Task} (h : t.Shows call) :
    ComesTo timeout w.metrics call (w, t) := ⟨[], rfl, h⟩

theorem ComesTo.step (incident : WalletIncident)
    (h : ComesTo timeout (m.recordAll (call.step timeout incident).1)
      (call.step timeout incident).2 moved) :
    ComesTo timeout m call moved := by
  obtain ⟨incidents, hmetrics, hshows⟩ := h
  exact ⟨incident :: incidents, hmetrics, hshows⟩

end WalletCall

namespace Task

open WalletCall (ComesTo)

@[simp] theorem metrics_recordAll (w : Wallet) (event : Option MetricEvent) :
    (w.recordAll event).metrics = w.metrics.recordAll event := by
  cases event <;> rfl

theorem comesTo_begin (now : Nat) (w : Wallet) (id : ExchangeId) (request : WalletRequest) :
    ComesTo w.exchangeTimeout w.metrics (.asked id request)
      ((waiting id request).move now w .begin) := by
  have hbegin : (WalletCall.asked id request).step w.exchangeTimeout .begin =
      WalletCall.begin w.exchangeTimeout id request := rfl
  obtain ⟨next, hnext, hbegins⟩ := exists_begins now w id request
  rw [hnext]
  refine .step .begin ?_
  rw [hbegin]
  unfold WalletCall.begin
  cases hbegins with
  | rejected hcheck =>
    rw [hcheck]
    exact .refl .rejected
  | @queried call hcheck =>
    rw [hcheck]
    exact .step (.replied (w.ledger.perform call).2) (.refl .queried)
  | @moved movement call hcheck =>
    rw [hcheck]
    refine .step (.replied (w.ledger.perform call).2) ⟨[], ?_, .moved⟩
    exact (metrics_recordAll (w.call call).1 (Wallet.movementEvent? movement _)).symm
  | started hcheck hreach =>
    simp only [hcheck, if_pos hreach]
    exact .step (.told .launched) ⟨[], rfl, .exchanging⟩
  | stopped hcheck hbeyond =>
    simp only [hcheck, if_neg hbeyond]
    exact .refl .stopped

theorem comesTo_conclude (timeout : Nat) (w : Wallet) (t : ExchangeTask) :
    ComesTo timeout w.metrics (.exchanging t.run) (conclude w t) := by
  cases hresult : t.run.result? with
  | none =>
    rw [conclude_of_none hresult]
    exact .refl .exchanging
  | some result =>
    have hreturns : (WalletCall.exchanging t.run).step timeout .returns =
        (Wallet.exchangeEvent? result, .exchanged result) := by
      simp only [WalletCall.step, hresult]
    rw [conclude_of_some hresult]
    refine .step .returns ?_
    rw [hreturns]
    exact ⟨[], (metrics_recordAll _ _).symm, .exchanged⟩

theorem comesTo_moveExchange (timeout now : Nat) (w : Wallet) (t : ExchangeTask) (m : Move) :
    ComesTo timeout w.metrics (.exchanging t.run) (moveExchange now w t m) := by
  cases m with
  | join =>
    exact .step (.told (.looked t.view)) (.step (.told .priced) (comesTo_conclude timeout w
      { t with run := (t.run.step (.looked t.view)).step .priced }))
  | settle =>
    simp only [moveExchange, Wallet.settle]
    cases t.run.pending? with
    | none => exact comesTo_conclude timeout w { t with run := t.run }
    | some settlement =>
      have hconclude := comesTo_conclude timeout (w.call (.settle settlement)).1
        { t with run := (t.run.step (.settled (w.call (.settle settlement)).2)).step .concluded }
      exact .step (.told (.settled (w.call (.settle settlement)).2))
        (.step (.told .concluded) hconclude)
  | serveRate => exact ⟨[], rfl, .exchanging⟩
  | _ => exact .refl .exchanging

theorem Shows.move {w : Wallet} {t : Task} {call : WalletCall} (h : t.Shows call) (now : Nat)
    (m : Move) : ComesTo w.exchangeTimeout w.metrics call (t.move now w m) := by
  cases h with
  | @asked id request =>
    cases m with
    | begin => exact comesTo_begin now w id request
    | _ => exact .refl .asked
  | exchanging => exact comesTo_moveExchange w.exchangeTimeout now w _ m
  | rejected => exact .refl .rejected
  | queried => exact .refl .queried
  | moved => exact .refl .moved
  | stopped => exact .refl .stopped
  | exchanged =>
    cases m with
    | serveRate => exact ⟨[], rfl, .exchanged⟩
    | _ => exact .refl .exchanged

theorem Shows.receive {t : Task} {call : WalletCall} (h : t.Shows call) (policy : RatePolicy)
    (answer : RateAnswer) : (t.receive policy answer).Shows call := by
  cases h with
  | asked => exact .asked
  | exchanging => exact .exchanging
  | rejected => exact .rejected
  | queried => exact .queried
  | moved => exact .moved
  | stopped => exact .stopped
  | exchanged => exact .exchanged

end Task

namespace WalletOffice

variable {s : WalletOffice} {session : Session}

/-- The office counts as the wallet of the session, and its calls are the tasks. -/
structure Mirrors (s : WalletOffice) (session : Session) : Prop where
  timeout : s.exchangeTimeout = session.wallet.exchangeTimeout
  metrics : s.metrics = session.wallet.metrics
  calls : session.tasks.Forall₂ Task.Shows s.calls

theorem run_follow {i : Nat} {call : WalletCall} (h : s.calls[i]? = some call)
    (incidents : List WalletIncident) :
    s.run (incidents.map (i, ·)) =
      ⟨s.exchangeTimeout, (call.follow s.exchangeTimeout s.metrics incidents).1,
        s.calls.set i (call.follow s.exchangeTimeout s.metrics incidents).2⟩ := by
  have hlt : i < s.calls.length := (List.getElem?_eq_some_iff.1 h).1
  induction incidents generalizing s call with
  | nil =>
    have hsame : s.calls.set i call = s.calls := by
      rw [List.getElem?_eq_getElem hlt, Option.some_inj] at h
      rw [← h, List.set_getElem_self]
    exact congrArg (WalletOffice.mk s.exchangeTimeout s.metrics) hsame.symm
  | cons incident incidents ih =>
    have hnext : (s.step (i, incident)).calls[i]? =
        some (call.step s.exchangeTimeout incident).2 := by
      rw [step_of_get h]
      exact List.getElem?_set_self hlt
    have hlength : i < (s.step (i, incident)).calls.length :=
      (List.getElem?_eq_some_iff.1 hnext).1
    have hrest := ih hnext hlength
    rw [List.map_cons, run, List.foldl_cons]
    rw [run] at hrest
    rw [hrest, step_of_get h]
    simp only [List.set_set]
    rfl

theorem run_append (s : WalletOffice) (first second : List (Nat × WalletIncident)) :
    s.run (first ++ second) = (s.run first).run second := List.foldl_append

theorem Mirrors.step (h : s.Mirrors session) (e : Session.Event) :
    ∃ incidents, (s.run incidents).Mirrors (session.step e) := by
  cases e with
  | elapse time => exact ⟨[], h.timeout, h.metrics, h.calls⟩
  | move i m =>
    simp only [Session.step]
    cases hget : session.tasks[i]? with
    | none => exact ⟨[], h⟩
    | some t =>
      obtain ⟨call, hcall, hshows⟩ := List.exists_of_forall₂ h.calls hget
      obtain ⟨incidents, hmetrics, hnext⟩ := hshows.move (w := session.wallet) session.now m
      rw [← h.metrics, ← h.timeout] at hmetrics hnext
      refine ⟨incidents.map (i, ·), ?_⟩
      rw [run_follow hcall]
      exact ⟨h.timeout.trans (Task.exchangeTimeout_move session.now session.wallet t m).symm,
        hmetrics, List.forall₂_set h.calls hnext i⟩
  | answer i a =>
    simp only [Session.step]
    cases hget : session.tasks[i]? with
    | none => exact ⟨[], h⟩
    | some t =>
      obtain ⟨call, hcall, hshows⟩ := List.exists_of_forall₂ h.calls hget
      have hnext := hshows.receive session.wallet.desk.policy a
      refine ⟨[].map (i, ·), ?_⟩
      rw [run_follow hcall]
      exact ⟨h.timeout, h.metrics, List.forall₂_set h.calls hnext i⟩

theorem Mirrors.run (h : s.Mirrors session) (events : List Session.Event) :
    ∃ incidents, (s.run incidents).Mirrors (session.run events) := by
  induction events generalizing s session with
  | nil => exact ⟨[], h⟩
  | cons e events ih =>
    obtain ⟨first, hstep⟩ := h.step e
    obtain ⟨second, hrun⟩ := ih hstep
    exact ⟨first ++ second, by rw [run_append]; exact hrun⟩

theorem shows_start (now : Nat) (w : Wallet) (requests : List (ExchangeId × WalletRequest)) :
    (Session.start now w requests).tasks.Forall₂ Task.Shows
      (opening w.exchangeTimeout requests).calls := by
  induction requests with
  | nil => exact .nil
  | cons r requests ih => exact .cons .asked ih

/-- An exchange that is dropped stays in the difference; a deposit of nothing is not counted. -/
example : ((opening 10000 [(⟨0⟩, .exchange ⟨⟨1⟩, .usd, .eur, .small 10 0⟩),
      (⟨1⟩, .move .deposit ⟨1⟩ .usd .zero)]).run [(0, .begin), (1, .begin), (0, .lost)]).metrics =
    { Metrics.zero with started := 1 } := by decide +kernel

end WalletOffice

end CurrencyWallet

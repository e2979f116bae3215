import CurrencyWallet.Proofs.Simulation.Plan
import CurrencyWallet.Proofs.Wallet.Completion
import CurrencyWallet.Proofs.Wallet.Counting
import CurrencyWallet.Simulation.Report

/-!
What a report of a simulation says. The results of the tasks and the counters of the wallet are kept
apart from each other, and they agree all the same: after the users have been funded, every task
that ends is counted once as a movement or as an exchange, as ended well or not, whatever the plan
and whatever the order of the moves. No balance ends below zero.
-/
namespace CurrencyWallet

/-! ### Ledgers -/

theorem Ledger.negativeCount_eq_zero {l : Ledger} (h : l.NonNegative) (users : List UserId) :
    l.negativeCount users = 0 := by
  induction users with
  | nil => rfl
  | cons u users ih =>
    have hnone : Balances.negativeCount (l.balances u) = 0 := by
      refine List.length_eq_zero_iff.2 (List.filter_eq_nil_iff.2 fun e he => ?_)
      rw [decide_eq_true_eq]
      exact h u e.1 e.2 (Table.get?_of_mem_toList he)
    change Balances.negativeCount (l.balances u) + l.negativeCount users = 0
    rw [hnone, ih]

theorem Session.reachable_run {s : Session} (h : s.wallet.ledger.Reachable)
    (events : List Session.Event) : (s.run events).wallet.ledger.Reachable := by
  have hkept : Session.Kept (fun w => w.ledger.Reachable) (fun _ _ => True) :=
    { move := fun now w t m hw _ => by
        obtain ⟨calls, hledger⟩ := Task.ledger_move now w t m
        rw [hledger]
        exact ⟨hw.run calls, trivial⟩
      others := fun _ _ _ _ _ _ _ _ => trivial }
  have hholds : s.Holds (fun w => w.ledger.Reachable) (fun _ _ => True) := ⟨h, fun _ _ => trivial⟩
  exact (hholds.run hkept events fun _ _ _ _ _ _ => trivial).wallet

/-! ### Calls -/

namespace Metrics

def endedWell (m : Metrics) : Nat := m.deposits + m.withdrawals + m.succeeded

def endedIll (m : Metrics) : Nat := m.movementsFailed + m.failed

def begun (m : Metrics) : Nat := m.deposits + m.withdrawals + m.movementsFailed + m.started

namespace IsAdditive

theorem endedWell : IsAdditive Metrics.endedWell :=
  (plus ⟨rfl, fun _ _ => rfl⟩ ⟨rfl, fun _ _ => rfl⟩).plus succeeded

theorem endedIll : IsAdditive Metrics.endedIll := plus ⟨rfl, fun _ _ => rfl⟩ failed

theorem begun : IsAdditive Metrics.begun := movements.plus started

end IsAdditive

end Metrics

namespace WalletCall

def IsWork : WalletCall → Prop
  | asked _ request => request.IsWork
  | rejected _ | querying _ | queried _ => False
  | _ => True

theorem IsWork.step {call : WalletCall} (h : call.IsWork) (timeout : Nat)
    (incident : WalletIncident) : (call.step timeout incident).2.IsWork := by
  cases call with
  | asked id request =>
    cases incident with
    | begin =>
      obtain ⟨admitted, hcheck, hquery⟩ := h
      simp only [WalletCall.step, begin, hcheck]
      cases admitted with
      | query call => exact absurd rfl (hquery call)
      | move movement call => trivial
      | exchange request =>
        dsimp only
        split <;> trivial
    | _ => exact h
  | rejected error => exact h.elim
  | querying call => exact h.elim
  | queried reply => exact h.elim
  | exchanging run =>
    cases incident with
    | returns =>
      simp only [WalletCall.step]
      split <;> trivial
    | _ => trivial
  | _ => cases incident <;> trivial

end WalletCall

structure Metrics.Counts (m : Metrics) (result : WalletResult) : Prop where
  endedWell : m.endedWell = if result.isOk then 1 else 0
  endedIll : m.endedIll = if result.isOk then 0 else 1
  begun : m.begun = 1

theorem Task.Shows.counts {t : Task} {call : WalletCall} {timeout : Nat} {result : WalletResult}
    (h : t.Shows call) (hsound : call.Sound timeout) (hwork : call.IsWork)
    (hresult : t.result? = some result) (hends : ∀ o, result ≠ .overflowed o) :
    call.counted.Counts result := by
  cases h with
  | asked => cases hresult
  | rejected => exact hwork.elim
  | queried => exact hwork.elim
  | exchanging => cases hresult
  | stopped =>
    cases hresult
    exact absurd rfl (hends .moment)
  | @moved movement reply =>
    cases hresult
    cases reply with
    | ok b => cases movement <;> exact ⟨rfl, rfl, rfl⟩
    | refused e => exact ⟨rfl, rfl, rfl⟩
    | overflowed o => exact absurd rfl (hends o)
  | @exchanged ended resolution =>
    cases hresult
    cases ended with
    | ok outcome =>
      obtain ⟨_, _, _, _, _, _, _, _, _, source, _⟩ := outcome
      cases source <;> exact ⟨rfl, rfl, rfl⟩
    | refused failure =>
      have hstate := hsound.2 failure rfl
      obtain ⟨state, error⟩ := failure
      cases state with
      | validationFailed | rateFailed | computeFailed | commitFailed | deadlineExceeded =>
        exact ⟨rfl, rfl, rfl⟩
      | _ => cases hstate
    | overflowed o => exact absurd rfl (hends o)

/-! ### Sessions -/

namespace Session

variable {s : Session}

def Endures (s : Session) : Prop := ∀ o, .overflowed o ∉ s.results

theorem sum_counted {tasks : List Task} {calls : List WalletCall} {timeout : Nat}
    (h : tasks.Forall₂ Task.Shows calls)
    (hcalls : ∀ call ∈ calls, call.Sound timeout ∧ call.IsWork)
    (hdone : ∀ t ∈ tasks, ∃ result, t.result? = some result ∧ ∀ o, result ≠ .overflowed o) :
    (calls.map fun call => call.counted.endedWell).sum =
      ((tasks.filterMap Task.result?).filter Attempt.isOk).length ∧
    (calls.map fun call => call.counted.endedIll).sum +
      ((tasks.filterMap Task.result?).filter Attempt.isOk).length = tasks.length ∧
    (calls.map fun call => call.counted.begun).sum = tasks.length := by
  induction h with
  | nil => exact ⟨rfl, rfl, rfl⟩
  | @cons t call tasks calls hfirst hrest ih =>
    obtain ⟨result, hresult, hends⟩ := hdone t List.mem_cons_self
    obtain ⟨hsound, hwork⟩ := hcalls call List.mem_cons_self
    obtain ⟨hwell, hill, hbegun⟩ := hfirst.counts hsound hwork hresult hends
    obtain ⟨ihwell, ihill, ihbegun⟩ := ih (fun c hc => hcalls c (List.mem_cons_of_mem _ hc))
      (fun t' ht' => hdone t' (List.mem_cons_of_mem _ ht'))
    rw [List.filterMap_cons_some hresult]
    simp only [List.map_cons, List.sum_cons, List.length_cons, hwell, hill, hbegun, ihbegun]
    cases hok : result.isOk with
    | true =>
      rw [List.filter_cons_of_pos hok]
      simp only [if_true, List.length_cons]
      omega
    | false =>
      rw [List.filter_cons_of_neg (by rw [hok]; exact Bool.false_ne_true)]
      simp only [Bool.false_eq_true, if_false]
      omega

theorem exists_calls {requests : List (ExchangeId × WalletRequest)}
    (hwork : ∀ r ∈ requests, r.2.IsWork) (now : Nat) (w : Wallet) (events : List Event) :
    ∃ calls, ((start now w requests).run events).tasks.Forall₂ Task.Shows calls ∧
      (∀ call ∈ calls, call.Sound w.exchangeTimeout ∧ call.IsWork) ∧
      ∀ f, Metrics.IsAdditive f → f ((start now w requests).run events).wallet.metrics =
        f w.metrics + (calls.map fun call => f call.counted).sum := by
  have hstart : WalletOffice.Mirrors
      ⟨w.exchangeTimeout, w.metrics, (WalletOffice.opening w.exchangeTimeout requests).calls⟩
      (start now w requests) := ⟨rfl, rfl, WalletOffice.shows_start now w requests⟩
  obtain ⟨incidents, -, hmetrics, hshows⟩ := hstart.run events
  refine ⟨_, hshows, ?_, fun f hf => ?_⟩
  · refine WalletOffice.forall_calls_run (fun call h incident => ⟨h.1.step incident,
      h.2.step w.exchangeTimeout incident⟩) (fun call hcall => ?_) incidents
    obtain ⟨r, hr, rfl⟩ := List.mem_map.1 hcall
    exact ⟨trivial, hwork r hr⟩
  · have hrun := WalletOffice.metrics_run hf
      ⟨w.exchangeTimeout, w.metrics, (WalletOffice.opening w.exchangeTimeout requests).calls⟩
      incidents
    rwa [hmetrics, WalletOffice.sum_counted_opening hf, Nat.add_zero] at hrun

/-- When all requests of a session have ended, the counters have grown by their results. -/
theorem metrics_of_isDone {w : Wallet} {requests : List (ExchangeId × WalletRequest)}
    (hwork : ∀ r ∈ requests, r.2.IsWork) (now : Nat) (events : List Event)
    (hs : s = (start now w requests).run events) (hdone : s.IsDone) (hendures : s.Endures) :
    s.wallet.metrics.endedWell = w.metrics.endedWell + s.successes ∧
    s.wallet.metrics.endedIll + s.successes = w.metrics.endedIll + s.tasks.length ∧
    s.wallet.metrics.begun = w.metrics.begun + s.tasks.length := by
  obtain ⟨calls, hshows, hcalls, hgrow⟩ := exists_calls hwork now w events
  rw [← hs] at hshows hgrow
  obtain ⟨hwell, hill, hbegun⟩ := sum_counted hshows hcalls fun t ht => by
    obtain ⟨result, hresult⟩ := Option.isSome_iff_exists.1 (hdone t ht)
    refine ⟨result, hresult, fun o ho => ?_⟩
    subst ho
    exact hendures o (List.mem_filterMap.2 ⟨t, ht, hresult⟩)
  refine ⟨?_, ?_, ?_⟩
  · rw [hgrow _ .endedWell, hwell]
    rfl
  · rw [hgrow _ .endedIll, Nat.add_assoc, ← hill]
    rfl
  · rw [hgrow _ .begun, hbegun]

end Session

/-! ### Funding -/

def WalletRequest.isDeposit : WalletRequest → Bool
  | move .deposit _ _ _ => true
  | _ => false

def WalletRequest.IsFunding : WalletRequest → Prop
  | openAccounts _ | move .deposit _ _ _ => True
  | _ => False

/-- What has been paid in is counted, and nothing else. -/
structure Wallet.Funded (w w' : Wallet) (deposits : Nat) : Prop where
  metrics : w'.metrics = { w.metrics with deposits := w.metrics.deposits + deposits }
  ledger : ∃ calls, w'.ledger = w.ledger.run calls

namespace Wallet

variable {w w' w'' : Wallet}

theorem Funded.trans {m n : Nat} (h : w.Funded w' m) (h' : w'.Funded w'' n) :
    w.Funded w'' (m + n) := by
  obtain ⟨hmetrics, first, hfirst⟩ := h
  obtain ⟨hmetrics', second, hsecond⟩ := h'
  refine ⟨?_, first ++ second, ?_⟩
  · rw [hmetrics', hmetrics, Nat.add_assoc]
  · rw [hsecond, hfirst, Ledger.run_append]

theorem funded_openAccounts (w : Wallet) (now : Nat) (id : ExchangeId) (u : UserId) :
    w.Funded (w.perform now id (.openAccounts u)).1 0 := by
  unfold perform
  cases hcheck : (WalletRequest.openAccounts u).check with
  | error e => exact ⟨rfl, [], rfl⟩
  | ok admitted =>
    obtain rfl := WalletRequest.check_openAccounts hcheck
    exact ⟨rfl, [.openAccounts u], rfl⟩

theorem funded_deposit (now : Nat) (id : ExchangeId) (u : UserId) (c : Currency) (amount : Decimal)
    (hok : (w.perform now id (.move .deposit u c amount)).2.isOk = true) :
    w.Funded (w.perform now id (.move .deposit u c amount)).1 1 := by
  unfold perform at hok ⊢
  cases hcheck : (WalletRequest.move .deposit u c amount).check with
  | error e =>
    rw [hcheck] at hok
    cases hok
  | ok admitted =>
    obtain ⟨delta, rfl, -, -⟩ := WalletRequest.check_move hcheck
    rw [hcheck] at hok
    simp only [performAdmitted] at hok ⊢
    cases hreply : (w.call (.apply u c delta)).2 with
    | ok b => exact ⟨rfl, [.apply u c delta], rfl⟩
    | refused e =>
      rw [hreply] at hok
      cases hok
    | overflowed o =>
      rw [hreply] at hok
      cases hok

theorem funded_perform {request : WalletRequest} (h : request.IsFunding) (now : Nat)
    (id : ExchangeId) (hok : (w.perform now id request).2.isOk = true) :
    w.Funded (w.perform now id request).1 (if request.isDeposit then 1 else 0) := by
  cases request with
  | balance u => exact h.elim
  | openAccounts u => exact funded_openAccounts w now id u
  | move m u c amount =>
    cases m with
    | deposit => exact funded_deposit now id u c amount hok
    | withdraw => exact h.elim
  | exchange r => exact h.elim

end Wallet

namespace Simulation

variable {s : Simulation} {w w' : Wallet}

theorem funded_performAll {requests : List WalletRequest} (hfunding : ∀ r ∈ requests, r.IsFunding)
    (h : performAll w requests = (w', .ok ())) :
    w.Funded w' (requests.countP (·.isDeposit)) := by
  induction requests generalizing w with
  | nil =>
    cases h
    exact ⟨rfl, [], rfl⟩
  | cons request requests ih =>
    rw [performAll] at h
    split at h
    · rename_i next reply hperform
      have hfirst := Wallet.funded_perform (hfunding _ List.mem_cons_self) 0 (ExchangeId.make 0 0)
        (w := w) (by rw [hperform]; rfl)
      rw [hperform] at hfirst
      have hrest := ih (fun r hr => hfunding r (List.mem_cons_of_mem _ hr)) h
      rw [List.countP_cons, Nat.add_comm]
      exact hfirst.trans hrest
    · cases h
    · cases h

theorem isFunding_of_mem {u : UserId} {request : WalletRequest}
    (h : request ∈ s.fundingRequests u) : request.IsFunding := by
  obtain rfl | h := List.mem_cons.1 h
  · trivial
  · obtain ⟨c, -, rfl⟩ := List.mem_map.1 h
    trivial

theorem countP_fundingRequests (s : Simulation) (users : List UserId) :
    (users.flatMap s.fundingRequests).countP (·.isDeposit) =
      users.length * s.currencies.length := by
  induction users with
  | nil => rw [List.flatMap_nil, List.countP_nil, List.length_nil, Nat.zero_mul]
  | cons u users ih =>
    have hdeposits : (s.fundingRequests u).countP (·.isDeposit) = s.currencies.length := by
      rw [fundingRequests, List.countP_cons_of_neg Bool.false_ne_true, List.countP_map]
      exact congrFun List.countP_true _
    rw [List.flatMap_cons, List.countP_append, ih, hdeposits, List.length_cons, Nat.succ_mul,
      Nat.add_comm]

theorem funded_fund (h : s.fund w = (w', .ok ())) :
    w.Funded w' (s.config.userIds.length * s.currencies.length) := by
  rw [← countP_fundingRequests]
  refine funded_performAll (fun r hr => ?_) h
  obtain ⟨u, -, hu⟩ := List.mem_flatMap.1 hr
  exact isFunding_of_mem hu

end Simulation

/-! ### Reports -/

/-- A report agrees with itself: what it says of the tasks and what the counters say is the same,
the deposits of the funding apart. -/
structure SimulationReport.Consistent (r : SimulationReport) (s : Simulation) : Prop where
  operations : r.operations = s.config.users * s.config.operationsPerUser
  succeeded : r.succeeded + s.config.users * s.currencies.length =
    r.metrics.deposits + r.metrics.withdrawals + r.metrics.succeeded
  rejected : r.rejected = r.metrics.movementsFailed + r.metrics.failed
  begun : r.metrics.deposits + r.metrics.withdrawals + r.metrics.movementsFailed +
    r.metrics.started = r.operations + s.config.users * s.currencies.length
  negativeBalances : r.negativeBalances = 0

namespace Simulation

variable {s : Simulation} {w w₀ : Wallet} {plan : Plan}

/-- The plans of a simulation: each user gets so many operations, of any kinds and amounts. -/
def Plans (s : Simulation) (plan : Plan) : Prop :=
  plan.Deals (Operation.IsOffered s.currencies) s.config.operationsPerUser s.config.userIds

def requests (plan : Plan) : List (ExchangeId × WalletRequest) :=
  plan.zipIdx.map fun (entry, k) => (ExchangeId.make 0 k, entry.2.request entry.1)

theorem session_eq_start (w : Wallet) (plan : Plan) :
    session w plan = .start 0 w (requests plan) := by
  unfold session Session.start requests
  rw [List.map_map]
  rfl

theorem isWork_of_mem_requests (h : s.Plans plan) (hvalid : ∀ c ∈ s.currencies, c.IsValid)
    {r : ExchangeId × WalletRequest} (hr : r ∈ requests plan) : r.2.IsWork := by
  obtain ⟨⟨entry, k⟩, hentry, rfl⟩ := List.mem_map.1 hr
  obtain ⟨huser, hoffered⟩ := h.of_mem (List.fst_mem_of_mem_zipIdx hentry)
  exact hoffered.isWork hvalid (SimulationConfig.isValid_of_mem_userIds huser)

theorem length_tasks_session (w : Wallet) (plan : Plan) (events : List Session.Event) :
    ((session w plan).run events).tasks.length = plan.length := by
  rw [Session.length_tasks_run, session, List.length_map, List.length_zipIdx]

/-- The report on a funded wallet, when all tasks of a plan have ended. -/
theorem consistent_of_isDone {supported : List Currency} {events : List Session.Event}
    {done : Session} (hledger : w₀.ledger = .new supported) (hmetrics : w₀.metrics = .zero)
    (hfund : s.fund w₀ = (w, .ok ())) (hroom : s.config.hasRoom = true) (hplan : s.Plans plan)
    (hvalid : ∀ c ∈ s.currencies, c.IsValid) (hrun : done = (session w plan).run events)
    (hdone : done.IsDone) (hendures : done.Endures) : (s.report done).Consistent s := by
  obtain ⟨hfunded, calls, hcalls⟩ := funded_fund hfund
  rw [SimulationConfig.length_userIds hroom, hmetrics] at hfunded
  have hreach : w.ledger.Reachable := ⟨supported, calls, hledger ▸ hcalls⟩
  have hlength : done.tasks.length = s.config.users * s.config.operationsPerUser := by
    rw [hrun, length_tasks_session, hplan.length_eq, SimulationConfig.length_userIds hroom]
  have hnonneg : done.wallet.ledger.NonNegative := by
    rw [hrun]
    exact (Session.reachable_run hreach events).nonNegative
  rw [session_eq_start] at hrun
  obtain ⟨hwell, hill, hbegun⟩ := Session.metrics_of_isDone
    (fun r hr => isWork_of_mem_requests hplan hvalid hr) 0 events hrun hdone hendures
  have hwell₀ : w.metrics.endedWell = s.config.users * s.currencies.length := by
    rw [hfunded]
    exact Nat.zero_add _
  have hill₀ : w.metrics.endedIll = 0 := by
    rw [hfunded]
    rfl
  have hbegun₀ : w.metrics.begun = s.config.users * s.currencies.length := by
    rw [hfunded]
    exact Nat.zero_add _
  exact
    { operations := hlength
      succeeded := by
        change done.successes + _ = done.wallet.metrics.endedWell
        rw [hwell, hwell₀, Nat.add_comm]
      rejected := by
        change done.tasks.length - done.successes = done.wallet.metrics.endedIll
        omega
      begun := by
        change done.wallet.metrics.begun = done.tasks.length + _
        rw [hbegun, hbegun₀, Nat.add_comm]
      negativeBalances := Ledger.negativeCount_eq_zero hnonneg _ }

theorem live_run (w : Wallet) (plan : Plan) (events : List Session.Event) :
    ((session w plan).run events).Live := by
  rw [session_eq_start]
  exact (Session.live_start 0 w _).run events

theorem exists_run_runPlan (s : Simulation) (w : Wallet) (plan : Plan) (schedule : List Nat) :
    ∃ events done, done = (session w plan).run events ∧ done.IsDone ∧
      s.runPlan w plan schedule = (done.wallet, s.report done) := by
  obtain ⟨first, hfirst⟩ := (session w plan).exists_run_follow schedule
  obtain ⟨rest, hrest⟩ := ((session w plan).run first).exists_run_finish
  refine ⟨first ++ rest, _, rfl, ?_, ?_⟩
  · rw [Session.run_append, ← hrest]
    exact (live_run w plan first).isDone_finish
  · rw [Session.run_append, ← hrest, ← hfirst]
    rfl

/-- Whatever plan is followed in whatever order, the report agrees with itself if no task is broken
off; every order can be followed to its end; and what a simulation reports is the report on a plan
that has been followed to its end, unless there is no room for a plan. -/
theorem consistent_report {supported : List Currency} (htwo : 2 ≤ s.currencies.length)
    (hnodup : s.currencies.Nodup) (hvalid : ∀ c ∈ s.currencies, c.IsValid)
    (hledger : w₀.ledger = .new supported) (hmetrics : w₀.metrics = .zero)
    (hfund : s.fund w₀ = (w, .ok ())) :
    (∀ plan events done, s.config.hasRoom = true → s.Plans plan →
      done = (session w plan).run events → done.IsDone → done.Endures →
      (s.report done).Consistent s) ∧
    (∀ plan events, ∃ more, ((session w plan).run (events ++ more)).IsDone) ∧
    ∀ d, s.config.hasRoom = false ∧ s.run w d = .error .noRoom ∨
      s.config.hasRoom = true ∧ ∃ plan events done, s.Plans plan ∧
        done = (session w plan).run events ∧ done.IsDone ∧
        s.run w d = .ok (done.wallet, s.report done) := by
  refine ⟨?_, ?_, ?_⟩
  · intro plan events done hroom hplan hrun hdone hendures
    exact consistent_of_isDone hledger hmetrics hfund hroom hplan hvalid hrun hdone hendures
  · intro plan events
    obtain ⟨more, hmore⟩ := ((session w plan).run events).exists_run_finish
    refine ⟨more, ?_⟩
    rw [Session.run_append, ← hmore]
    exact (live_run w plan events).isDone_finish
  · intro d
    have hmany : ¬ s.currencies.length < 2 := by omega
    unfold run
    rw [if_neg hmany]
    cases hroom : s.config.hasRoom with
    | false => exact Or.inl ⟨rfl, rfl⟩
    | true =>
      refine Or.inr ⟨rfl, ?_⟩
      obtain ⟨events, done, hrun, hdone, hreport⟩ := s.exists_run_runPlan w _ _
      refine ⟨_, events, done, ?_, hrun, hdone, congrArg Except.ok hreport⟩
      exact Plan.deals_random htwo hnodup _ _ d

def oneUser : Simulation := ⟨⟨1, 2, .small 10 0, none⟩, [.usd, .eur]⟩

def twoOperations : List Operation :=
  [.exchange .usd .eur (.small 5 0), .deposit .usd (.small 1 0)]

def interleaved : List Session.Event :=
  [.move 0 .begin, .move 0 .fund, .move 1 .begin, .move 0 .serveRate, .move 0 .join]

theorem consistent_report_oneUser :
    ∃ w plan done, oneUser.fund Session.newWallet = (w, .ok ()) ∧ oneUser.Plans plan ∧
      done = (session w plan).run interleaved ∧ (oneUser.report done).Consistent oneUser ∧
      (oneUser.report done).succeeded = 1 ∧ (oneUser.report done).metrics.deposits = 3 ∧
      (oneUser.report done).rejected = 1 ∧ (oneUser.report done).metrics.rateFailed = 1 := by
  have hfund : oneUser.fund Session.newWallet = ((oneUser.fund Session.newWallet).1, .ok ()) := rfl
  have hplan : oneUser.Plans (twoOperations.map (⟨1⟩, ·) ++ []) :=
    .cons rfl (by decide +kernel) .nil
  obtain ⟨done, hrun⟩ : ∃ done, done = (session (oneUser.fund Session.newWallet).1
      (twoOperations.map (⟨1⟩, ·) ++ [])).run interleaved := ⟨_, rfl⟩
  have hdone : done.IsDone := by
    rw [hrun]
    unfold Session.IsDone
    decide +kernel
  have hendures : done.Endures := by
    obtain ⟨error, balances, hresults⟩ : ∃ error balances,
        done.results = [.refused error, .ok balances] := by
      rw [hrun]
      exact ⟨_, _, rfl⟩
    intro o ho
    rw [hresults] at ho
    simp at ho
  have hconsistent := (consistent_report (by decide +kernel) (by decide +kernel)
    (by decide +kernel) rfl rfl hfund).1 _ interleaved done rfl hplan hrun hdone hendures
  refine ⟨_, _, done, hfund, hplan, hrun, hconsistent, ?_⟩
  rw [hrun]
  decide +kernel

end Simulation

end CurrencyWallet

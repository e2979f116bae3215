import CurrencyWallet.Proofs.Scenario.Jobs
import CurrencyWallet.Scenario.Setting
import Mathlib.Algebra.Order.BigOperators.Group.List

/-!
The turns that a world and an activity take, until nothing is left to be done. An activity that
has begun what it wants takes no part in the search for rates: it waits, and then it is over.
-/
namespace CurrencyWallet.Scenario

/-- A world and an activity after so many turns, or after the last one if there are fewer. -/
def follow : Nat → World → Activity → World × Activity
  | 0, w, a => (w, a)
  | turns + 1, w, a =>
    match turn w a with
    | some (w, a) => follow turns w a
    | none => (w, a)

def World.after (w : World) (action : Action) (turns : Nat) : World × Activity :=
  follow turns (w.begin action).1 (.waiting (w.begin action).2)

inductive Turn (w : World) (a : Activity) : World → Activity → Prop
  | polled {w' : World} {a' : Activity} (hpoll : a.poll w = (true, w', a')) : Turn w a w' a'
  | worked (hpoll : (a.poll w).1 = false) (hmoved : w.runJobs.1 = true) : Turn w a w.runJobs.2 a
  | passed {now : Nat} (hpoll : (a.poll w).1 = false) (hmoved : w.runJobs.1 = false)
    (hnext : nextMoment? w a = some now) : Turn w a { w with now } a

variable {w w' : World} {a a' : Activity} {now : Nat}

theorem turn_eq (w : World) (a : Activity) :
    turn w a =
      if (a.poll w).1 then some (a.poll w).2
      else if w.runJobs.1 then some (w.runJobs.2, a)
      else (nextMoment? w a).map fun now => ({ w with now }, a) := by
  unfold turn
  obtain ⟨polled, next⟩ := a.poll w
  cases polled with
  | true => rfl
  | false =>
    obtain ⟨moved, next⟩ := w.runJobs
    cases moved <;> rfl

theorem turn_of_polled (hpoll : a.poll w = (true, w', a')) : turn w a = some (w', a') := by
  simp [turn_eq, hpoll]

theorem turn_of_moved (hpoll : (a.poll w).1 = false) (hmoved : w.runJobs.1 = true) :
    turn w a = some (w.runJobs.2, a) := by
  simp [turn_eq, hpoll, hmoved]

theorem turn_of_waiting (hpoll : (a.poll w).1 = false) (hmoved : w.runJobs.1 = false) :
    turn w a = (nextMoment? w a).map fun now => ({ w with now }, a) := by
  simp [turn_eq, hpoll, hmoved]

theorem turn_cases (h : turn w a = some (w', a')) : Turn w a w' a' := by
  rw [turn_eq] at h
  split at h
  · rename_i hpoll
    exact .polled (Prod.ext hpoll (Option.some.inj h))
  · rename_i hpoll
    split at h
    · rename_i hmoved
      cases h
      exact .worked (Bool.eq_false_of_not_eq_true hpoll) hmoved
    · rename_i hmoved
      obtain ⟨now, hnext, hlater⟩ := Option.map_eq_some_iff.1 h
      cases hlater
      exact .passed (Bool.eq_false_of_not_eq_true hpoll) (Bool.eq_false_of_not_eq_true hmoved) hnext

theorem turn_eq_none (h : turn w a = none) : w.runJobs.1 = false ∧ nextMoment? w a = none := by
  rw [turn_eq] at h
  split at h
  · cases h
  · split at h
    · cases h
    · rename_i hmoved
      exact ⟨Bool.eq_false_of_not_eq_true hmoved, Option.map_eq_none_iff.1 h⟩

theorem follow_of_turn (h : turn w a = some (w', a')) (turns : Nat) :
    follow (turns + 1) w a = follow turns w' a' := by
  simp only [follow, h]

theorem follow_of_none (h : turn w a = none) (turns : Nat) : follow turns w a = (w, a) := by
  cases turns with
  | zero => rfl
  | succ turns => simp only [follow, h]

/-! ### The next moment -/

theorem nextMoment?_eq_some (h : nextMoment? w a = some now) :
    w.now < now ∧ (now ∈ a.dues ∨ ∃ j ∈ w.jobs, j.2.due? = some now) ∧
      ∀ due, due ∈ a.dues ∨ (∃ j ∈ w.jobs, j.2.due? = some due) → w.now < due → now ≤ due := by
  obtain ⟨hmem, hleast⟩ := List.min?_eq_some_iff.1 h
  simp only [List.mem_filter, List.mem_append, List.mem_filterMap, decide_eq_true_eq] at hmem hleast
  exact ⟨hmem.2, hmem.1, fun due hdue hlater => hleast due ⟨hdue, hlater⟩⟩

theorem nextMoment?_eq_none (h : nextMoment? w a = none) :
    ∀ due, due ∈ a.dues ∨ (∃ j ∈ w.jobs, j.2.due? = some due) → due ≤ w.now := by
  intro due hdue
  have hnone := List.min?_eq_none_iff.1 h
  refine Nat.not_lt.1 fun hlater => ?_
  have hmem : due ∈ (a.dues ++ w.jobs.filterMap (·.2.due?)).filter (w.now < ·) := by
    simp only [List.mem_filter, List.mem_append, List.mem_filterMap, decide_eq_true_eq]
    exact ⟨hdue, hlater⟩
  rw [hnone] at hmem
  cases hmem

theorem isQuiet_of_rest (hmoved : w.runJobs.1 = false) (hrest : nextMoment? w a = none) :
    w.IsQuiet := by
  intro j hj
  obtain hfinished | ⟨due, hdue, hlater⟩ :=
    RateJob.isFinished_or_of_isWaiting (World.runJobs_eq_false.1 hmoved j hj)
  · exact hfinished
  · have hpast := nextMoment?_eq_none hrest due (Or.inr ⟨j, hj, hdue⟩)
    omega

/-! ### Activities that have begun -/

def Activity.HasBegun : Activity → Prop
  | .waiting _ | .finished _ => True
  | _ => False

theorem Activity.HasBegun.of_waiting (wait : Wait) : HasBegun (.waiting wait) := trivial

theorem LiveExchange.carryOut_frame (w : World) (run : ExchangeRun) :
    ∃ vault, (carryOut w run).1 = { w with vault } := by
  simp only [carryOut]
  split
  · exact ⟨w.vault, rfl⟩
  · exact ⟨_, rfl⟩

theorem LiveExchange.poll_eq (w : World) (e : LiveExchange) :
    let carried := carryOut w (e.run.step (.looked (e.view w)))
    e.poll w = carried.2.result?.map fun result =>
      (carried.1.record (Wallet.exchangeEvent? result), outcomeAnswer e.byWallet result) :=
  rfl

theorem Wait.poll_frame {wait : Wait} {answer : Answer} (h : wait.poll w = some (w', answer)) :
    ∃ vault metrics, w' = { w with vault, metrics } := by
  cases wait with
  | answer due event? a =>
    simp only [Wait.poll] at h
    split at h
    · cases h
      exact ⟨w.vault, _, rfl⟩
    · cases h
  | rate job finished =>
    obtain ⟨r, -, h⟩ := Option.bind_eq_some_iff.1 h
    split at h
    · cases h
    · cases h
      exact ⟨w.vault, w.metrics, rfl⟩
  | quote due pair =>
    simp only [Wait.poll] at h
    split at h
    · cases h
      exact ⟨w.vault, w.metrics, rfl⟩
    · cases h
  | exchange live =>
    obtain ⟨vault, hvault⟩ :=
      LiveExchange.carryOut_frame w (live.run.step (.looked (live.view w)))
    rw [Wait.poll, LiveExchange.poll_eq, hvault] at h
    obtain ⟨result, -, h⟩ := Option.map_eq_some_iff.1 h
    cases h
    exact ⟨vault, _, rfl⟩

theorem Activity.HasBegun.poll (h : a.HasBegun) (hpoll : a.poll w = (true, w', a')) :
    ∃ wait answer vault metrics, a = .waiting wait ∧ a' = .finished answer ∧
      w' = { w with vault, metrics } := by
  match a, h with
  | .waiting wait, _ =>
    simp only [Activity.poll] at hpoll
    split at hpoll
    · cases hpoll
    · rename_i hwait
      cases hpoll
      obtain ⟨vault, metrics, hframe⟩ := Wait.poll_frame hwait
      exact ⟨wait, _, vault, metrics, rfl, rfl, hframe⟩
  | .finished answer, _ => cases hpoll

theorem Activity.HasBegun.turn (h : a.HasBegun) (hturn : turn w a = some (w', a')) :
    a'.HasBegun := by
  cases turn_cases hturn with
  | polled hpoll =>
    obtain ⟨wait, answer, vault, metrics, -, rfl, -⟩ := h.poll hpoll
    trivial
  | worked => exact h
  | passed => exact h

/-! ### The worlds of a script -/

namespace World

theorem IsOrderly.append (h : w.IsOrderly) (h' : w'.jobs = w.jobs ∨
    ∃ side policy pair, w'.jobs = w.jobs ++ [(side, .start policy pair)]) : w'.IsOrderly := by
  obtain hsame | ⟨side, policy, pair, hmore⟩ := h'
  · intro j hj
    exact h j (hsame ▸ hj)
  · intro j hj
    rw [hmore, List.mem_append, List.mem_singleton] at hj
    obtain hj | rfl := hj
    · exact h j hj
    · exact RateJob.isOrderly_start policy pair

theorem jobs_changeService (w : World) (f : ScriptedService → ScriptedService) :
    (w.changeService f).1.jobs = w.jobs := by
  unfold changeService
  split <;> rfl

theorem jobs_beginQuote (w : World) (pair : CurrencyPair) :
    (w.beginQuote pair).1.jobs = w.jobs := by
  simp only [beginQuote]
  split <;> rfl

theorem jobs_beginChecked (w : World) (checked : Except LedgerError Ledger.Call) :
    (w.beginChecked checked).1.jobs = w.jobs := by
  unfold beginChecked
  split <;> rfl

theorem jobs_beginRemote {f : RemoteLedger → World × Wait}
    (hf : ∀ r, w.vault.remote? = some r → (f r).1.jobs = w.jobs) :
    (w.beginRemote f).1.jobs = w.jobs := by
  unfold beginRemote
  split
  · rfl
  · rename_i r hremote
    exact hf r hremote

theorem jobs_beginWallet (w : World) (request : WalletRequest) :
    (w.beginWallet request).1.jobs = w.jobs ∨
    ∃ side policy pair,
      (w.beginWallet request).1.jobs = w.jobs ++ [(side, .start policy pair)] := by
  simp only [beginWallet]
  split
  · exact Or.inl rfl
  · exact Or.inl rfl
  · exact Or.inl rfl
  · split
    · exact Or.inr ⟨_, _, _, rfl⟩
    · exact Or.inl rfl

theorem jobs_begin (w : World) (action : Action) :
    (w.begin action).1.jobs = w.jobs ∨
    ∃ side policy pair, (w.begin action).1.jobs = w.jobs ++ [(side, .start policy pair)] := by
  cases action with
  | wallet request => exact w.jobs_beginWallet request
  | execute | resolve | finish | spawnDropped | spawn => exact Or.inr ⟨_, _, _, rfl⟩
  | apply | move => exact Or.inl (w.jobs_beginChecked _)
  | migrate | closePool => exact Or.inl (w.jobs_beginRemote fun _ _ => rfl)
  | await ticket finished =>
    simp only [begin]
    split <;> exact Or.inl rfl
  | quote pair => exact Or.inl (w.jobs_beginQuote pair)
  | setRate | failWith | setDelay => exact Or.inl (w.jobs_changeService _)
  | _ => exact Or.inl rfl

theorem IsOrderly.begin (h : w.IsOrderly) (action : Action) : (w.begin action).1.IsOrderly :=
  h.append (w.jobs_begin action)

end World

theorem World.IsOrderly.poll (h : w.IsOrderly) (a : Activity) : (a.poll w).2.1.IsOrderly := by
  induction a generalizing w with
  | idle => exact h
  | finished answer => exact h
  | scheduled due step =>
    simp only [Activity.poll]
    split
    · cases step with
      | step startAt action beside =>
        simp only [Activity.start]
        split
        · exact h.begin action
        · exact h.begin action
    · exact h
  | waiting wait =>
    simp only [Activity.poll]
    split
    · exact h
    · rename_i hwait
      obtain ⟨vault, metrics, rfl⟩ := Wait.poll_frame hwait
      exact h
  | together main answers current rest since ihmain ihcurrent =>
    simp only [Activity.poll]
    split <;> exact ihcurrent (ihmain h)

theorem World.IsOrderly.turn (h : w.IsOrderly) (hturn : turn w a = some (w', a')) :
    w'.IsOrderly := by
  cases turn_cases hturn with
  | polled hpoll =>
    have hpolled := h.poll a
    rwa [hpoll] at hpolled
  | worked hpoll hmoved => exact h.runJobs.1
  | passed hpoll hmoved hnext => exact h

theorem World.IsOrderly.runTurns (h : w.IsOrderly) (turns : Nat) (a : Activity) :
    (runTurns turns w a).1.IsOrderly := by
  induction turns generalizing w a with
  | zero => exact h
  | succ turns ih =>
    simp only [Scenario.runTurns]
    split
    · exact h
    · split
      · exact h
      · rename_i hturn
        exact ih (h.turn hturn) _

theorem World.IsOrderly.runStep (h : w.IsOrderly) (turns : Nat) (s : Step) :
    (runStep turns w s).1.IsOrderly :=
  (h.runTurns turns _).runJobs.1

theorem Setting.isOrderly_world (s : Setting) : s.world.IsOrderly :=
  fun _ hj => absurd hj List.not_mem_nil

/-! ### What is left to be done -/

def ahead (now : Nat) (dues : List Nat) : Nat :=
  (dues.map fun due => if now < due then 1 else 0).sum

/-- What is still to be done: by the jobs, and by the activity for each moment that it looks out
for, and once more for its end. -/
def workLeft (w : World) (a : Activity) : Nat :=
  w.workLeft + (ahead w.now a.dues + if a.answer?.isNone then 1 else 0)

theorem workLeft_passed (hnext : nextMoment? w a = some now) :
    workLeft { w with now } a < workLeft w a := by
  obtain ⟨hlater, hdue, -⟩ := nextMoment?_eq_some hnext
  have hjobs : ∀ j ∈ w.jobs, j.2.workLeft now ≤ j.2.workLeft w.now :=
    fun j _ => j.2.workLeft_mono (Nat.le_of_lt hlater)
  have hdues : ∀ due ∈ a.dues, (if now < due then 1 else 0) ≤ if w.now < due then 1 else 0 := by
    intro due _
    split <;> split <;> omega
  unfold workLeft World.workLeft ahead
  dsimp only
  obtain hown | ⟨j, hj, hdue⟩ := hdue
  · have hless := List.sum_lt_sum _ _ hdues ⟨now, hown, by simp [hlater]⟩
    have hle := List.sum_le_sum hjobs
    omega
  · have hless := List.sum_lt_sum _ _ hjobs ⟨j, hj, RateJob.workLeft_lt hdue hlater⟩
    have hle := List.sum_le_sum hdues
    omega

theorem workLeft_turn (hw : w.IsOrderly) (ha : a.HasBegun) (h : turn w a = some (w', a')) :
    workLeft w' a' < workLeft w a := by
  cases turn_cases h with
  | polled hpoll =>
    obtain ⟨wait, answer, vault, metrics, rfl, rfl, rfl⟩ := ha.poll hpoll
    simp [workLeft, World.workLeft, ahead, Activity.dues, Activity.answer?]
  | worked hpoll hmoved =>
    have hless := hw.runJobs.2 hmoved
    simp only [workLeft, World.now_runJobs]
    omega
  | passed hpoll hmoved hnext => exact workLeft_passed hnext

theorem now_le_of_turn (ha : a.HasBegun) (h : turn w a = some (w', a')) : w.now ≤ w'.now := by
  cases turn_cases h with
  | polled hpoll =>
    obtain ⟨-, -, vault, metrics, -, -, rfl⟩ := ha.poll hpoll
    exact Nat.le_refl _
  | worked hpoll hmoved => rw [World.now_runJobs]
  | passed hpoll hmoved hnext => exact Nat.le_of_lt (nextMoment?_eq_some hnext).1

theorem length_jobs_of_turn (ha : a.HasBegun) (h : turn w a = some (w', a')) :
    w'.jobs.length = w.jobs.length := by
  cases turn_cases h with
  | polled hpoll =>
    obtain ⟨-, -, vault, metrics, -, -, rfl⟩ := ha.poll hpoll
    rfl
  | worked hpoll hmoved => exact World.length_jobs_runJobs w
  | passed hpoll hmoved hnext => rfl

theorem getElem?_jobs_of_turn (ha : a.HasBegun) (h : turn w a = some (w', a')) {i : Nat}
    {job : Side × RateJob} (hi : w.jobs[i]? = some job) (hfinished : job.2.isFinished = true) :
    w'.jobs[i]? = some job := by
  cases turn_cases h with
  | polled hpoll =>
    obtain ⟨-, -, vault, metrics, -, -, rfl⟩ := ha.poll hpoll
    exact hi
  | worked hpoll hmoved =>
    exact World.getElem?_jobs_runJobs hi (RateJob.isWaiting_of_isFinished hfinished w.now)
  | passed hpoll hmoved hnext => exact hi

/-! ### Many turns -/

theorem follow_induction {P : World → Activity → Prop}
    (hturn : ∀ w a w' a', P w a → turn w a = some (w', a') → P w' a') (turns : Nat)
    (h : P w a) : P (follow turns w a).1 (follow turns w a).2 := by
  induction turns generalizing w a with
  | zero => exact h
  | succ turns ih =>
    cases hnext : turn w a with
    | none => rwa [follow_of_none hnext]
    | some next =>
      rw [follow_of_turn hnext]
      exact ih (hturn _ _ _ _ h hnext)

theorem follow_add (m n : Nat) (w : World) (a : Activity) :
    follow (m + n) w a = follow n (follow m w a).1 (follow m w a).2 := by
  induction m generalizing w a with
  | zero => rw [Nat.zero_add, follow]
  | succ m ih =>
    cases hnext : turn w a with
    | none => rw [follow_of_none hnext, follow_of_none hnext, follow_of_none hnext]
    | some next => rw [Nat.succ_add, follow_of_turn hnext, follow_of_turn hnext, ih]

theorem follow_begun (ha : a.HasBegun) (turns : Nat) : (follow turns w a).2.HasBegun :=
  follow_induction (P := fun _ a => a.HasBegun) (fun _ _ _ _ h => h.turn) turns ha

theorem follow_keeps {P : World → Prop}
    (hturn : ∀ w a w' a', a.HasBegun → turn w a = some (w', a') → P w → P w')
    (ha : a.HasBegun) (turns : Nat) (h : P w) : P (follow turns w a).1 := by
  have hboth := follow_induction (P := fun v b => b.HasBegun ∧ P v)
    (fun _ _ _ _ h hnext => ⟨h.1.turn hnext, hturn _ _ _ _ h.1 hnext h.2⟩) turns ⟨ha, h⟩
  exact hboth.2

theorem now_le_follow (ha : a.HasBegun) (turns : Nat) : w.now ≤ (follow turns w a).1.now :=
  follow_keeps (P := fun v => w.now ≤ v.now)
    (fun _ _ _ _ hb hturn h => Nat.le_trans h (now_le_of_turn hb hturn)) ha turns (Nat.le_refl _)

theorem now_follow_mono (ha : a.HasBegun) {m n : Nat} (h : m ≤ n) :
    (follow m w a).1.now ≤ (follow n w a).1.now := by
  obtain ⟨k, rfl⟩ := Nat.exists_eq_add_of_le h
  rw [follow_add]
  exact now_le_follow (follow_begun ha m) k

theorem length_jobs_follow (ha : a.HasBegun) (turns : Nat) :
    (follow turns w a).1.jobs.length = w.jobs.length :=
  follow_keeps (P := fun v => v.jobs.length = w.jobs.length)
    (fun _ _ _ _ hb hturn h => (length_jobs_of_turn hb hturn).trans h) ha turns rfl

theorem getElem?_jobs_follow (ha : a.HasBegun) (turns : Nat) {i : Nat} {job : Side × RateJob}
    (hi : w.jobs[i]? = some job) (hfinished : job.2.isFinished = true) :
    (follow turns w a).1.jobs[i]? = some job :=
  follow_keeps (P := fun v => v.jobs[i]? = some job)
    (fun _ _ _ _ hb hturn h => getElem?_jobs_of_turn hb hturn h hfinished) ha turns hi

theorem follow_finished (turns : Nat) (w : World) (answer : Answer) :
    (follow turns w (.finished answer)).2 = .finished answer := by
  refine follow_induction (P := fun _ a => a = .finished answer) ?_ turns rfl
  intro w a w' a' h hturn
  subst h
  cases turn_cases hturn with
  | polled hpoll => cases hpoll
  | worked => rfl
  | passed => rfl

theorem vault_follow_finished (turns : Nat) (w : World) (answer : Answer) :
    (follow turns w (.finished answer)).1.vault = w.vault := by
  have hboth := follow_induction
    (P := fun v b => b = .finished answer ∧ v.vault = w.vault) ?_ turns ⟨rfl, rfl⟩
  · exact hboth.2
  · intro v a v' a' h hturn
    obtain ⟨rfl, hvault⟩ := h
    cases turn_cases hturn with
    | polled hpoll => cases hpoll
    | worked => exact ⟨rfl, (World.vault_runJobs v).trans hvault⟩
    | passed => exact ⟨rfl, hvault⟩

theorem exists_rest (hw : w.IsOrderly) (ha : a.HasBegun) :
    ∃ turns, (follow turns w a).1.IsOrderly ∧
      turn (follow turns w a).1 (follow turns w a).2 = none := by
  induction hwork : workLeft w a using Nat.strongRecOn generalizing w a with
  | ind work ih =>
    cases hturn : turn w a with
    | none => exact ⟨0, hw, hturn⟩
    | some next =>
      obtain ⟨w', a'⟩ := next
      have hless := workLeft_turn hw ha hturn
      obtain ⟨turns, hrest⟩ := ih _ (hwork ▸ hless) (hw.turn hturn) (ha.turn hturn) rfl
      exact ⟨turns + 1, by rwa [follow_of_turn hturn]⟩

theorem exists_quiet (hw : w.IsOrderly) (ha : a.HasBegun) :
    ∃ turns, (follow turns w a).1.IsOrderly ∧ (follow turns w a).1.IsQuiet := by
  obtain ⟨turns, hlast, hnone⟩ := exists_rest hw ha
  obtain ⟨hmoved, hrest⟩ := turn_eq_none hnone
  exact ⟨turns, hlast, isQuiet_of_rest hmoved hrest⟩

theorem runTurns_of_follow {turns : Nat} {answer : Answer} (ha : a.HasBegun)
    (h : (follow turns w a).2 = .finished answer) (more : Nat) :
    (runTurns (turns + more + 1) w a).2 = answer := by
  induction turns generalizing w a with
  | zero =>
    obtain rfl : a = .finished answer := h
    rfl
  | succ turns ih =>
    match a, ha with
    | .finished other, _ =>
      rw [follow_finished] at h
      cases h
      rfl
    | .waiting wait, ha =>
      cases hturn : turn w (.waiting wait) with
      | none =>
        rw [follow_of_none hturn] at h
        cases h
      | some next =>
        obtain ⟨w', a'⟩ := next
        rw [follow_of_turn hturn] at h
        have hrest := ih (ha.turn hturn) h
        rw [show turns + 1 + more + 1 = (turns + more + 1) + 1 by omega]
        simpa only [runTurns, Activity.answer?, hturn] using hrest

end CurrencyWallet.Scenario

import CurrencyWallet.Proofs.Ledger.Serialization
import CurrencyWallet.Proofs.Lists

/-!
Nobody waits for ever. A locked row belongs to a worker that still needs it, and a worker locks its
rows in ascending order of their codes; so whoever is held up by the last of the rows that are
waited for is held up by a worker that can step. Every step leaves less to do, wherever the call is
refused or broken off: any crew can be taken to its end, and then no row is locked.
-/
namespace CurrencyWallet.Ledger

/-! ### Who holds a row, and who waits for one -/

def Phase.Holds (call : Call) (c : Currency) : Phase → Prop
  | .locking wanted => ∃ held, call.rows = held ++ wanted ∧ c ∈ held
  | .holding | .computed _ | .releasing _ => c ∈ call.rows
  | .ready | .finished _ => False

def Phase.wanted? : Phase → Option Currency
  | .locking (c :: _) => some c
  | _ => none

theorem pairwise_rows {l : Ledger} {call : Call} (h : l.screen call = .ok ()) :
    call.rows.Pairwise (· < ·) := by
  cases call with
  | openAccounts u => exact List.Pairwise.nil
  | balances u => exact List.Pairwise.nil
  | apply u c delta => exact List.pairwise_singleton _ _
  | settle s =>
    obtain ⟨hvalid, -⟩ := screen_settle_eq_ok.1 h
    have hdistinct := (Settlement.validate_eq_ok.1 hvalid).1
    exact List.pairwise_map.2 (Settlement.pairwise_lockOrder hdistinct)

section Step

variable {s s' : Shared} {i : Nat} {call : Call} {phase phase' : Phase}

theorem Shared.Supports.lt_of_holds (h : s.Supports i call phase) {c d : Currency}
    (hholds : phase.Holds call c) (hwanted : phase.wanted? = some d) : c < d := by
  cases phase with
  | locking wanted =>
    cases wanted with
    | nil => cases hwanted
    | cons x wanted =>
      cases hwanted
      obtain ⟨_, _, hsecures⟩ := h
      obtain ⟨held, hrows, hc⟩ := hholds
      have hascending := pairwise_rows hsecures.screened
      rw [hrows] at hascending
      exact (List.pairwise_append.1 hascending).2.2 c hc d List.mem_cons_self
  | _ => cases hwanted

theorem Shared.stuck_cases (h : s.step i call phase = none) :
    (∃ reply, phase = .finished reply) ∨ ∃ c lock, phase.wanted? = some c ∧
      lock ∈ s.locks ∧ lock.user = call.user ∧ lock.currency = c := by
  cases phase with
  | ready =>
    cases call with
    | openAccounts u => cases h
    | balances u => cases h
    | apply u c delta =>
      simp only [step] at h
      split at h <;> cases h
    | settle x =>
      simp only [step] at h
      split at h <;> cases h
  | locking wanted =>
    cases wanted with
    | nil => cases h
    | cons c wanted =>
      simp only [step] at h
      split at h
      · split at h
        · rename_i holder hholder
          obtain ⟨lock, hfind, -⟩ := Option.map_eq_some_iff.1 hholder
          have hkey := List.find?_some hfind
          simp only [decide_eq_true_eq] at hkey
          exact Or.inr ⟨c, lock, rfl, List.mem_of_find?_eq_some hfind, hkey.1, hkey.2⟩
        · cases h
      · cases h
  | holding =>
    simp only [step] at h
    split at h
    · cases h
    · cases h
    · split at h <;> cases h
  | computed revision => cases h
  | releasing reply => cases h
  | finished reply => exact Or.inl ⟨reply, rfl⟩

theorem Phase.Holds.mem_rows {c : Currency} (h : phase.Holds call c) : c ∈ call.rows := by
  cases phase with
  | ready | finished reply => cases h
  | locking wanted =>
    obtain ⟨held, hrows, hc⟩ := h
    rw [hrows]
    exact List.mem_append_left _ hc
  | holding | computed revision | releasing reply => exact h

inductive Shared.LockStep (s : Shared) (i : Nat) (call : Call) : Phase → List Lock → Phase → Prop
  | answered (reply : Reply) : LockStep s i call .ready s.locks (.finished reply)
  | screened : LockStep s i call .ready s.locks (.locking call.rows)
  | complete : LockStep s i call (.locking []) s.locks .holding
  | missing (c : Currency) (wanted : List Currency) (reply : Reply) :
    LockStep s i call (.locking (c :: wanted)) s.locks (.releasing reply)
  | acquired (c : Currency) (wanted : List Currency) :
    LockStep s i call (.locking (c :: wanted)) (⟨call.user, c, i⟩ :: s.locks)
      (if wanted.isEmpty then .holding else .locking wanted)
  | computed (revision : Revision) : LockStep s i call .holding s.locks (.computed revision)
  | ended (reply : Reply) : LockStep s i call .holding s.locks (.releasing reply)
  | written (revision : Revision) (reply : Reply) :
    LockStep s i call (.computed revision) s.locks (.releasing reply)
  | released (reply : Reply) :
    LockStep s i call (.releasing reply) (s.release i).locks (.finished reply)

theorem Shared.lockStep (h : s.step i call phase = some (s', phase')) :
    s.LockStep i call phase s'.locks phase' := by
  cases phase with
  | ready =>
    cases call with
    | openAccounts u => cases h; exact .answered _
    | balances u => cases h; exact .answered _
    | apply u c delta =>
      simp only [step] at h
      split at h
      · cases h; exact .answered _
      · cases h; exact .screened
    | settle x =>
      simp only [step] at h
      split at h
      · cases h; exact .answered _
      · cases h; exact .screened
  | locking wanted =>
    cases wanted with
    | nil => cases h; exact .complete
    | cons c wanted =>
      simp only [step] at h
      split at h
      · split at h
        · cases h
        · cases h; exact .acquired c wanted
      · cases h; exact .missing c wanted _
  | holding =>
    simp only [step] at h
    split at h
    · cases h; exact .ended _
    · cases h; exact .ended _
    · split at h
      · cases h; exact .ended _
      · cases h; exact .computed _
  | computed revision => cases h; exact .written revision _
  | releasing reply => cases h; exact .released reply
  | finished reply => cases h

theorem Shared.LockStep.mem_locks {locks : List Lock} (h : s.LockStep i call phase locks phase')
    {lock : Lock} (hlock : lock ∈ locks) (hne : lock.holder ≠ i) : lock ∈ s.locks := by
  cases h with
  | acquired c wanted =>
    obtain rfl | hlock := List.mem_cons.1 hlock
    · exact absurd rfl hne
    · exact hlock
  | released reply => exact List.mem_of_mem_filter hlock
  | _ => exact hlock

def Shared.Needs (s : Shared) (i : Nat) (call : Call) (phase : Phase) : Prop :=
  ∀ lock ∈ s.locks, lock.holder = i → lock.user = call.user ∧ phase.Holds call lock.currency

theorem Phase.holds_acquired {held wanted : List Currency} {c d : Currency}
    (hrows : call.rows = held ++ c :: wanted) (hd : d ∈ held ++ [c]) :
    (if wanted.isEmpty then Phase.holding else .locking wanted).Holds call d := by
  split
  · rename_i hlast
    rw [List.isEmpty_iff] at hlast
    rw [Holds, hrows, hlast]
    exact hd
  · exact ⟨held ++ [c], by rw [hrows, List.append_assoc]; rfl, hd⟩

theorem Shared.LockStep.needs {locks : List Lock} (h : s.LockStep i call phase locks phase')
    (hneeds : s.Needs i call phase) (hsupports : s.Supports i call phase) {lock : Lock}
    (hlock : lock ∈ locks) (hholder : lock.holder = i) :
    lock.user = call.user ∧ phase'.Holds call lock.currency := by
  cases h with
  | acquired c wanted =>
    obtain rfl | hlock := List.mem_cons.1 hlock
    · obtain ⟨held, hrows, -⟩ := hsupports
      exact ⟨rfl, Phase.holds_acquired hrows (List.mem_append_right _ (List.mem_singleton_self c))⟩
    · obtain ⟨huser, held, hrows, hmem⟩ := hneeds lock hlock hholder
      exact ⟨huser, Phase.holds_acquired hrows (List.mem_append_left _ hmem)⟩
  | released reply =>
    have hother := (List.mem_filter.1 hlock).2
    simp only [decide_eq_true_eq] at hother
    exact absurd hholder hother
  | answered reply => exact (hneeds lock hlock hholder).2.elim
  | screened => exact (hneeds lock hlock hholder).2.elim
  | _ => exact (hneeds lock hlock hholder).imp_right Phase.Holds.mem_rows

/-! ### How much is left to do -/

def Phase.stepsLeft (call : Call) : Phase → Nat
  | .ready => call.rows.length + 5
  | .locking wanted => wanted.length + 4
  | .holding => 3
  | .computed _ => 2
  | .releasing _ => 1
  | .finished _ => 0

theorem Shared.LockStep.stepsLeft_lt {locks : List Lock}
    (h : s.LockStep i call phase locks phase') : phase'.stepsLeft call < phase.stepsLeft call := by
  cases h with
  | acquired c wanted =>
    split
    · simp only [Phase.stepsLeft]; omega
    · simp only [Phase.stepsLeft, List.length_cons]; omega
  | _ => simp only [Phase.stepsLeft]; omega

end Step

/-! ### Crews -/

namespace Crew

/-- The worker `i` can take a step: it has not finished, and nobody holds it up. -/
def CanStep (s : Crew) (i : Nat) : Prop :=
  ∃ worker, s.workers[i]? = some worker ∧ (s.shared.step i worker.call worker.phase).isSome

/-- Every locked row is one that its holder still needs. -/
def Owned (s : Crew) : Prop :=
  ∀ lock ∈ s.shared.locks, ∃ worker, s.workers[lock.holder]? = some worker ∧
    lock.user = worker.call.user ∧ worker.phase.Holds worker.call lock.currency

def stepsLeft (s : Crew) : Nat := (s.workers.map fun w => w.phase.stepsLeft w.call).sum

section Run

variable {s : Crew} {calls : List Call} {i : Nat}

theorem owned_start (l : Ledger) (calls : List Call) : (start l calls).Owned :=
  fun _ hlock => absurd hlock List.not_mem_nil

theorem Owned.step (h : s.Owned) (hsound : s.Sound calls) (i : Nat) : (s.step i).Owned := by
  obtain heq | ⟨worker, shared, phase, hworker, hstep, heq⟩ := s.step_cases i
  · rwa [heq]
  rw [heq]
  intro lock hlock
  simp only at hlock ⊢
  rw [getElem?_set_worker hworker]
  by_cases hholder : lock.holder = i
  · have hneeds : s.shared.Needs i worker.call worker.phase := fun lock hlock hi => by
      obtain ⟨holder, hmem, huser, hholds⟩ := h lock hlock
      rw [hi, hworker] at hmem
      cases hmem
      exact ⟨huser, hholds⟩
    obtain ⟨huser, hholds⟩ :=
      (Shared.lockStep hstep).needs hneeds (hsound.supports i worker hworker) hlock hholder
    exact ⟨{ worker with phase }, if_pos hholder, huser, hholds⟩
  · rw [if_neg hholder]
    exact h lock ((Shared.lockStep hstep).mem_locks hlock hholder)

theorem Owned.run (h : s.Owned) (hsound : s.Sound calls) (schedule : List Nat) :
    (s.run schedule).Owned := by
  induction schedule generalizing s with
  | nil => exact h
  | cons i schedule ih => exact ih (h.step hsound i) (hsound.step i)

theorem stepsLeft_step (h : s.CanStep i) : (s.step i).stepsLeft < s.stepsLeft := by
  obtain ⟨worker, hworker, hcan⟩ := h
  obtain ⟨⟨shared, phase⟩, hstep⟩ := Option.isSome_iff_exists.1 hcan
  have heq : s.step i = ⟨shared, s.workers.set i { worker with phase }⟩ := by
    unfold step
    simp only [hworker, hstep]
  rw [heq]
  exact List.sum_map_set_lt hworker ((Shared.lockStep hstep).stepsLeft_lt)

theorem exists_worker_of_reply? (hsound : s.Sound calls) (hi : i < calls.length)
    (h : s.reply? i = none) :
    ∃ worker, s.workers[i]? = some worker ∧ ∀ reply, worker.phase ≠ .finished reply := by
  have hlength : i < s.workers.length := by
    rwa [← List.length_map (f := Worker.call), hsound.calls]
  refine ⟨s.workers[i], List.getElem?_eq_getElem hlength, fun reply hphase => ?_⟩
  rw [reply?, phase?, List.getElem?_eq_getElem hlength, Option.map_some, hphase] at h
  cases h

theorem exists_lock_of_stuck {worker : Worker} (hworker : s.workers[i]? = some worker)
    (hunfinished : ∀ reply, worker.phase ≠ .finished reply) (hstuck : ¬ s.CanStep i) :
    ∃ c lock, worker.phase.wanted? = some c ∧ lock ∈ s.shared.locks ∧
      lock.user = worker.call.user ∧ lock.currency = c := by
  have hnone : s.shared.step i worker.call worker.phase = none :=
    Option.not_isSome_iff_eq_none.1 fun hsome => hstuck ⟨worker, hworker, hsome⟩
  obtain ⟨reply, hphase⟩ | hwaits := Shared.stuck_cases hnone
  · exact absurd hphase (hunfinished reply)
  · exact hwaits

/-- Of the rows that are waited for, the last one is held by a worker that can step. -/
theorem exists_canStep (hsound : s.Sound calls) (howned : s.Owned) (hi : i < calls.length)
    (h : s.reply? i = none) : ∃ j, s.CanStep j := by
  by_contra hnobody
  have hstuck : ∀ j, ¬ s.CanStep j := fun j hj => hnobody ⟨j, hj⟩
  obtain ⟨worker, hworker, hunfinished⟩ := exists_worker_of_reply? hsound hi h
  obtain ⟨c, -, hwanted, -⟩ := exists_lock_of_stuck hworker hunfinished (hstuck i)
  have hwaited : s.workers.filterMap (·.phase.wanted?) ≠ [] :=
    List.ne_nil_of_mem (List.mem_filterMap.2 ⟨worker, List.mem_of_getElem? hworker, hwanted⟩)
  obtain ⟨last, hmem, hlast⟩ := List.exists_last hwaited
  obtain ⟨waiting, hwaiting, hwants⟩ := List.mem_filterMap.1 hmem
  obtain ⟨k, hk⟩ := List.getElem?_of_mem hwaiting
  have hwaits : ∀ reply, waiting.phase ≠ .finished reply := fun reply hphase => by
    rw [hphase] at hwants
    cases hwants
  obtain ⟨c, lock, hc, hlock, -, hcurrency⟩ := exists_lock_of_stuck hk hwaits (hstuck k)
  obtain rfl : last = c := Option.some.inj (hwants.symm.trans hc)
  obtain ⟨holder, hholder, -, hholds⟩ := howned lock hlock
  have hholding : ∀ reply, holder.phase ≠ .finished reply := fun reply hphase => by
    rw [hphase] at hholds
    exact hholds
  obtain ⟨d, -, hd, -⟩ := exists_lock_of_stuck hholder hholding (hstuck lock.holder)
  -- The holder would wait for a row after the last one.
  have hlt := (hsound.supports lock.holder holder hholder).lt_of_holds hholds hd
  rw [hcurrency] at hlt
  exact hlast d (List.mem_filterMap.2 ⟨holder, List.mem_of_getElem? hholder, hd⟩) hlt

theorem locks_eq_nil (hsound : s.Sound calls) (howned : s.Owned)
    (h : ∀ i < calls.length, (s.reply? i).isSome) : s.shared.locks = [] := by
  refine List.eq_nil_iff_forall_not_mem.2 fun lock hlock => ?_
  obtain ⟨worker, hworker, -, hholds⟩ := howned lock hlock
  have hlt := (List.getElem?_eq_some_iff.1 (hsound.getElem?_calls hworker)).1
  obtain ⟨reply, hreply⟩ := Option.isSome_iff_exists.1 (h lock.holder hlt)
  rw [reply?, phase?, hworker, Option.map_some, Option.bind_some] at hreply
  cases hphase : worker.phase with
  | finished reply =>
    rw [hphase] at hholds
    exact hholds
  | _ =>
    rw [hphase] at hreply
    cases hreply

theorem exists_completion (hsound : s.Sound calls) (howned : s.Owned) :
    ∃ rest, rest.length ≤ s.stepsLeft ∧ ∀ i < calls.length, ((s.run rest).reply? i).isSome := by
  -- By induction on the steps that all workers have left: whoever can step takes one of them.
  induction hleft : s.stepsLeft using Nat.strong_induction_on generalizing s with
  | _ left ih =>
    by_cases hdone : ∀ i < calls.length, (s.reply? i).isSome
    · exact ⟨[], Nat.zero_le _, hdone⟩
    · simp only [not_forall, Option.not_isSome_iff_eq_none] at hdone
      obtain ⟨i, hi, hnone⟩ := hdone
      obtain ⟨j, hj⟩ := exists_canStep hsound howned hi hnone
      have hlt := stepsLeft_step hj
      rw [hleft] at hlt
      obtain ⟨rest, hlength, hrest⟩ := ih _ hlt (hsound.step j) (howned.step hsound j) rfl
      exact ⟨j :: rest, Nat.succ_le_of_lt (Nat.lt_of_le_of_lt hlength hlt), hrest⟩

theorem exists_completion_run (l : Ledger) (calls : List Call) (schedule : List Nat) :
    ∃ rest, rest.length ≤ ((start l calls).run schedule).stepsLeft ∧
      ∀ i < calls.length, (((start l calls).run (schedule ++ rest)).reply? i).isSome := by
  have hsound := sound_start l calls
  obtain ⟨rest, hlength, hrest⟩ := exists_completion (hsound.run schedule)
    ((owned_start l calls).run hsound schedule)
  refine ⟨rest, hlength, ?_⟩
  have happend : (start l calls).run (schedule ++ rest) = ((start l calls).run schedule).run rest :=
    List.foldl_append
  rwa [happend]

/-- At any time of any run, whoever is still without an answer can be waited for: somebody can
step, and a bounded number of further steps answers everyone. When all are answered, no row is
locked. -/
theorem progress_run (l : Ledger) (calls : List Call) (schedule : List Nat) :
    ((∃ i < calls.length, ((start l calls).run schedule).reply? i = none) →
      ∃ j, ((start l calls).run schedule).CanStep j) ∧
    ((∀ i < calls.length, (((start l calls).run schedule).reply? i).isSome) →
      ((start l calls).run schedule).shared.locks = []) ∧
    ∃ rest, rest.length ≤ ((start l calls).run schedule).stepsLeft ∧
      ∀ i < calls.length, (((start l calls).run (schedule ++ rest)).reply? i).isSome := by
  have hsound := (sound_start l calls).run schedule
  have howned := (owned_start l calls).run (sound_start l calls) schedule
  exact ⟨fun ⟨i, hi, hnone⟩ => exists_canStep hsound howned hi hnone,
    locks_eq_nil hsound howned, exists_completion_run l calls schedule⟩

end Run

end Crew

end CurrencyWallet.Ledger

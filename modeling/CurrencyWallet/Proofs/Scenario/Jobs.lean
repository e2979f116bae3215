import CurrencyWallet.Scenario.World
import Mathlib.Algebra.Order.Ring.Nat

/-!
The resolutions of a world. Each of them has so many steps left, and when they are run, every one
that can step does so until it has to wait; nothing but the desks and the resolutions themselves is
touched by it.
-/
namespace CurrencyWallet

def RateAnswer.Answers : RateAnswer → RateCall → Prop
  | .cached _, .readCache _ | .notCached, .readCache _ | .cacheFailed, .readCache _ => True
  | .quoted _, .quote _ | .quoteFailed _, .quote _ => True
  | .quoteTimedOut, .quote _ | .quoteCrashed, .quote _ => True
  | .cacheWritten, .writeCache _ _ _ | .cacheWriteFailed, .writeCache _ _ _ => True
  | _, _ => False

namespace Resolution

variable {r : Resolution} {call : RateCall}

/-- A search has its result as soon as there is nothing more to find out, and not before. -/
def IsOrderly (r : Resolution) : Prop :=
  match r.request? with
  | some (.readCache _) | some (.quote _) => r.result? = none
  | some (.writeCache _ _ _) | none => r.result?.isSome = true

theorem callsLeft_pos (h : r.request? = some call) : 0 < r.callsLeft := by
  unfold callsLeft
  rw [h]
  cases call <;> simp

theorem isOrderly_start (policy : RatePolicy) (pair : CurrencyPair) :
    (start policy pair).IsOrderly := by
  unfold start IsOrderly
  cases policy.useCache <;> rfl

theorem IsOrderly.advance (h : r.IsOrderly) (policy : RatePolicy) {a : RateAnswer}
    (hrequest : r.request? = some call) (ha : a.Answers call) :
    (r.advance policy a).IsOrderly ∧ (r.advance policy a).callsLeft < r.callsLeft := by
  obtain ⟨pair, request?, result?⟩ := r
  cases hrequest
  cases call with
  | readCache key =>
    obtain rfl : result? = none := h
    cases a with
    | cached rate =>
      by_cases husable : IsUsableRate rate <;>
        simp [Resolution.advance, husable, finish, IsOrderly, callsLeft]
    | notCached | cacheFailed => simp [Resolution.advance, IsOrderly, callsLeft]
    | _ => cases ha
  | quote asked =>
    cases a with
    | quoted rate =>
      by_cases husable : IsUsableRate rate
      · by_cases hcache : policy.useCache = true <;>
          simp [Resolution.advance, husable, deliver, hcache, IsOrderly, callsLeft]
      · simp [Resolution.advance, husable, finish, IsOrderly, callsLeft]
    | quoteFailed e => simp [Resolution.advance, finish, IsOrderly, callsLeft]
    | quoteTimedOut | quoteCrashed => simp [Resolution.advance, finish, IsOrderly, callsLeft]
    | _ => cases ha
  | writeCache key rate ttl =>
    have hresult : result?.isSome = true := h
    cases a with
    | cacheWritten | cacheWriteFailed => simp [Resolution.advance, IsOrderly, callsLeft, hresult]
    | _ => cases ha

end Resolution

namespace Scenario

def Pending.Fits : Pending → RateCall → Prop
  | .readCache _, .readCache _ | .quote _, .quote _ => True
  | .writeCache _ _ _, .writeCache _ _ _ => True
  | .settled a, call => a.Answers call
  | _, _ => False

namespace RateDesk

theorem fits_begin (d : RateDesk) (call : RateCall) : (d.begin call).2.2.Fits call := by
  cases call with
  | readCache key => trivial
  | quote pair =>
    simp only [begin, beginQuote]
    split
    · trivial
    · split <;> trivial
  | writeCache key rate ttl =>
    simp only [begin]
    split <;> trivial

theorem answers_complete (d : RateDesk) {p : Pending} {call : RateCall} (h : p.Fits call) :
    (d.complete p).2.Answers call := by
  cases p with
  | readCache key =>
    cases call with
    | readCache key' =>
      simp only [complete]
      split
      · trivial
      · simp only
        split <;> trivial
    | _ => cases h
  | quote pair =>
    cases call with
    | quote pair' =>
      simp only [complete]
      split <;> trivial
    | _ => cases h
  | writeCache key rate ttl =>
    cases call with
    | writeCache key' rate' ttl' =>
      simp only [complete]
      split
      · trivial
      · obtain hanswer | hanswer := RateAnswer.ofWrite_cases ttl
        · rw [hanswer]
          trivial
        · rw [hanswer]
          trivial
    | _ => cases h
  | settled a => exact h

end RateDesk

namespace RateJob

variable {now : Nat} {d d' : RateDesk} {j j' : RateJob}

def isWaiting (now : Nat) (j : RateJob) : Bool :=
  match j.pending with
  | some (due, _) => now < due
  | none => j.resolution.request?.isNone

theorem isNone_step (now : Nat) (d : RateDesk) (j : RateJob) :
    (j.step now d).isNone = j.isWaiting now := by
  cases hpending : j.pending with
  | none => simp [step, isWaiting, hpending]
  | some waited =>
    by_cases hdue : waited.1 ≤ now
    · simp [step, isWaiting, hpending, hdue]
    · have hlate : now < waited.1 := by omega
      simp [step, isWaiting, hpending, hdue, hlate]

structure IsOrderly (j : RateJob) : Prop where
  resolution : j.resolution.IsOrderly
  pending : ∀ due p, j.pending = some (due, p) →
    ∃ call, j.resolution.request? = some call ∧ p.Fits call

/-- Every request that is left takes two steps, one of which may have been taken. -/
def stepsLeft (j : RateJob) : Nat :=
  2 * j.resolution.callsLeft - if j.pending.isSome then 1 else 0

theorem isOrderly_start (policy : RatePolicy) (pair : CurrencyPair) :
    (start policy pair).IsOrderly :=
  ⟨Resolution.isOrderly_start policy pair, nofun⟩

theorem stepsLeft_of_none (h : j.pending = none) : j.stepsLeft = 2 * j.resolution.callsLeft := by
  simp [stepsLeft, h]

theorem stepsLeft_of_some {due : Nat} {p : Pending} (h : j.pending = some (due, p)) :
    j.stepsLeft = 2 * j.resolution.callsLeft - 1 := by
  simp [stepsLeft, h]

theorem step_cases (h : j.step now d = some (d', j')) :
    (∃ call, j.pending = none ∧ j.resolution.request? = some call ∧
      j' = ⟨j.resolution, some (now + (d.begin call).2.1, (d.begin call).2.2)⟩) ∨
    ∃ due p, j.pending = some (due, p) ∧ due ≤ now ∧
      j' = ⟨j.resolution.advance (d.complete p).1.policy (d.complete p).2, none⟩ := by
  unfold step at h
  split at h
  · rename_i due p hpending
    split at h
    · rename_i hdue
      cases h
      exact Or.inr ⟨due, p, hpending, hdue, rfl⟩
    · cases h
  · rename_i hpending
    obtain ⟨call, hrequest, hnext⟩ := Option.map_eq_some_iff.1 h
    cases hnext
    exact Or.inl ⟨call, hpending, hrequest, rfl⟩

theorem IsOrderly.step (h : j.IsOrderly) (hstep : j.step now d = some (d', j')) :
    j'.IsOrderly ∧ j'.stepsLeft < j.stepsLeft := by
  obtain ⟨call, hpending, hrequest, rfl⟩ | ⟨due, p, hpending, -, rfl⟩ := step_cases hstep
  · have hpos := Resolution.callsLeft_pos hrequest
    refine ⟨⟨h.resolution, fun due p hp => ?_⟩, ?_⟩
    · cases hp
      exact ⟨call, hrequest, d.fits_begin call⟩
    · rw [stepsLeft_of_none hpending, stepsLeft_of_some rfl]
      dsimp only
      omega
  · obtain ⟨call, hrequest, hfits⟩ := h.pending due p hpending
    obtain ⟨horderly, hless⟩ := h.resolution.advance (d.complete p).1.policy hrequest
      (d.answers_complete hfits)
    refine ⟨⟨horderly, nofun⟩, ?_⟩
    rw [stepsLeft_of_some hpending, stepsLeft_of_none rfl]
    dsimp only
    omega

theorem IsOrderly.isWaiting_of_stepsLeft (h : j.IsOrderly) (hleft : j.stepsLeft = 0) (now : Nat) :
    j.isWaiting now = true := by
  cases hpending : j.pending with
  | none =>
    cases hrequest : j.resolution.request? with
    | none => simp [isWaiting, hpending, hrequest]
    | some call =>
      have hpos := Resolution.callsLeft_pos hrequest
      rw [stepsLeft_of_none hpending] at hleft
      omega
  | some waited =>
    obtain ⟨call, hrequest, -⟩ := h.pending waited.1 waited.2 hpending
    have hpos := Resolution.callsLeft_pos hrequest
    rw [stepsLeft_of_some hpending] at hleft
    omega

theorem IsOrderly.runSteps {steps : Nat} (h : j.IsOrderly) (hsteps : j.stepsLeft ≤ steps)
    (now : Nat) (d : RateDesk) :
    let last := (runSteps now steps d j).2
    last.IsOrderly ∧ last.isWaiting now = true ∧ last.stepsLeft ≤ j.stepsLeft ∧
      (j.isWaiting now = false → last.stepsLeft < j.stepsLeft) := by
  induction steps generalizing d j with
  | zero =>
    have hwaiting := h.isWaiting_of_stepsLeft (Nat.le_zero.1 hsteps) now
    exact ⟨h, hwaiting, Nat.le_refl _, fun hno => by simp [hwaiting] at hno⟩
  | succ steps ih =>
    simp only [RateJob.runSteps]
    cases hstep : j.step now d with
    | none =>
      have hwaiting : j.isWaiting now = true := by
        rw [← isNone_step now d, hstep]
        rfl
      exact ⟨h, hwaiting, Nat.le_refl _, fun hno => by simp [hwaiting] at hno⟩
    | some next =>
      obtain ⟨d', j'⟩ := next
      obtain ⟨hnext, hless⟩ := h.step hstep
      obtain ⟨hlast, hwaiting, hle, -⟩ := ih hnext (by omega) d'
      have hlast_less := Nat.lt_of_le_of_lt hle hless
      exact ⟨hlast, hwaiting, Nat.le_of_lt hlast_less, fun _ => hlast_less⟩

/-- What is left to do: two for every step and, while the job waits, one for the time to pass. -/
def workLeft (now : Nat) (j : RateJob) : Nat :=
  2 * j.stepsLeft + if j.due?.any (now < ·) then 1 else 0

theorem IsOrderly.run (h : j.IsOrderly) (hmoves : j.isWaiting now = false) (d : RateDesk) :
    let last := (j.run now d).2
    last.IsOrderly ∧ last.isWaiting now = true ∧ last.workLeft now < j.workLeft now := by
  obtain ⟨hlast, hwaiting, -, hless⟩ := h.runSteps (Nat.sub_le _ _) now d
  refine ⟨hlast, hwaiting, ?_⟩
  have hsteps : (j.run now d).2.stepsLeft < j.stepsLeft := hless hmoves
  unfold workLeft
  split <;> omega

theorem isFinished_or_of_isWaiting (h : j.isWaiting now = true) :
    j.isFinished = true ∨ ∃ due, j.due? = some due ∧ now < due := by
  unfold isWaiting at h
  split at h
  · rename_i due p hpending
    exact Or.inr ⟨due, by simp [due?, hpending], by simpa using h⟩
  · rename_i hpending
    exact Or.inl (by simpa [isFinished, hpending] using h)

theorem lt_due_of_isWaiting {due : Nat} (h : j.isWaiting now = true) (hdue : j.due? = some due) :
    now < due := by
  obtain ⟨p, hpending, rfl⟩ := Option.map_eq_some_iff.1 hdue
  simpa [isWaiting, hpending] using h

theorem isWaiting_of_isFinished (h : j.isFinished = true) (now : Nat) :
    j.isWaiting now = true := by
  obtain ⟨hpending, hrequest⟩ := Bool.and_eq_true_iff.1 h
  simp [isWaiting, Option.isNone_iff_eq_none.1 hpending, hrequest]

theorem due?_of_isFinished (h : j.isFinished = true) : j.due? = none := by
  obtain ⟨hpending, -⟩ := Bool.and_eq_true_iff.1 h
  simp [due?, Option.isNone_iff_eq_none.1 hpending]

theorem isWaiting_of_le {later : Nat} (h : j.isWaiting now = true)
    (hdue : ∀ due, j.due? = some due → later < due) : j.isWaiting later = true := by
  obtain hfinished | ⟨due, hsome, -⟩ := isFinished_or_of_isWaiting h
  · exact isWaiting_of_isFinished hfinished later
  · obtain ⟨p, hpending, rfl⟩ := Option.map_eq_some_iff.1 hsome
    simpa [isWaiting, hpending] using hdue p.1 hsome

theorem workLeft_mono (j : RateJob) {later : Nat} (h : now ≤ later) :
    j.workLeft later ≤ j.workLeft now := by
  unfold workLeft
  cases j.due? with
  | none => simp
  | some due =>
    by_cases hlater : later < due
    · have hnow : now < due := by omega
      simp [hlater, hnow]
    · simp [hlater]

theorem workLeft_lt {due : Nat} (hdue : j.due? = some due) (h : now < due) :
    j.workLeft due < j.workLeft now := by
  simp [workLeft, hdue, h]

theorem IsOrderly.exists_result (h : j.IsOrderly) (hfinished : j.isFinished = true) :
    ∃ result, j.resolution.result? = some result := by
  have hrequest : j.resolution.request? = none := by
    have hboth := Bool.and_eq_true_iff.1 hfinished
    simpa using hboth.2
  have hresolution := h.resolution
  rw [Resolution.IsOrderly, hrequest] at hresolution
  exact Option.isSome_iff_exists.1 hresolution

end RateJob

/-! ### All of them -/

namespace World

def IsOrderly (w : World) : Prop := ∀ j ∈ w.jobs, j.2.IsOrderly

def runJob (w : World) (job : Side × RateJob) : World × Side × RateJob :=
  if job.2.isWaiting w.now then (w, job)
  else (w.setDesk job.1 (job.2.run w.now (w.desk job.1)).1, job.1,
    (job.2.run w.now (w.desk job.1)).2)

def runEach (w : World) : List (Side × RateJob) → World × List (Side × RateJob)
  | [] => (w, [])
  | job :: rest =>
    (((w.runJob job).1.runEach rest).1, (w.runJob job).2 :: ((w.runJob job).1.runEach rest).2)

variable {w : World} {job : Side × RateJob} {jobs : List (Side × RateJob)}

@[simp] theorem now_setDesk (w : World) (side : Side) (d : RateDesk) :
    (w.setDesk side d).now = w.now := by
  cases side <;> rfl

@[simp] theorem vault_setDesk (w : World) (side : Side) (d : RateDesk) :
    (w.setDesk side d).vault = w.vault := by
  cases side <;> rfl

@[simp] theorem now_runJob (w : World) (job : Side × RateJob) : (w.runJob job).1.now = w.now := by
  unfold runJob
  split <;> simp

@[simp] theorem vault_runJob (w : World) (job : Side × RateJob) :
    (w.runJob job).1.vault = w.vault := by
  unfold runJob
  split <;> simp

@[simp] theorem now_runEach (w : World) (jobs : List (Side × RateJob)) :
    (w.runEach jobs).1.now = w.now := by
  induction jobs generalizing w with
  | nil => rfl
  | cons job rest ih => simp [runEach, ih]

@[simp] theorem vault_runEach (w : World) (jobs : List (Side × RateJob)) :
    (w.runEach jobs).1.vault = w.vault := by
  induction jobs generalizing w with
  | nil => rfl
  | cons job rest ih => simp [runEach, ih]

@[simp] theorem length_runEach (w : World) (jobs : List (Side × RateJob)) :
    (w.runEach jobs).2.length = jobs.length := by
  induction jobs generalizing w with
  | nil => rfl
  | cons job rest ih => simp [runEach, ih]

/-- One step of the fold over all jobs: whether any of them moved, and those that are done with,
the last one first. -/
def passJob (passed : Bool × World × List (Side × RateJob)) (job : Side × RateJob) :
    Bool × World × List (Side × RateJob) :=
  (passed.1 || !job.2.isWaiting passed.2.1.now, (passed.2.1.runJob job).1,
    (passed.2.1.runJob job).2 :: passed.2.2)

theorem foldl_passJob (moved : Bool) (w : World) (done jobs : List (Side × RateJob)) :
    jobs.foldl passJob (moved, w, done) =
      (moved || jobs.any fun j => !j.2.isWaiting w.now, (w.runEach jobs).1,
        (w.runEach jobs).2.reverse ++ done) := by
  induction jobs generalizing moved w done with
  | nil => simp [runEach]
  | cons job rest ih => simp [passJob, ih, runEach, Bool.or_assoc]

theorem runJobs_eq (w : World) :
    w.runJobs = (w.jobs.any fun j => !j.2.isWaiting w.now,
      { (w.runEach w.jobs).1 with jobs := (w.runEach w.jobs).2 }) := by
  have hpass : (fun (passed : Bool × World × List (Side × RateJob)) (job : Side × RateJob) =>
      if (job.2.step passed.2.1.now (passed.2.1.desk job.1)).isNone then
        (passed.1, passed.2.1, (job.1, job.2) :: passed.2.2)
      else
        (true, passed.2.1.setDesk job.1 (job.2.run passed.2.1.now (passed.2.1.desk job.1)).1,
          (job.1, (job.2.run passed.2.1.now (passed.2.1.desk job.1)).2) :: passed.2.2)) =
      passJob := by
    funext passed job
    by_cases hwaiting : job.2.isWaiting passed.2.1.now = true <;>
      simp [passJob, runJob, RateJob.isNone_step, hwaiting]
  simp only [runJobs]
  rw [hpass, foldl_passJob]
  simp

theorem runJobs_eq_false :
    w.runJobs.1 = false ↔ ∀ j ∈ w.jobs, j.2.isWaiting w.now = true := by
  simp [runJobs_eq]

@[simp] theorem now_runJobs (w : World) : w.runJobs.2.now = w.now := by
  simp [runJobs_eq]

@[simp] theorem vault_runJobs (w : World) : w.runJobs.2.vault = w.vault := by
  simp [runJobs_eq]

@[simp] theorem length_jobs_runJobs (w : World) : w.runJobs.2.jobs.length = w.jobs.length := by
  simp [runJobs_eq]

def workLeft (w : World) : Nat := (w.jobs.map (·.2.workLeft w.now)).sum

theorem getElem?_runEach {i : Nat} (hi : jobs[i]? = some job)
    (hwaiting : job.2.isWaiting w.now = true) : (w.runEach jobs).2[i]? = some job := by
  induction jobs generalizing w i with
  | nil => cases hi
  | cons first rest ih =>
    cases i with
    | zero =>
      cases hi
      simp [runEach, runJob, hwaiting]
    | succ i =>
      rw [← now_runJob w first] at hwaiting
      exact ih hi hwaiting

theorem getElem?_jobs_runJobs {i : Nat} (hi : w.jobs[i]? = some job)
    (hwaiting : job.2.isWaiting w.now = true) : w.runJobs.2.jobs[i]? = some job := by
  rw [runJobs_eq]
  exact getElem?_runEach hi hwaiting

theorem runJob_cases (h : job.2.IsOrderly) (w : World) :
    job.2.isWaiting w.now = true ∧ (w.runJob job).2 = job ∨
    job.2.isWaiting w.now = false ∧ (w.runJob job).2.2.IsOrderly ∧
      (w.runJob job).2.2.isWaiting w.now = true ∧
      (w.runJob job).2.2.workLeft w.now < job.2.workLeft w.now := by
  cases hwaiting : job.2.isWaiting w.now with
  | true => exact Or.inl ⟨rfl, by simp [runJob, hwaiting]⟩
  | false =>
    refine Or.inr ⟨rfl, ?_⟩
    simpa [runJob, hwaiting] using h.run hwaiting (w.desk job.1)

theorem runEach_orderly (h : ∀ j ∈ jobs, j.2.IsOrderly) (w : World) :
    (∀ j ∈ (w.runEach jobs).2, j.2.IsOrderly ∧ j.2.isWaiting w.now = true) ∧
    ((w.runEach jobs).2.map (·.2.workLeft w.now)).sum +
        (if jobs.any (fun j => !j.2.isWaiting w.now) then 1 else 0) ≤
      (jobs.map (·.2.workLeft w.now)).sum := by
  induction jobs generalizing w with
  | nil => simp [runEach]
  | cons job rest ih =>
    obtain ⟨hjob, hrest⟩ := List.forall_mem_cons.1 h
    obtain ⟨hall, hwork⟩ := ih hrest (w.runJob job).1
    simp only [now_runJob] at hall hwork
    simp only [runEach, List.forall_mem_cons, List.map_cons, List.sum_cons, List.any_cons]
    obtain ⟨hwaiting, hsame⟩ | ⟨hmoves, horderly, hwaiting, hless⟩ := runJob_cases hjob w
    · rw [hsame]
      refine ⟨⟨⟨hjob, hwaiting⟩, hall⟩, ?_⟩
      simp only [hwaiting, Bool.not_true, Bool.false_or]
      omega
    · refine ⟨⟨⟨horderly, hwaiting⟩, hall⟩, ?_⟩
      simp only [hmoves, Bool.not_false, Bool.true_or, if_true]
      omega

theorem IsOrderly.runJobs (h : w.IsOrderly) :
    w.runJobs.2.IsOrderly ∧ (w.runJobs.1 = true → w.runJobs.2.workLeft < w.workLeft) := by
  obtain ⟨hall, hwork⟩ := runEach_orderly h w
  rw [runJobs_eq]
  refine ⟨fun j hj => (hall j hj).1, fun hmoved => ?_⟩
  rw [if_pos hmoved] at hwork
  simp only [workLeft, now_runEach]
  omega

def IsQuiet (w : World) : Prop := ∀ j ∈ w.jobs, j.2.isFinished = true

theorem IsQuiet.runJobs (h : w.IsQuiet) : w.runJobs.1 = false :=
  runJobs_eq_false.2 fun j hj => RateJob.isWaiting_of_isFinished (h j hj) w.now

theorem IsOrderly.exists_rate (h : w.IsOrderly) (hquiet : w.IsQuiet) {i : Nat}
    (hi : i < w.jobs.length) : ∃ result, w.rate? i = some result := by
  have hmem := List.getElem_mem hi
  obtain ⟨result, hresult⟩ := (h _ hmem).exists_result (hquiet _ hmem)
  exact ⟨result, by simp [rate?, job?, List.getElem?_eq_getElem hi, hresult]⟩

/-! ### What the jobs depend on -/

/-- The worlds do not differ in anything that has to do with rates. -/
structure SameRates (v w : World) : Prop where
  now : v.now = w.now
  shared : v.shared = w.shared
  own : v.own? = w.own?
  jobs : v.jobs = w.jobs

namespace SameRates

variable {u v w : World}

theorem refl (w : World) : w.SameRates w := ⟨rfl, rfl, rfl, rfl⟩

theorem trans (h : u.SameRates v) (h' : v.SameRates w) : u.SameRates w :=
  ⟨h.now.trans h'.now, h.shared.trans h'.shared, h.own.trans h'.own, h.jobs.trans h'.jobs⟩

theorem symm (h : v.SameRates w) : w.SameRates v :=
  ⟨h.now.symm, h.shared.symm, h.own.symm, h.jobs.symm⟩

theorem desk (h : v.SameRates w) (side : Side) : v.desk side = w.desk side := by
  cases side <;> simp [World.desk, h.shared, h.own]

theorem setDesk (h : v.SameRates w) (side : Side) (d : RateDesk) :
    (v.setDesk side d).SameRates (w.setDesk side d) := by
  cases side
  · exact ⟨h.now, rfl, h.own, h.jobs⟩
  · exact ⟨h.now, h.shared, rfl, h.jobs⟩

theorem runJob (h : v.SameRates w) (job : Side × RateJob) :
    (v.runJob job).1.SameRates (w.runJob job).1 ∧ (v.runJob job).2 = (w.runJob job).2 := by
  unfold World.runJob
  rw [h.now, h.desk]
  split
  · exact ⟨h, rfl⟩
  · exact ⟨h.setDesk _ _, rfl⟩

theorem runEach (h : v.SameRates w) (jobs : List (Side × RateJob)) :
    (v.runEach jobs).1.SameRates (w.runEach jobs).1 ∧
      (v.runEach jobs).2 = (w.runEach jobs).2 := by
  induction jobs generalizing v w with
  | nil => exact ⟨h, rfl⟩
  | cons job rest ih =>
    obtain ⟨hworld, hjob⟩ := h.runJob job
    obtain ⟨hrest, hjobs⟩ := ih hworld
    exact ⟨hrest, by simp only [World.runEach, hjob, hjobs]⟩

theorem runJobs (h : v.SameRates w) :
    v.runJobs.1 = w.runJobs.1 ∧ v.runJobs.2.SameRates w.runJobs.2 := by
  obtain ⟨hworld, hjobs⟩ := h.runEach w.jobs
  rw [runJobs_eq, runJobs_eq, h.jobs, h.now]
  exact ⟨rfl, hworld.now, hworld.shared, hworld.own, hjobs⟩

theorem setNow (h : v.SameRates w) (now : Nat) :
    { v with now }.SameRates { w with now } :=
  ⟨rfl, h.shared, h.own, h.jobs⟩

theorem isQuiet (h : v.SameRates w) : v.IsQuiet ↔ w.IsQuiet := by
  rw [IsQuiet, IsQuiet, h.jobs]

end SameRates

end World

end Scenario

end CurrencyWallet

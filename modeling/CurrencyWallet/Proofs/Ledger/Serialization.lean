import CurrencyWallet.Proofs.Ledger.Exclusion

/-!
Side by side and one after another. Whatever the schedule, the calls of a crew can be put in an
order in which, each done at once, they get the same answers and leave the same ledger: the order
in which they take effect. A call that is answered before another one begins comes before it.
-/
namespace CurrencyWallet.Ledger

def sequence (calls : List Call) (order : List Nat) : List Call := order.filterMap (calls[·]?)

theorem run_append (l : Ledger) (first second : List Call) :
    l.run (first ++ second) = (l.run first).run second := by
  induction first generalizing l with
  | nil => rfl
  | cons call first ih => exact ih _

theorem run_sequence_concat {l : Ledger} {calls : List Call} {i : Nat} {call : Call}
    (h : calls[i]? = some call) (order : List Nat) :
    l.run (sequence calls (order ++ [i])) = ((l.run (sequence calls order)).perform call).1 := by
  have hlast : sequence calls [i] = [call] := by simp [sequence, h]
  have happend : sequence calls (order ++ [i]) = sequence calls order ++ sequence calls [i] :=
    List.filterMap_append
  rw [happend, hlast, run_append]
  rfl

namespace Crew

/-! ### Steps of a crew -/

section Step

variable {s : Crew} {calls : List Call} {i k : Nat} {worker : Worker} {shared : Shared}
  {phase : Phase}

theorem step_cases (s : Crew) (i : Nat) :
    s.step i = s ∨ ∃ worker shared phase, s.workers[i]? = some worker ∧
      s.shared.step i worker.call worker.phase = some (shared, phase) ∧
      s.step i = ⟨shared, s.workers.set i { worker with phase }⟩ := by
  unfold step
  split
  · exact Or.inl rfl
  · rename_i worker hworker
    split
    · exact Or.inl rfl
    · rename_i shared phase hstep
      exact Or.inr ⟨worker, shared, phase, hworker, hstep, rfl⟩

theorem getElem?_set_worker (h : s.workers[i]? = some worker) (k : Nat) :
    (s.workers.set i { worker with phase })[k]? =
      if k = i then some { worker with phase } else s.workers[k]? := by
  have hlt : i < s.workers.length := (List.getElem?_eq_some_iff.1 h).1
  by_cases hk : k = i
  · rw [if_pos hk, hk, List.getElem?_set_self hlt]
  · rw [if_neg hk, List.getElem?_set_ne (Ne.symm hk)]

/-- What holds of a crew throughout: nobody changes calls, no row is locked twice, and every worker
can rely on what it has found. -/
structure Sound (calls : List Call) (s : Crew) : Prop where
  calls : s.workers.map (·.call) = calls
  exclusive : s.shared.Exclusive
  supports : ∀ i worker, s.workers[i]? = some worker →
    s.shared.Supports i worker.call worker.phase

theorem sound_start (l : Ledger) (calls : List Call) : (start l calls).Sound calls where
  calls := (List.map_map ..).trans (List.map_id calls)
  exclusive := fun a ha => absurd ha List.not_mem_nil
  supports i worker h := by
    obtain ⟨call, -, rfl⟩ := Option.map_eq_some_iff.1 ((List.getElem?_map ..).symm.trans h)
    trivial

theorem Sound.progress (h : s.Sound calls) (hworker : s.workers[i]? = some worker)
    (hstep : s.shared.step i worker.call worker.phase = some (shared, phase)) :
    s.shared.Progress i worker.call worker.phase shared phase :=
  Shared.step_cases (h.supports i worker hworker) hstep

theorem Sound.step (h : s.Sound calls) (i : Nat) : (s.step i).Sound calls := by
  obtain heq | ⟨worker, shared, phase, hworker, hstep, heq⟩ := s.step_cases i
  · rwa [heq]
  · have hprogress := h.progress hworker hstep
    rw [heq]
    refine ⟨?_, hprogress.exclusive h.exclusive, fun k other hother => ?_⟩
    · rw [← h.calls]
      refine List.ext_getElem? fun k => ?_
      rw [List.getElem?_map, List.getElem?_map, getElem?_set_worker hworker]
      by_cases hk : k = i
      · rw [if_pos hk, hk, hworker]
        rfl
      · rw [if_neg hk]
    · simp only at hother
      rw [getElem?_set_worker hworker] at hother
      by_cases hk : k = i
      · rw [if_pos hk] at hother
        cases hother
        rw [hk]
        exact hprogress.supports_self
      · rw [if_neg hk] at hother
        exact hprogress.supports_other hk h.exclusive (h.supports k other hother)

theorem Sound.run (h : s.Sound calls) (schedule : List Nat) : (s.run schedule).Sound calls := by
  induction schedule generalizing s with
  | nil => exact h
  | cons i schedule ih => exact ih (h.step i)

theorem Sound.getElem?_calls (h : s.Sound calls) (hworker : s.workers[i]? = some worker) :
    calls[i]? = some worker.call := by
  rw [← h.calls, List.getElem?_map, hworker]
  rfl

end Step

/-! ### The order in which calls take effect -/

def outcome? (s : Crew) (i : Nat) : Option Reply := (s.phase? i).bind Phase.outcome?

def effect (s : Crew) (i : Nat) : List Nat :=
  if (s.outcome? i).isNone ∧ ((s.step i).outcome? i).isSome then [i] else []

/-- The workers in the order in which their calls take effect. -/
def order (s : Crew) : List Nat → List Nat
  | [] => []
  | i :: schedule => s.effect i ++ (s.step i).order schedule

theorem order_append (s : Crew) (first second : List Nat) :
    s.order (first ++ second) = s.order first ++ (s.run first).order second := by
  induction first generalizing s with
  | nil => rfl
  | cons i first ih =>
    rw [List.cons_append, order, order, ih, List.append_assoc]
    rfl

/-- The calls that have taken effect, done at once in this order, give the ledger and the answers
of the crew. -/
structure Reflects (l : Ledger) (calls : List Call) (s : Crew) (order : List Nat) : Prop where
  nodup : order.Nodup
  mem_iff : ∀ i, i ∈ order ↔ (s.outcome? i).isSome
  ledger : s.shared.ledger = l.run (sequence calls order)
  answers : ∀ i reply, s.outcome? i = some reply → ∃ before after call,
    order = before ++ i :: after ∧ calls[i]? = some call ∧
      ((l.run (sequence calls before)).perform call).2 = reply

section Order

variable {l : Ledger} {s : Crew} {calls : List Call} {order : List Nat} {i k : Nat}
  {worker : Worker} {shared : Shared} {phase : Phase}

theorem outcome?_of_worker (h : s.workers[i]? = some worker) :
    s.outcome? i = worker.phase.outcome? := by
  rw [outcome?, phase?, h]
  rfl

theorem outcome?_set_worker (h : s.workers[i]? = some worker) (k : Nat) :
    outcome? ⟨shared, s.workers.set i { worker with phase }⟩ k =
      if k = i then phase.outcome? else s.outcome? k := by
  rw [outcome?, phase?, getElem?_set_worker h]
  by_cases hk : k = i
  · rw [if_pos hk, if_pos hk]
    rfl
  · rw [if_neg hk, if_neg hk]
    rfl

theorem reflects_start (l : Ledger) (calls : List Call) : (start l calls).Reflects l calls [] := by
  have hnone : ∀ i, (start l calls).outcome? i = none := by
    intro i
    rw [outcome?, phase?, start, List.getElem?_map]
    cases calls[i]? <;> rfl
  refine ⟨List.nodup_nil, fun i => ?_, rfl, fun i reply h => ?_⟩
  · rw [hnone]
    exact iff_of_false List.not_mem_nil nofun
  · rw [hnone] at h
    cases h

theorem Reflects.of_same {s' : Crew} (h : s.Reflects l calls order)
    (hledger : s'.shared.ledger = s.shared.ledger) (houtcome : ∀ k, s'.outcome? k = s.outcome? k) :
    s'.Reflects l calls order where
  nodup := h.nodup
  mem_iff k := by rw [houtcome, h.mem_iff]
  ledger := hledger.trans h.ledger
  answers k reply hk := h.answers k reply (houtcome k ▸ hk)

theorem Reflects.concat {s' : Crew} {call : Call} (h : s.Reflects l calls order)
    (hcall : calls[i]? = some call) (hbefore : s.outcome? i = none)
    (hledger : s'.shared.ledger = (s.shared.ledger.perform call).1)
    (houtcome : ∀ k, s'.outcome? k =
      if k = i then some (s.shared.ledger.perform call).2 else s.outcome? k) :
    s'.Reflects l calls (order ++ [i]) := by
  have hnew : i ∉ order := fun hi => by
    have hsome := (h.mem_iff i).1 hi
    rw [hbefore] at hsome
    cases hsome
  refine ⟨?_, fun k => ?_, ?_, fun k reply hk => ?_⟩
  · exact List.nodup_append.2 ⟨h.nodup, List.nodup_singleton i, fun a ha b hb => by
      rintro rfl
      exact hnew (List.mem_singleton.1 hb ▸ ha)⟩
  · rw [houtcome, List.mem_append, List.mem_singleton, h.mem_iff]
    by_cases hk : k = i
    · rw [if_pos hk]
      exact iff_of_true (Or.inr hk) rfl
    · rw [if_neg hk, or_iff_left hk]
  · rw [run_sequence_concat hcall, ← h.ledger, hledger]
  · rw [houtcome] at hk
    by_cases heq : k = i
    · rw [if_pos heq] at hk
      refine ⟨order, [], call, by rw [heq], heq ▸ hcall, ?_⟩
      rw [← h.ledger]
      exact Option.some.inj hk
    · rw [if_neg heq] at hk
      obtain ⟨before, after, other, horder, hother, hreply⟩ := h.answers k reply hk
      exact ⟨before, after ++ [i], other, by rw [horder, List.append_assoc]; rfl, hother, hreply⟩

/-- In a step a call takes effect, or nobody gets an answer and the ledger stays. -/
theorem Sound.step_effect (h : s.Sound calls) (i : Nat) :
    ((s.step i).shared.ledger = s.shared.ledger ∧ ∀ k, (s.step i).outcome? k = s.outcome? k) ∨
    ∃ call, calls[i]? = some call ∧ s.outcome? i = none ∧
      (s.step i).shared.ledger = (s.shared.ledger.perform call).1 ∧
      ∀ k, (s.step i).outcome? k =
        if k = i then some (s.shared.ledger.perform call).2 else s.outcome? k := by
  obtain heq | ⟨worker, shared, phase, hworker, hstep, heq⟩ := s.step_cases i
  · rw [heq]
    exact Or.inl ⟨rfl, fun _ => rfl⟩
  have hbefore := outcome?_of_worker hworker
  have hafter : ∀ k, (s.step i).outcome? k = if k = i then phase.outcome? else s.outcome? k := by
    rw [heq]
    exact outcome?_set_worker hworker
  have hsame (houtcome : phase.outcome? = worker.phase.outcome?) (k : Nat) :
      (s.step i).outcome? k = s.outcome? k := by
    rw [hafter]
    by_cases hk : k = i
    · rw [if_pos hk, hk, hbefore, houtcome]
    · rw [if_neg hk]
  cases h.progress hworker hstep with
  | answered hnew hledger _ hreply _ =>
    refine Or.inr ⟨worker.call, h.getElem?_calls hworker, hbefore.trans hnew, ?_, ?_⟩
    · rw [heq]
      exact hledger
    · rwa [← hreply]
  | moved hnew hstill hledger _ _ _ =>
    refine Or.inl ⟨?_, hsame (hstill.trans hnew.symm)⟩
    rw [heq]
    exact hledger
  | released hanswered =>
    refine Or.inl ⟨?_, hsame hanswered.symm⟩
    rw [heq]
    rfl

theorem Reflects.step (hsound : s.Sound calls) (h : s.Reflects l calls order) (i : Nat) :
    (s.step i).Reflects l calls (order ++ s.effect i) := by
  obtain ⟨hledger, hsame⟩ | ⟨call, hcall, hbefore, hledger, hafter⟩ := hsound.step_effect i
  · have heffect : s.effect i = [] := by
      rw [effect, hsame]
      cases s.outcome? i <;> rfl
    rw [heffect, List.append_nil]
    exact h.of_same hledger hsame
  · have heffect : s.effect i = [i] := by
      rw [effect, hbefore, hafter, if_pos rfl]
      rfl
    rw [heffect]
    exact h.concat hcall hbefore hledger hafter

theorem Reflects.run (hsound : s.Sound calls) (h : s.Reflects l calls order)
    (schedule : List Nat) : (s.run schedule).Reflects l calls (order ++ s.order schedule) := by
  induction schedule generalizing s order with
  | nil =>
    rw [Crew.order, List.append_nil]
    exact h
  | cons i schedule ih =>
    rw [Crew.order, ← List.append_assoc]
    exact ih (hsound.step i) (h.step hsound i)

theorem reflects_run (l : Ledger) (calls : List Call) (schedule : List Nat) :
    ((start l calls).run schedule).Reflects l calls ((start l calls).order schedule) := by
  have h := (reflects_start l calls).run (sound_start l calls) schedule
  rwa [List.nil_append] at h

/-! ### Serial orders -/

/-- The worker `i` has been answered at a time when `j` has not begun. -/
def Precedes (l : Ledger) (calls : List Call) (schedule : List Nat) (i j : Nat) : Prop :=
  ∃ done, done <+: schedule ∧ (((start l calls).run done).reply? i).isSome ∧
    ((start l calls).run done).phase? j = some .ready

/-- An order in which the calls, done at once one after another, leave the ledger of a run and get
its answers, and which keeps to the order of calls that do not overlap. -/
structure IsSerialOrder (l : Ledger) (calls : List Call) (schedule order : List Nat) : Prop where
  nodup : order.Nodup
  known : ∀ i ∈ order, i < calls.length
  ledger : ((start l calls).run schedule).shared.ledger = l.run (sequence calls order)
  answers : ∀ i reply, ((start l calls).run schedule).reply? i = some reply →
    ∃ before after call, order = before ++ i :: after ∧ calls[i]? = some call ∧
      ((l.run (sequence calls before)).perform call).2 = reply
  realTime : ∀ i j, Precedes l calls schedule i j → order.idxOf i < order.idxOf j

theorem outcome?_of_reply? {reply : Reply} (h : s.reply? i = some reply) :
    s.outcome? i = some reply := by
  obtain ⟨phase, hphase, hreply⟩ := Option.bind_eq_some_iff.1 h
  rw [outcome?, hphase]
  cases phase <;> cases hreply
  rfl

theorem lt_length_of_outcome? (hsound : s.Sound calls) (h : (s.outcome? i).isSome) :
    i < calls.length := by
  obtain ⟨reply, hreply⟩ := Option.isSome_iff_exists.1 h
  obtain ⟨phase, hphase, -⟩ := Option.bind_eq_some_iff.1 hreply
  obtain ⟨worker, hworker, -⟩ := Option.map_eq_some_iff.1 hphase
  exact (List.getElem?_eq_some_iff.1 (hsound.getElem?_calls hworker)).1

theorem idxOf_lt_of_precedes {schedule : List Nat} {j : Nat}
    (h : Precedes l calls schedule i j) :
    ((start l calls).order schedule).idxOf i < ((start l calls).order schedule).idxOf j := by
  -- When `i` has its answer, `j` is not yet in the order.
  obtain ⟨done, ⟨rest, rfl⟩, hdone, hready⟩ := h
  obtain ⟨reply, hreply⟩ := Option.isSome_iff_exists.1 hdone
  have hreflects := reflects_run l calls done
  have hi : i ∈ (start l calls).order done :=
    (hreflects.mem_iff i).2 (by rw [outcome?_of_reply? hreply]; rfl)
  have hj : j ∉ (start l calls).order done := fun hmem => by
    have hsome := (hreflects.mem_iff j).1 hmem
    rw [outcome?, hready] at hsome
    cases hsome
  have hlt := List.idxOf_lt_length_iff.2 hi
  rw [order_append, List.idxOf_append_of_mem hi, List.idxOf_append_of_notMem hj]
  omega

/-- Every run has a serial order, of all calls if all are answered. -/
theorem exists_serialOrder (l : Ledger) (calls : List Call) (schedule : List Nat) :
    ∃ order, IsSerialOrder l calls schedule order ∧
      ((∀ i < calls.length, (((start l calls).run schedule).reply? i).isSome) →
        order.Perm (List.range calls.length)) := by
  have hsound := (sound_start l calls).run schedule
  have hreflects := reflects_run l calls schedule
  have hknown : ∀ i ∈ (start l calls).order schedule, i < calls.length := fun i hi =>
    lt_length_of_outcome? hsound ((hreflects.mem_iff i).1 hi)
  refine ⟨(start l calls).order schedule, ⟨hreflects.nodup, hknown, hreflects.ledger,
    fun i reply hreply => hreflects.answers i reply (outcome?_of_reply? hreply),
    fun i j => idxOf_lt_of_precedes⟩, fun hall => ?_⟩
  refine (List.perm_ext_iff_of_nodup hreflects.nodup List.nodup_range).2 fun i => ?_
  rw [List.mem_range]
  refine ⟨hknown i, fun hi => (hreflects.mem_iff i).2 ?_⟩
  obtain ⟨reply, hreply⟩ := Option.isSome_iff_exists.1 (hall i hi)
  rw [outcome?_of_reply? hreply]
  rfl

end Order

end Crew

end CurrencyWallet.Ledger

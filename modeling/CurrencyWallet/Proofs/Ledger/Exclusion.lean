import CurrencyWallet.Ledger.Locking
import CurrencyWallet.Proofs.Ledger.Settling

/-!
What a worker can rely on. While it goes through its call, the checks it has passed stay passed,
and the rows it has locked are changed by nobody else, so that what it has read is still there when
it writes. A step of a worker gives its call an answer, the one that the call would get at once
over the ledger of that moment, or it leaves the ledger alone (`Shared.step_cases`).
-/
namespace CurrencyWallet.Ledger

/-! ### Calls over ledgers that change -/

theorem screen_perform {l : Ledger} {call : Call} (h : l.screen call = .ok ()) (other : Call) :
    (l.perform other).1.screen call = .ok () := by
  cases call with
  | openAccounts u => rfl
  | balances u => rfl
  | apply u c delta =>
    obtain ⟨hc, hrow⟩ := screen_apply_eq_ok.1 h
    rw [screen_apply_eq_ok, currencies_perform, rowsOf_perform (contains_of_mem_rowsOf hrow)]
    exact ⟨hc, hrow⟩
  | settle s =>
    obtain ⟨hvalid, hopen⟩ := screen_settle_eq_ok.1 h
    exact screen_settle_eq_ok.2 ⟨hvalid, contains_perform hopen⟩

theorem forM_verifyLeg_congr {s : Settlement} {b b' : Balances} {legs : List SettlementLeg}
    (h : ∀ leg ∈ legs, b.get? leg.currency = b'.get? leg.currency) :
    legs.forM (verifyLeg s b) = legs.forM (verifyLeg s b') := by
  induction legs with
  | nil => rfl
  | cons leg legs ih =>
    have hleg : verifyLeg s b leg = verifyLeg s b' leg := by
      rw [verifyLeg, verifyLeg, h leg List.mem_cons_self]
    rw [forM_verifyLeg_cons, forM_verifyLeg_cons, hleg,
      ih fun leg hleg => h leg (List.mem_cons_of_mem _ hleg)]

theorem revision_congr {call : Call} {b b' : Balances}
    (h : ∀ c ∈ call.rows, b.get? c = b'.get? c) : call.revision b = call.revision b' := by
  cases call with
  | openAccounts u => rfl
  | balances u => rfl
  | apply u c delta =>
    simp only [Call.revision]
    rw [h c (List.mem_singleton_self c)]
  | settle s =>
    have hlegs : s.lockOrder.forM (verifyLeg s b) = s.lockOrder.forM (verifyLeg s b') :=
      forM_verifyLeg_congr fun leg hleg => h _ (List.mem_map_of_mem hleg)
    simp only [Call.revision]
    rw [hlegs]

theorem revision_perform {l : Ledger} {call other : Call}
    (hopen : l.users.contains call.user = true)
    (h : ∀ c ∈ call.rows, call.user = other.user → c ∉ other.rows) :
    call.revision ((l.perform other).1.balances call.user) =
      call.revision (l.balances call.user) :=
  revision_congr fun c hc => balance?_perform hopen (h c hc)

/-! ### What a worker relies on -/

structure Shared.Secures (s : Shared) (i : Nat) (call : Call) (rows : List Currency) : Prop where
  changes : call.rows ≠ []
  screened : s.ledger.screen call = .ok ()
  found : ∀ c ∈ rows, c ∈ s.ledger.rowsOf call.user
  locked : ∀ c ∈ rows, ⟨call.user, c, i⟩ ∈ s.locks

def Shared.Supports (s : Shared) (i : Nat) (call : Call) : Phase → Prop
  | .locking wanted => ∃ held, call.rows = held ++ wanted ∧ s.Secures i call held
  | .holding => s.Secures i call call.rows
  | .computed revision =>
    s.Secures i call call.rows ∧
      call.revision (s.ledger.balances call.user) = .ok revision
  | _ => True

def Shared.Exclusive (s : Shared) : Prop :=
  ∀ a ∈ s.locks, ∀ b ∈ s.locks, a.user = b.user → a.currency = b.currency → a.holder = b.holder

def Phase.outcome? : Phase → Option Reply
  | .releasing reply => some reply
  | .finished reply => some reply
  | _ => none

/-! ### Steps -/

section Step

variable {s s' : Shared} {i : Nat} {call : Call} {phase phase' : Phase}

/-- What a step does: it gives the answer of the call over the present ledger, it takes the worker
on without touching the ledger, or it releases. Only a call that holds all its rows writes. -/
inductive Shared.Progress (s : Shared) (i : Nat) (call : Call) : Phase → Shared → Phase → Prop
  | answered {phase : Phase} {s' : Shared} {phase' : Phase} (before : phase.outcome? = none)
      (ledger : s'.ledger = (s.ledger.perform call).1) (locks : s'.locks = s.locks)
      (reply : phase'.outcome? = some (s.ledger.perform call).2)
      (writes : s'.ledger = s.ledger ∨ ∀ c ∈ call.rows, ⟨call.user, c, i⟩ ∈ s.locks) :
      Progress s i call phase s' phase'
  | moved {phase : Phase} {s' : Shared} {phase' : Phase} (before : phase.outcome? = none)
      (after : phase'.outcome? = none) (ledger : s'.ledger = s.ledger)
      (locks : ∀ lock ∈ s.locks, lock ∈ s'.locks) (exclusive : s.Exclusive → s'.Exclusive)
      (supports : s'.Supports i call phase') : Progress s i call phase s' phase'
  | released {phase : Phase} {reply : Reply} (answered : phase.outcome? = some reply) :
      Progress s i call phase (s.release i) (.finished reply)

theorem Shared.Progress.unchanged {reply : Reply} (hbefore : phase.outcome? = none)
    (hafter : phase'.outcome? = some reply) (h : s.ledger.perform call = (s.ledger, reply)) :
    s.Progress i call phase s phase' := by
  refine .answered hbefore ?_ rfl ?_ (Or.inl rfl)
  · rw [h]
  · rw [h, hafter]

theorem perform_eq_change {l : Ledger} (h : call.rows ≠ []) : l.perform call = l.change call := by
  cases call with
  | openAccounts u => exact absurd rfl h
  | balances u => exact absurd rfl h
  | apply u c delta => rfl
  | settle s => rfl

theorem Shared.step_ready (h : call.rows ≠ []) :
    s.step i call .ready = match s.ledger.screen call with
      | .error e => some (s, .finished (.refused e))
      | .ok () => some (s, .locking call.rows) := by
  cases call with
  | openAccounts u => exact absurd rfl h
  | balances u => exact absurd rfl h
  | apply u c delta => rfl
  | settle s => rfl

theorem Shared.Exclusive.acquire (h : s.Exclusive) {u : UserId} {c : Currency}
    (hfree : s.holder? u c = none) : (s.acquire u c i).Exclusive := by
  have hnone : ∀ lock ∈ s.locks, ¬ (lock.user = u ∧ lock.currency = c) := by
    intro lock hlock hkey
    have hfind := List.find?_eq_none.1 (Option.map_eq_none_iff.1 hfree) lock hlock
    exact hfind (by simpa using hkey)
  intro a ha b hb huser hcurrency
  obtain rfl | ha := List.mem_cons.1 ha
  · obtain rfl | hb := List.mem_cons.1 hb
    · rfl
    · exact absurd ⟨huser.symm, hcurrency.symm⟩ (hnone b hb)
  · obtain rfl | hb := List.mem_cons.1 hb
    · exact absurd ⟨huser, hcurrency⟩ (hnone a ha)
    · exact h a ha b hb huser hcurrency

theorem Shared.Secures.acquire {held : List Currency} (h : s.Secures i call held) {c : Currency}
    (hc : c ∈ s.ledger.rowsOf call.user) :
    (s.acquire call.user c i).Secures i call (held ++ [c]) where
  changes := h.changes
  screened := h.screened
  found d hd := by
    obtain hd | hd := List.mem_append.1 hd
    · exact h.found d hd
    · rwa [List.mem_singleton.1 hd]
  locked d hd := by
    obtain hd | hd := List.mem_append.1 hd
    · exact List.mem_cons_of_mem _ (h.locked d hd)
    · rw [List.mem_singleton.1 hd]
      exact List.mem_cons_self

theorem Shared.progress_screen (hrows : call.rows ≠ [])
    (h : s.step i call .ready = some (s', phase')) : s.Progress i call .ready s' phase' := by
  rw [step_ready hrows] at h
  cases hscreen : s.ledger.screen call with
  | error e =>
    rw [hscreen] at h
    cases h
    have hperform : s.ledger.perform call = (s.ledger, .refused e) := by
      rw [perform_eq_change hrows, change_of_error hscreen]
    exact .unchanged rfl rfl hperform
  | ok _ =>
    rw [hscreen] at h
    cases h
    refine .moved rfl rfl rfl (fun _ hlock => hlock) id ⟨[], rfl, hrows, hscreen, ?_, ?_⟩
    · exact fun c hc => absurd hc List.not_mem_nil
    · exact fun c hc => absurd hc List.not_mem_nil

theorem Shared.progress_ready (h : s.step i call .ready = some (s', phase')) :
    s.Progress i call .ready s' phase' := by
  cases call with
  | openAccounts u =>
    cases h
    exact .answered rfl rfl rfl rfl (Or.inr fun c hc => absurd hc List.not_mem_nil)
  | balances u =>
    cases h
    exact .answered rfl rfl rfl rfl (Or.inl rfl)
  | apply u c delta => exact progress_screen (List.cons_ne_nil _ _) h
  | settle x => exact progress_screen (rows_settle_ne_nil x) h

theorem Shared.progress_locking {wanted : List Currency}
    (hsupports : s.Supports i call (.locking wanted))
    (h : s.step i call (.locking wanted) = some (s', phase')) :
    s.Progress i call (.locking wanted) s' phase' := by
  obtain ⟨held, hrows, hsecures⟩ := hsupports
  cases wanted with
  | nil =>
    cases h
    rw [List.append_nil] at hrows
    refine .moved rfl rfl rfl (fun _ hlock => hlock) id ?_
    rw [Supports, hrows]
    exact hsecures
  | cons c wanted =>
    simp only [step] at h
    split at h
    · rename_i hc
      split at h
      · cases h
      · rename_i hfree
        cases h
        have hacquired := hsecures.acquire hc
        refine .moved rfl ?_ rfl (fun _ hlock => List.mem_cons_of_mem _ hlock)
          (fun hexclusive => hexclusive.acquire hfree) ?_
        · split <;> rfl
        · split
          · rename_i hlast
            rw [List.isEmpty_iff] at hlast
            rw [Supports, hrows, hlast]
            exact hacquired
          · exact ⟨held ++ [c], by rw [hrows, List.append_assoc]; rfl, hacquired⟩
    · rename_i hc
      cases h
      have hperform : s.ledger.perform call = (s.ledger, .refused (call.missing c)) := by
        rw [perform_eq_change hsecures.changes]
        exact change_of_missing hsecures.screened hrows hsecures.found hc
      exact .unchanged rfl rfl hperform

theorem Shared.Secures.perform (h : s.Secures i call call.rows) :
    s.ledger.perform call = match call.revision (s.ledger.balances call.user) with
      | .refused e => (s.ledger, .refused e)
      | .overflowed o => (s.ledger, .overflowed o)
      | .ok revision => (s.ledger.commit call.user revision,
          .ok ((s.ledger.commit call.user revision).balances call.user)) := by
  rw [perform_eq_change h.changes]
  exact change_of_rows h.screened h.found

theorem Shared.progress_write {revision : Revision} (hbefore : phase.outcome? = none)
    (hsecures : s.Secures i call call.rows)
    (hrevision : call.revision (s.ledger.balances call.user) = .ok revision) :
    s.Progress i call phase (s.write call revision).1 (s.write call revision).2 := by
  have hperform := hsecures.perform
  rw [hrevision] at hperform
  refine .answered hbefore ?_ rfl ?_ (Or.inr hsecures.locked)
  · rw [hperform]
    rfl
  · rw [hperform]
    rfl

theorem Shared.progress_holding (hsecures : s.Secures i call call.rows)
    (h : s.step i call .holding = some (s', phase')) : s.Progress i call .holding s' phase' := by
  have hperform := hsecures.perform
  simp only [step] at h
  cases hrevision : call.revision (s.ledger.balances call.user) with
  | refused e =>
    rw [hrevision] at h hperform
    cases h
    exact .unchanged rfl rfl hperform
  | overflowed o =>
    rw [hrevision] at h hperform
    cases h
    exact .unchanged rfl rfl hperform
  | ok revision =>
    rw [hrevision] at h
    simp only at h
    split at h
    · cases h
      exact progress_write rfl hsecures hrevision
    · cases h
      exact .moved rfl rfl rfl (fun _ hlock => hlock) id ⟨hsecures, hrevision⟩

theorem Shared.step_cases (hsupports : s.Supports i call phase)
    (h : s.step i call phase = some (s', phase')) : s.Progress i call phase s' phase' := by
  cases phase with
  | ready => exact progress_ready h
  | locking wanted => exact progress_locking hsupports h
  | holding => exact progress_holding hsupports h
  | computed revision =>
    cases h
    exact progress_write rfl hsupports.1 hsupports.2
  | releasing reply =>
    cases h
    exact .released rfl
  | finished reply => cases h

/-! ### What a step leaves to the others -/

theorem Shared.supports_of_outcome {reply : Reply} (h : phase.outcome? = some reply) :
    s.Supports i call phase := by
  cases phase with
  | ready => trivial
  | locking wanted => cases h
  | holding => cases h
  | computed revision => cases h
  | releasing reply => trivial
  | finished reply => trivial

namespace Shared.Progress

variable (h : s.Progress i call phase s' phase')

include h

theorem ledger_cases : s'.ledger = s.ledger ∨
    s'.ledger = (s.ledger.perform call).1 ∧ ∀ c ∈ call.rows, ⟨call.user, c, i⟩ ∈ s.locks := by
  cases h with
  | answered _ hledger _ _ hwrites => exact hwrites.imp_right fun hlocked => ⟨hledger, hlocked⟩
  | moved _ _ hledger _ _ _ => exact Or.inl hledger
  | released _ => exact Or.inl rfl

theorem mem_locks_of_ne {lock : Lock} (hlock : lock ∈ s.locks) (hne : lock.holder ≠ i) :
    lock ∈ s'.locks := by
  cases h with
  | answered _ _ hlocks _ _ => rwa [hlocks]
  | moved _ _ _ hlocks _ _ => exact hlocks lock hlock
  | released _ => exact List.mem_filter.2 ⟨hlock, by simpa using hne⟩

theorem exclusive (hexclusive : s.Exclusive) : s'.Exclusive := by
  cases h with
  | answered _ _ hlocks _ _ =>
    unfold Exclusive
    rwa [hlocks]
  | moved _ _ _ _ hkeeps _ => exact hkeeps hexclusive
  | released _ =>
    exact fun a ha b hb => hexclusive a (List.mem_of_mem_filter ha) b (List.mem_of_mem_filter hb)

theorem supports_self : s'.Supports i call phase' := by
  cases h with
  | answered _ _ _ hreply _ => exact supports_of_outcome hreply
  | moved _ _ _ _ _ hsupports => exact hsupports
  | released _ => trivial

variable {k : Nat} {other : Call} (hne : k ≠ i)

include hne

theorem secures_other {rows : List Currency} (hother : s.Secures k other rows) :
    s'.Secures k other rows := by
  obtain ⟨hchanges, hscreen, hfound, hlocked⟩ := hother
  have hopen := contains_of_screen hscreen hchanges
  refine ⟨hchanges, ?_, ?_, fun c hc => h.mem_locks_of_ne (hlocked c hc) hne⟩
  · obtain heq | ⟨heq, -⟩ := h.ledger_cases
    · rwa [heq]
    · rw [heq]
      exact screen_perform hscreen call
  · obtain heq | ⟨heq, -⟩ := h.ledger_cases
    · rwa [heq]
    · rwa [heq, rowsOf_perform hopen]

theorem revision_other (hexclusive : s.Exclusive) (hother : s.Secures k other other.rows) :
    other.revision (s'.ledger.balances other.user) =
      other.revision (s.ledger.balances other.user) := by
  obtain heq | ⟨heq, hlocked⟩ := h.ledger_cases
  · rw [heq]
  · rw [heq]
    have hopen := contains_of_screen hother.screened hother.changes
    refine revision_perform hopen fun c hc huser hmem => ?_
    -- A row that both of them write would be locked by both.
    have hmine := hother.locked c hc
    rw [huser] at hmine
    exact hne (hexclusive _ hmine _ (hlocked c hmem) rfl rfl)

theorem supports_other (hexclusive : s.Exclusive) {phase : Phase}
    (hother : s.Supports k other phase) : s'.Supports k other phase := by
  cases phase with
  | ready => trivial
  | locking wanted =>
    obtain ⟨held, hrows, hsecures⟩ := hother
    exact ⟨held, hrows, h.secures_other hne hsecures⟩
  | holding => exact h.secures_other hne hother
  | computed revision =>
    obtain ⟨hsecures, hrevision⟩ := hother
    exact ⟨h.secures_other hne hsecures, (h.revision_other hne hexclusive hsecures).trans hrevision⟩
  | releasing reply => trivial
  | finished reply => trivial

end Shared.Progress

end Step

end CurrencyWallet.Ledger

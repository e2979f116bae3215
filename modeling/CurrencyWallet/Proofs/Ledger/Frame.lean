import CurrencyWallet.Proofs.Ledger.Money
import CurrencyWallet.Proofs.Ledger.Serialization

/-!
What calls leave alone. A call that is refused or broken off, wherever that happens, leaves the
whole ledger as it was; one that succeeds touches the rows that it names and no other; and taken
step by step beside others it changes the ledger in one step, the whole call, or never.
-/
namespace CurrencyWallet.Ledger

/-- Besides these rows of `u` everything is as before: the accounts of the others, who has accounts,
which rows there are, and the other balances of `u`. -/
structure SameBesides (l l' : Ledger) (u : UserId) (rows : List Currency) : Prop where
  currencies : l'.currencies = l.currencies
  others : ∀ v, v ≠ u → l'.users.get? v = l.users.get? v
  opened : ∀ v, l'.users.contains v = l.users.contains v
  rowsOf : ∀ v, l'.rowsOf v = l.rowsOf v
  balances : ∀ c, c ∉ rows → l'.balance? u c = l.balance? u c

section Frame

variable {l : Ledger} {call : Call} {revision : Revision} {u v : UserId}

theorem Commits.sameBesides (h : l.Commits call revision) :
    l.SameBesides (l.perform call).1 call.user call.rows where
  currencies := currencies_perform
  others v hv := by rw [h.performed, get?_users_commit, if_neg hv]
  opened v := by rw [h.performed, contains_commit]
  rowsOf v := by rw [h.performed, rowsOf_commit]
  balances c hc := balance?_perform h.opened fun _ => hc

theorem openAccounts_of_contains (h : l.users.contains u = true) : (l.openAccounts u).1 = l := by
  obtain ⟨accounts, haccounts⟩ := Option.isSome_iff_exists.1 h
  rw [openAccounts, haccounts]

theorem get?_users_perform_of_ne (hv : v ≠ call.user) :
    (l.perform call).1.users.get? v = l.users.get? v := by
  obtain ⟨w, rfl, heq⟩ | heq | ⟨revision, hcommits⟩ := l.perform_cases call
  · have hw : v ≠ w := hv
    rw [heq, get?_users_openAccounts, if_neg hw]
  · rw [heq]
  · exact hcommits.sameBesides.others v hv

theorem commits_of_apply {c : Currency} {delta : Decimal}
    (h : (l.perform (.apply u c delta)).2.isOk = true) :
    ∃ revision, l.Commits (.apply u c delta) revision := by
  obtain ⟨-, hfailed⟩ | hcommits := l.apply_cases u c delta
  · rw [hfailed] at h
    cases h
  · exact hcommits

theorem commits_of_settle {s : Settlement} (h : (l.perform (.settle s)).2.isOk = true) :
    l.Commits (.settle s) (settledRevision s) := by
  obtain ⟨-, hfailed⟩ | ⟨revision, hcommits⟩ := l.settle_commits s
  · rw [hfailed] at h
    cases h
  · rwa [eq_settledRevision hcommits.revised] at hcommits

theorem balances_of_reply {b : Balances} (h : (l.perform call).2 = .ok b) :
    b = (l.perform call).1.balances call.user := by
  cases call with
  | openAccounts u =>
    cases h
    exact l.openAccounts_snd u
  | balances u =>
    cases h
    rfl
  | apply u c delta =>
    obtain ⟨revision, hcommits⟩ := commits_of_apply (by rw [h]; rfl)
    rw [hcommits.performed] at h ⊢
    exact (Attempt.ok.inj h).symm
  | settle s =>
    have hcommits := commits_of_settle (by rw [h]; rfl)
    rw [hcommits.performed] at h ⊢
    exact (Attempt.ok.inj h).symm

end Frame

/-! ### Each kind of call -/

section Calls

variable (l : Ledger)

theorem frame_apply {u : UserId} {c : Currency} {delta : Decimal}
    (h : (l.perform (.apply u c delta)).2.isOk = true) :
    l.SameBesides (l.perform (.apply u c delta)).1 u [c] ∧
      ∃ current updated, l.balance? u c = some current ∧
        applyDelta c current delta = .ok updated ∧
        (l.perform (.apply u c delta)).1.balance? u c = some updated := by
  obtain ⟨revision, hcommits⟩ := commits_of_apply h
  obtain ⟨current, updated, hcurrent, hupdated, heq⟩ := hcommits.apply
  have hopen : l.users.contains u = true := hcommits.opened
  refine ⟨hcommits.sameBesides, current, updated, hcurrent, hupdated, ?_⟩
  rw [heq, balance?_commit_one hopen, if_pos ⟨rfl, rfl⟩]

theorem frame_settle {s : Settlement} (h : (l.perform (.settle s)).2.isOk = true) :
    l.SameBesides (l.perform (.settle s)).1 s.user [s.source.currency, s.target.currency] ∧
      (l.perform (.settle s)).1.balance? s.user s.source.currency = some s.source.updated ∧
      (l.perform (.settle s)).1.balance? s.user s.target.currency = some s.target.updated := by
  have hcommits := commits_of_settle h
  have hopen : l.users.contains s.user = true := hcommits.opened
  have hne := (Settlement.validate_eq_ok.1 (screen_settle_eq_ok.1 hcommits.screened).1).1
  have hsame := hcommits.sameBesides
  refine ⟨{ hsame with balances := fun c hc => hsame.balances c fun hrow => hc ?_ }, ?_, ?_⟩
  · obtain rfl | rfl := mem_rows_settle.1 hrow
    · exact List.mem_cons_self
    · exact List.mem_cons_of_mem _ (List.mem_singleton_self _)
  · rw [hcommits.performed]
    exact balance?_commit_source hopen hne
  · rw [hcommits.performed]
    exact balance?_commit_target hopen

theorem frame_openAccounts (u : UserId) :
    (l.users.contains u = true → (l.perform (.openAccounts u)).1 = l) ∧
    (l.users.contains u = false →
      (∀ v, v ≠ u → (l.perform (.openAccounts u)).1.users.get? v = l.users.get? v) ∧
      (l.perform (.openAccounts u)).1.rowsOf u = l.currencies ∧
      ∀ c, (l.perform (.openAccounts u)).1.balance? u c =
        if c ∈ l.currencies then some .zero else none) := by
  refine ⟨openAccounts_of_contains, fun hnew => ⟨fun v hv => get?_users_perform_of_ne hv,
    rowsOf_openAccounts_self l u hnew, fun c => ?_⟩⟩
  have hzeros : (l.perform (.openAccounts u)).1.balances u = Balances.zeros l.currencies :=
    balances_openAccounts_self l u hnew
  rw [balance?, hzeros, get?_zeros]

end Calls

/-! ### Step by step -/

/-- The next step of a worker leaves the ledger, or it does the whole of its call, with success. -/
def Crew.NextIsWhole (calls : List Call) (s : Crew) (i : Nat) : Prop :=
  (s.step i).shared.ledger = s.shared.ledger ∨
    ∃ call b, calls[i]? = some call ∧
      s.shared.ledger.perform call = ((s.step i).shared.ledger, .ok b) ∧
      s.outcome? i = none ∧ (s.step i).outcome? i = some (.ok b)

theorem Crew.Sound.nextIsWhole {s : Crew} {calls : List Call} (h : s.Sound calls) (i : Nat) :
    s.NextIsWhole calls i := by
  obtain ⟨hledger, -⟩ | ⟨call, hcall, hbefore, hledger, hafter⟩ := h.step_effect i
  · exact Or.inl hledger
  · have hself := hafter i
    rw [if_pos rfl] at hself
    cases hreply : (s.shared.ledger.perform call).2 with
    | ok b =>
      refine Or.inr ⟨call, b, hcall, ?_, hbefore, hself.trans (congrArg some hreply)⟩
      rw [hledger, ← hreply]
    | refused e => exact Or.inl (hledger.trans (perform_eq_of_not_isOk (by rw [hreply]; rfl)))
    | overflowed o => exact Or.inl (hledger.trans (perform_eq_of_not_isOk (by rw [hreply]; rfl)))

/-- Calls are atomic and stay within their rows. From any ledger: a call that is refused or broken
off leaves it as it was; a change of one account and a settlement write the rows that they name; the
accounts of a user are opened once, at zero; nobody's accounts are touched by the calls of others;
and in any interleaving each step leaves the ledger or does the whole of one call that succeeds. -/
theorem frame_perform (l : Ledger) :
    (∀ call, (l.perform call).2.isOk = false → (l.perform call).1 = l) ∧
    (∀ u c delta, (l.perform (.apply u c delta)).2.isOk = true →
      l.SameBesides (l.perform (.apply u c delta)).1 u [c] ∧
        ∃ current updated, l.balance? u c = some current ∧
          applyDelta c current delta = .ok updated ∧
          (l.perform (.apply u c delta)).1.balance? u c = some updated) ∧
    (∀ s, (l.perform (.settle s)).2.isOk = true →
      l.SameBesides (l.perform (.settle s)).1 s.user [s.source.currency, s.target.currency] ∧
        (l.perform (.settle s)).1.balance? s.user s.source.currency = some s.source.updated ∧
        (l.perform (.settle s)).1.balance? s.user s.target.currency = some s.target.updated) ∧
    (∀ u, (l.users.contains u = true → (l.perform (.openAccounts u)).1 = l) ∧
      (l.users.contains u = false →
        (∀ v, v ≠ u → (l.perform (.openAccounts u)).1.users.get? v = l.users.get? v) ∧
        (l.perform (.openAccounts u)).1.rowsOf u = l.currencies ∧
        ∀ c, (l.perform (.openAccounts u)).1.balance? u c =
          if c ∈ l.currencies then some .zero else none)) ∧
    (∀ u, (l.perform (.balances u)).1 = l) ∧
    (∀ call v, v ≠ call.user → (l.perform call).1.users.get? v = l.users.get? v) ∧
    (∀ calls schedule i, ((Crew.start l calls).run schedule).NextIsWhole calls i) := by
  refine ⟨fun _ => perform_eq_of_not_isOk, fun _ _ _ => l.frame_apply, fun _ => l.frame_settle,
    l.frame_openAccounts, fun _ => rfl, fun _ _ => get?_users_perform_of_ne,
    fun calls schedule => ((Crew.sound_start l calls).run schedule).nextIsWhole⟩

end CurrencyWallet.Ledger

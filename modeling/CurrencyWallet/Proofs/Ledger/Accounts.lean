import CurrencyWallet.Ledger.Memory
import CurrencyWallet.Proofs.Decimal.Value
import Mathlib.Data.List.Basic

/-!
What calls do to accounts. A call opens accounts, changes nothing, or commits a revision of its own
rows (`perform_cases`); whoever has accounts keeps them, with a row and a balance in each currency
of the ledger, and rows that a call does not name keep their balances.
-/
namespace CurrencyWallet.Ledger

def value? (l : Ledger) (u : UserId) (c : Currency) : Option ℚ :=
  (l.balance? u c).map Decimal.toRat

/-! ### Revisions -/

theorem get?_writeTo_of_not_mem {revision : Revision} {b : Balances} {c : Currency}
    (h : ∀ e ∈ revision, e.1 ≠ c) : (revision.writeTo b).get? c = b.get? c := by
  induction revision generalizing b with
  | nil => rfl
  | cons e revision ih =>
    have hne : c ≠ e.1 := (h e List.mem_cons_self).symm
    rw [Revision.writeTo, List.foldl_cons]
    exact (ih fun e he => h e (List.mem_cons_of_mem _ he)).trans (b.get?_insert_of_ne hne _)

theorem get?_writeTo_of_mem {revision : Revision} {b : Balances} {c : Currency}
    (h : ∃ e ∈ revision, e.1 = c) :
    ∃ v, (c, v) ∈ revision ∧ (revision.writeTo b).get? c = some v := by
  induction revision generalizing b with
  | nil => obtain ⟨e, he, -⟩ := h; cases he
  | cons e revision ih =>
    by_cases hlater : ∃ e ∈ revision, e.1 = c
    · obtain ⟨v, hv, hget⟩ := ih (b := b.insert e.1 e.2) hlater
      exact ⟨v, List.mem_cons_of_mem _ hv, hget⟩
    · obtain ⟨e', he', hc⟩ := h
      obtain rfl | he' := List.mem_cons.1 he'
      · refine ⟨e'.2, hc ▸ List.mem_cons_self, ?_⟩
        rw [Revision.writeTo, List.foldl_cons]
        refine (get?_writeTo_of_not_mem fun e he heq => hlater ⟨e, he, heq⟩).trans ?_
        rw [hc, Table.get?_insert_self]
      · exact absurd ⟨e', he', hc⟩ hlater

theorem isSome_get?_writeTo {revision : Revision} {b : Balances} {c : Currency}
    (h : ∀ e ∈ revision, (b.get? e.1).isSome) :
    ((revision.writeTo b).get? c).isSome = (b.get? c).isSome := by
  by_cases hmem : ∃ e ∈ revision, e.1 = c
  · obtain ⟨v, hv, hget⟩ := get?_writeTo_of_mem (b := b) hmem
    rw [hget, h (c, v) hv]
    rfl
  · rw [get?_writeTo_of_not_mem fun e he heq => hmem ⟨e, he, heq⟩]

section Commit

variable (l : Ledger) (u v : UserId) (revision : Revision)

@[simp] theorem currencies_commit : (l.commit u revision).currencies = l.currencies := by
  unfold commit
  split <;> rfl

theorem get?_users_commit :
    (l.commit u revision).users.get? v =
      if v = u then (l.users.get? u).map fun a => { a with balances := revision.writeTo a.balances }
      else l.users.get? v := by
  unfold commit
  split
  · rename_i h
    split
    · rename_i heq
      rw [heq, h]
      rfl
    · rfl
  · rename_i h
    rw [Table.get?_insert, h]
    rfl

@[simp] theorem contains_commit : (l.commit u revision).users.contains v = l.users.contains v := by
  rw [Table.contains, get?_users_commit]
  split
  · rename_i h
    rw [h, Option.isSome_map, Table.contains]
  · rfl

@[simp] theorem rowsOf_commit : (l.commit u revision).rowsOf v = l.rowsOf v := by
  rw [rowsOf, rowsOf, get?_users_commit]
  split
  · rename_i h
    rw [h, Option.map_map]
    rfl
  · rfl

theorem balances_commit (h : l.users.contains u = true) :
    (l.commit u revision).balances u = revision.writeTo (l.balances u) := by
  obtain ⟨a, ha⟩ := Option.isSome_iff_exists.1 h
  rw [balances, balances, get?_users_commit, if_pos rfl, ha]
  rfl

theorem balances_commit_of_ne (h : v ≠ u) : (l.commit u revision).balances v = l.balances v := by
  rw [balances, get?_users_commit, if_neg h, balances]

end Commit

/-! ### Opening -/

section Opening

variable (l : Ledger) (u v : UserId)

@[simp] theorem currencies_openAccounts : (l.openAccounts u).1.currencies = l.currencies := by
  unfold openAccounts
  split <;> rfl

theorem get?_users_openAccounts :
    (l.openAccounts u).1.users.get? v =
      if v = u then some ((l.users.get? u).getD (.opened l.currencies)) else l.users.get? v := by
  unfold openAccounts
  split
  · rename_i h
    split
    · rename_i heq
      rw [heq, h]
      rfl
    · rfl
  · rename_i h
    rw [Table.get?_insert, h]
    rfl

theorem eq_of_contains_openAccounts {l : Ledger} {u v : UserId} (hnew : l.users.contains v = false)
    (h : (l.openAccounts u).1.users.contains v = true) : v = u := by
  by_contra hne
  rw [Table.contains, get?_users_openAccounts, if_neg hne] at h
  exact absurd h (Bool.eq_false_iff.1 hnew)

theorem get?_users_openAccounts_of_contains (h : l.users.contains v = true) :
    (l.openAccounts u).1.users.get? v = l.users.get? v := by
  rw [get?_users_openAccounts]
  split
  · rename_i heq
    subst heq
    obtain ⟨a, ha⟩ := Option.isSome_iff_exists.1 h
    rw [ha]
    rfl
  · rfl

theorem get?_zeros (cs : List Currency) (c : Currency) :
    (Balances.zeros cs).get? c = if c ∈ cs then some .zero else none := by
  have hwrite : Balances.zeros cs = Revision.writeTo (cs.map fun c => (c, .zero)) ∅ := rfl
  rw [hwrite]
  split
  · rename_i h
    have hmem : (c, Decimal.zero) ∈ cs.map fun c => (c, Decimal.zero) :=
      List.mem_map_of_mem (f := fun c => (c, Decimal.zero)) h
    obtain ⟨v, hv, hget⟩ := get?_writeTo_of_mem (b := ∅) ⟨_, hmem, rfl⟩
    obtain ⟨c', -, heq⟩ := List.mem_map.1 hv
    cases heq
    exact hget
  · rename_i h
    refine get?_writeTo_of_not_mem fun e he heq => h ?_
    obtain ⟨c', hc', rfl⟩ := List.mem_map.1 he
    exact heq ▸ hc'

theorem openAccounts_snd :
    (l.openAccounts u).2 = (l.openAccounts u).1.balances u := by
  rw [balances, get?_users_openAccounts, if_pos rfl]
  unfold openAccounts
  cases l.users.get? u <;> rfl

theorem balances_openAccounts_self (h : l.users.contains u = false) :
    (l.openAccounts u).1.balances u = Balances.zeros l.currencies := by
  rw [balances, get?_users_openAccounts, if_pos rfl, Table.get?_of_not_contains h]
  rfl

theorem rowsOf_openAccounts_self (h : l.users.contains u = false) :
    (l.openAccounts u).1.rowsOf u = l.currencies := by
  rw [rowsOf, get?_users_openAccounts, if_pos rfl, Table.get?_of_not_contains h]
  rfl

end Opening

/-! ### Calls -/

theorem contains_of_mem_rowsOf {l : Ledger} {u : UserId} {c : Currency} (h : c ∈ l.rowsOf u) :
    l.users.contains u = true := by
  rw [Table.contains]
  unfold rowsOf at h
  cases hget : l.users.get? u with
  | none => rw [hget] at h; cases h
  | some _ => rfl

theorem screen_apply_eq_ok {l : Ledger} {u : UserId} {c : Currency} {delta : Decimal} :
    l.screen (.apply u c delta) = .ok () ↔ c ∈ l.currencies ∧ c ∈ l.rowsOf u := by
  simp only [screen]
  split
  · rename_i hc
    split
    · rename_i hrow
      exact iff_of_true rfl ⟨hc, hrow⟩
    · rename_i hrow
      exact iff_of_false nofun fun h => hrow h.2
  · rename_i hc
    exact iff_of_false nofun fun h => hc h.1

theorem screen_settle_eq_ok {l : Ledger} {s : Settlement} :
    l.screen (.settle s) = .ok () ↔ s.validate = .ok () ∧ l.users.contains s.user = true := by
  have hscreen : l.screen (.settle s) = s.validate >>= fun _ =>
      if l.users.contains s.user then .ok () else .error (s.missing s.source.currency) := rfl
  rw [hscreen]
  cases s.validate with
  | error e => exact iff_of_false nofun nofun
  | ok _ =>
    change (if l.users.contains s.user = true then Except.ok () else _) = _ ↔ _
    split
    · rename_i hopen
      exact iff_of_true rfl ⟨rfl, hopen⟩
    · rename_i hopen
      exact iff_of_false nofun fun h => hopen h.2

theorem contains_of_screen {l : Ledger} {call : Call} (h : l.screen call = .ok ())
    (hrows : call.rows ≠ []) : l.users.contains call.user = true := by
  cases call with
  | openAccounts u => exact absurd rfl hrows
  | balances u => exact absurd rfl hrows
  | apply u c delta => exact contains_of_mem_rowsOf (screen_apply_eq_ok.1 h).2
  | settle s => exact (screen_settle_eq_ok.1 h).2

theorem mem_rows_settle {s : Settlement} {c : Currency} :
    c ∈ (Call.settle s).rows ↔ c = s.source.currency ∨ c = s.target.currency := by
  change c ∈ s.lockOrder.map (·.currency) ↔ _
  unfold Settlement.lockOrder
  split <;> simp [or_comm]

theorem rows_settle_ne_nil (s : Settlement) : (Call.settle s).rows ≠ [] :=
  List.ne_nil_of_mem (mem_rows_settle.2 (Or.inl rfl))

theorem revision_apply_eq_ok {u : UserId} {c : Currency} {delta : Decimal} {b : Balances}
    {revision : Revision} (h : (Call.apply u c delta).revision b = .ok revision) :
    ∃ current updated, b.get? c = some current ∧ applyDelta c current delta = .ok updated ∧
      revision = [(c, updated)] := by
  simp only [Call.revision] at h
  split at h
  · cases h
  · rename_i current hcurrent
    obtain ⟨updated, hupdated, hrevision⟩ := Attempt.bind_eq_ok.1 h
    cases hrevision
    exact ⟨current, updated, hcurrent, hupdated, rfl⟩

theorem mem_rows_of_mem_revision {call : Call} {b : Balances} {revision : Revision}
    (h : call.revision b = .ok revision) {e : Currency × Decimal} (he : e ∈ revision) :
    e.1 ∈ call.rows := by
  cases call with
  | openAccounts u => cases h; cases he
  | balances u => cases h; cases he
  | apply u c delta =>
    obtain ⟨current, updated, -, -, rfl⟩ := revision_apply_eq_ok h
    obtain rfl := List.mem_singleton.1 he
    exact List.mem_singleton_self c
  | settle s =>
    simp only [Call.revision] at h
    split at h
    · cases h
    · cases h
      refine mem_rows_settle.2 ?_
      obtain rfl | he := List.mem_cons.1 he
      · exact Or.inl rfl
      · exact Or.inr (List.mem_singleton.1 he ▸ rfl)

structure Commits (l : Ledger) (call : Call) (revision : Revision) : Prop where
  screened : l.screen call = .ok ()
  opened : l.users.contains call.user = true
  rows : ∀ c ∈ call.rows, c ∈ l.rowsOf call.user
  revised : call.revision (l.balances call.user) = .ok revision
  performed : l.perform call =
    (l.commit call.user revision, .ok ((l.commit call.user revision).balances call.user))

theorem change_of_error {l : Ledger} {call : Call} {e : LedgerError}
    (h : l.screen call = .error e) : l.change call = (l, .refused e) := by
  unfold change
  rw [h]

theorem change_of_missing {l : Ledger} {call : Call} {c : Currency} {held wanted : List Currency}
    (hscreen : l.screen call = .ok ()) (hrows : call.rows = held ++ c :: wanted)
    (hheld : ∀ x ∈ held, x ∈ l.rowsOf call.user) (hc : c ∉ l.rowsOf call.user) :
    l.change call = (l, .refused (call.missing c)) := by
  have hfind : call.rows.find? (· ∉ l.rowsOf call.user) = some c := by
    rw [hrows, List.find?_append, List.find?_eq_none.2 fun x hx => by simpa using hheld x hx]
    simp [hc]
  unfold change
  rw [hscreen]
  simp only
  rw [hfind]

theorem change_of_rows {l : Ledger} {call : Call} (hscreen : l.screen call = .ok ())
    (hrows : ∀ c ∈ call.rows, c ∈ l.rowsOf call.user) :
    l.change call = match call.revision (l.balances call.user) with
      | .refused e => (l, .refused e)
      | .overflowed o => (l, .overflowed o)
      | .ok revision => (l.commit call.user revision,
          .ok ((l.commit call.user revision).balances call.user)) := by
  have hfind : call.rows.find? (· ∉ l.rowsOf call.user) = none :=
    List.find?_eq_none.2 fun c hc => by simpa using hrows c hc
  unfold change
  cases hrevision : call.revision (l.balances call.user) with
  | ok revision => simp only [hscreen, hfind]
  | refused e => simp only [hscreen, hfind]
  | overflowed o => simp only [hscreen, hfind]

theorem change_cases (l : Ledger) {call : Call} (hrows : call.rows ≠ [])
    (hperform : l.perform call = l.change call) :
    ((l.perform call).1 = l ∧ (l.perform call).2.isOk = false) ∨
      ∃ revision, l.Commits call revision := by
  rw [hperform]
  cases hscreen : l.screen call with
  | error e => exact Or.inl (by rw [change_of_error hscreen]; exact ⟨rfl, rfl⟩)
  | ok _ =>
    cases hfind : call.rows.find? (· ∉ l.rowsOf call.user) with
    | some c =>
      left
      unfold change
      rw [hscreen]
      simp only
      rw [hfind]
      exact ⟨rfl, rfl⟩
    | none =>
      have hmem : ∀ c ∈ call.rows, c ∈ l.rowsOf call.user := fun c hc => by
        simpa using List.find?_eq_none.1 hfind c hc
      have hchange := change_of_rows hscreen hmem
      cases hrevision : call.revision (l.balances call.user) with
      | refused e => exact Or.inl (by rw [hchange, hrevision]; exact ⟨rfl, rfl⟩)
      | overflowed o => exact Or.inl (by rw [hchange, hrevision]; exact ⟨rfl, rfl⟩)
      | ok revision =>
        refine Or.inr ⟨revision, hscreen, contains_of_screen hscreen hrows, hmem, hrevision, ?_⟩
        rw [hperform, hchange, hrevision]

theorem apply_cases (l : Ledger) (u : UserId) (c : Currency) (delta : Decimal) :
    ((l.perform (.apply u c delta)).1 = l ∧ (l.perform (.apply u c delta)).2.isOk = false) ∨
      ∃ revision, l.Commits (.apply u c delta) revision :=
  change_cases l (List.cons_ne_nil _ _) rfl

theorem settle_commits (l : Ledger) (s : Settlement) :
    ((l.perform (.settle s)).1 = l ∧ (l.perform (.settle s)).2.isOk = false) ∨
      ∃ revision, l.Commits (.settle s) revision :=
  change_cases l (rows_settle_ne_nil s) rfl

/-- A call opens accounts, changes nothing, or commits. -/
theorem perform_cases (l : Ledger) (call : Call) :
    (∃ u, call = .openAccounts u ∧ (l.perform call).1 = (l.openAccounts u).1) ∨
      (l.perform call).1 = l ∨ ∃ revision, l.Commits call revision := by
  cases call with
  | openAccounts u => exact Or.inl ⟨u, rfl, rfl⟩
  | balances u => exact Or.inr (Or.inl rfl)
  | apply u c delta => exact Or.inr ((l.apply_cases u c delta).imp_left And.left)
  | settle s => exact Or.inr ((l.settle_commits s).imp_left And.left)

section Perform

variable {l : Ledger} {call : Call}

theorem Commits.isOk {revision : Revision} (h : l.Commits call revision) :
    (l.perform call).2.isOk = true := by
  rw [h.performed]
  rfl

theorem perform_eq_of_not_isOk (h : (l.perform call).2.isOk = false) :
    (l.perform call).1 = l := by
  obtain ⟨u, rfl, -⟩ | heq | ⟨revision, hcommits⟩ := l.perform_cases call
  · cases h
  · exact heq
  · rw [hcommits.isOk] at h
    cases h

@[simp] theorem currencies_perform : (l.perform call).1.currencies = l.currencies := by
  obtain ⟨u, -, h⟩ | h | ⟨revision, h⟩ := l.perform_cases call
  · rw [h, currencies_openAccounts]
  · rw [h]
  · rw [h.performed, currencies_commit]

theorem contains_perform {u : UserId} (hu : l.users.contains u = true) :
    (l.perform call).1.users.contains u = true := by
  obtain ⟨v, -, h⟩ | h | ⟨revision, h⟩ := l.perform_cases call
  · rw [h, Table.contains, get?_users_openAccounts_of_contains _ _ _ hu]
    exact hu
  · rwa [h]
  · rwa [h.performed, contains_commit]

theorem rowsOf_perform {u : UserId} (hu : l.users.contains u = true) :
    (l.perform call).1.rowsOf u = l.rowsOf u := by
  obtain ⟨v, -, h⟩ | h | ⟨revision, h⟩ := l.perform_cases call
  · rw [h, rowsOf, get?_users_openAccounts_of_contains _ _ _ hu, rowsOf]
  · rw [h]
  · rw [h.performed, rowsOf_commit]

theorem balance?_perform {u : UserId} {c : Currency} (hu : l.users.contains u = true)
    (hc : u = call.user → c ∉ call.rows) :
    (l.perform call).1.balance? u c = l.balance? u c := by
  obtain ⟨v, -, h⟩ | h | ⟨revision, h⟩ := l.perform_cases call
  · rw [h, balance?, balances, get?_users_openAccounts_of_contains _ _ _ hu, balance?, balances]
  · rw [h]
  · rw [h.performed, balance?, balance?]
    by_cases hv : u = call.user
    · subst hv
      rw [balances_commit _ _ _ hu]
      refine get?_writeTo_of_not_mem fun e he heq => hc rfl ?_
      exact heq ▸ mem_rows_of_mem_revision h.revised he
    · rw [balances_commit_of_ne _ _ _ _ hv]

theorem eq_or_mem_of_balance?_perform {u : UserId} {c : Currency} {b : Decimal}
    (h : (l.perform call).1.balance? u c = some b) :
    l.balance? u c = some b ∨ b = .zero ∨
      u = call.user ∧ ∃ revision, l.Commits call revision ∧ (c, b) ∈ revision := by
  obtain ⟨v, -, heq⟩ | heq | ⟨revision, hc⟩ := l.perform_cases call
  · rw [heq, balance?] at h
    obtain hopen | hnew := Bool.eq_false_or_eq_true (l.users.contains u)
    · rw [balances, get?_users_openAccounts_of_contains _ _ _ hopen] at h
      exact Or.inl h
    · by_cases hv : u = v
      · subst hv
        rw [balances_openAccounts_self l u hnew, get?_zeros] at h
        split at h
        · exact Or.inr (Or.inl (Option.some.inj h).symm)
        · cases h
      · rw [balances, get?_users_openAccounts, if_neg hv] at h
        exact Or.inl h
  · rw [heq] at h
    exact Or.inl h
  · rw [hc.performed, balance?] at h
    by_cases hu : u = call.user
    · subst hu
      rw [balances_commit _ _ _ hc.opened] at h
      by_cases hmem : ∃ e ∈ revision, e.1 = c
      · obtain ⟨v, hv, hget⟩ := get?_writeTo_of_mem (b := l.balances call.user) hmem
        rw [hget] at h
        obtain rfl := Option.some.inj h
        exact Or.inr (Or.inr ⟨rfl, revision, hc, hv⟩)
      · rw [get?_writeTo_of_not_mem fun e he heq => hmem ⟨e, he, heq⟩] at h
        exact Or.inl h
    · rw [balances_commit_of_ne _ _ _ _ hu] at h
      exact Or.inl h

end Perform

/-! ### Runs -/

/-- Every account of every user is in a currency of the ledger, with a row and a balance. -/
structure WellFormed (l : Ledger) : Prop where
  rows : ∀ u, l.users.contains u = true → l.rowsOf u = l.currencies
  accounts : ∀ u, l.users.contains u = true → ∀ c, (l.balance? u c).isSome ↔ c ∈ l.currencies

theorem wellFormed_new (cs : List Currency) : (new cs).WellFormed where
  rows u h := by cases h
  accounts u h := by cases h

theorem WellFormed.openAccounts {l : Ledger} (h : l.WellFormed) (u : UserId) :
    (l.openAccounts u).1.WellFormed where
  rows v hv := by
    rw [currencies_openAccounts]
    obtain hopen | hnew := Bool.eq_false_or_eq_true (l.users.contains v)
    · rw [rowsOf, get?_users_openAccounts_of_contains _ _ _ hopen]
      exact h.rows v hopen
    · obtain rfl := eq_of_contains_openAccounts hnew hv
      exact rowsOf_openAccounts_self l v hnew
  accounts v hv c := by
    rw [currencies_openAccounts, balance?]
    obtain hopen | hnew := Bool.eq_false_or_eq_true (l.users.contains v)
    · rw [balances, get?_users_openAccounts_of_contains _ _ _ hopen]
      exact h.accounts v hopen c
    · obtain rfl := eq_of_contains_openAccounts hnew hv
      rw [balances_openAccounts_self l v hnew, get?_zeros]
      by_cases hc : c ∈ l.currencies
      · simp [hc]
      · simp [hc]

theorem WellFormed.balance?_openAccounts {l : Ledger} (h : l.WellFormed) (u v : UserId)
    (c : Currency) :
    (l.openAccounts u).1.balance? v c =
      if v = u ∧ c ∈ l.currencies then some ((l.balance? v c).getD .zero) else l.balance? v c := by
  obtain hopen | hnew := Bool.eq_false_or_eq_true (l.users.contains v)
  · have hsame : (l.openAccounts u).1.balance? v c = l.balance? v c := by
      rw [balance?, balances, get?_users_openAccounts_of_contains _ _ _ hopen, balance?, balances]
    rw [hsame]
    split
    · rename_i hrow
      obtain ⟨b, hb⟩ := Option.isSome_iff_exists.1 ((h.accounts v hopen c).2 hrow.2)
      rw [hb, Option.getD_some]
    · rfl
  · by_cases hv : v = u
    · subst hv
      have hnone : l.balance? v c = none := by
        rw [balance?, balances, Table.get?_of_not_contains hnew]
        rfl
      rw [balance?, balances_openAccounts_self l v hnew, get?_zeros, hnone]
      simp
    · rw [balance?, balances, get?_users_openAccounts, if_neg hv, if_neg fun hrow => hv hrow.1,
        balance?, balances]

theorem WellFormed.commit {l : Ledger} (h : l.WellFormed) {call : Call} {revision : Revision}
    (hc : l.Commits call revision) : (l.commit call.user revision).WellFormed where
  rows v hv := by
    rw [contains_commit] at hv
    rw [rowsOf_commit, currencies_commit, h.rows v hv]
  accounts v hv c := by
    rw [contains_commit] at hv
    rw [currencies_commit, ← h.accounts v hv c, balance?, balance?]
    by_cases heq : v = call.user
    · subst heq
      rw [balances_commit _ _ _ hv, isSome_get?_writeTo fun e he => ?_]
      refine (h.accounts _ hv e.1).2 ?_
      rw [← h.rows _ hv]
      exact hc.rows _ (mem_rows_of_mem_revision hc.revised he)
    · rw [balances_commit_of_ne _ _ _ _ heq]

theorem WellFormed.perform {l : Ledger} (h : l.WellFormed) (call : Call) :
    (l.perform call).1.WellFormed := by
  obtain ⟨v, -, heq⟩ | heq | ⟨revision, hc⟩ := l.perform_cases call
  · rw [heq]
    exact h.openAccounts v
  · rwa [heq]
  · rw [hc.performed]
    exact h.commit hc

theorem WellFormed.run {l : Ledger} (h : l.WellFormed) (calls : List Call) :
    (l.run calls).WellFormed := by
  induction calls generalizing l with
  | nil => exact h
  | cons call calls ih => exact ih (h.perform call)

@[simp] theorem currencies_run (l : Ledger) (calls : List Call) :
    (l.run calls).currencies = l.currencies := by
  induction calls generalizing l with
  | nil => rfl
  | cons call calls ih => rw [run, ih, currencies_perform]

theorem contains_run {l : Ledger} {u : UserId} (hu : l.users.contains u = true)
    (calls : List Call) : (l.run calls).users.contains u = true := by
  induction calls generalizing l with
  | nil => exact hu
  | cons call calls ih => exact ih (contains_perform hu)

theorem contains_of_balance? {l : Ledger} {u : UserId} {c : Currency} {b : Decimal}
    (h : l.balance? u c = some b) : l.users.contains u = true := by
  rw [Table.contains]
  unfold balance? balances at h
  cases hget : l.users.get? u with
  | none => rw [hget] at h; cases h
  | some _ => rfl

end CurrencyWallet.Ledger

import CurrencyWallet.Proofs.Decimal.Range
import CurrencyWallet.Proofs.Ledger.Settling

/-!
Balances as amounts of money. A ledger that is changed by amounts in full cents holds such amounts,
none below zero, and as long as they stay below `amountLimit` every change is exact.
-/
namespace CurrencyWallet

open Decimal (amountScale amountLimit)

/-! ### One change -/

section Delta

variable {c : Currency} {current delta updated : Decimal}

theorem applyDelta_eq_ok : applyDelta c current delta = .ok updated ↔
    current.add delta = .ok updated ∧ ¬ (delta.IsNegative ∧ updated.IsNegative) := by
  unfold applyDelta
  cases current.add delta with
  | error o => exact iff_of_false nofun nofun
  | ok sum =>
    simp only
    split
    · rename_i hneg
      refine iff_of_false nofun fun h => h.2 ?_
      rwa [← Except.ok.inj h.1]
    · rename_i hneg
      constructor
      · intro h
        cases h
        exact ⟨rfl, hneg⟩
      · rintro ⟨h, -⟩
        cases h
        rfl

theorem applyDelta_deposit {amount : Decimal} (h : amount.IsPositive) :
    applyDelta c current amount = .ofArithmetic (current.add amount) := by
  have hcredit : ¬ amount.IsNegative := not_lt.2 (le_of_lt h)
  unfold applyDelta
  cases current.add amount with
  | error o => rfl
  | ok updated => exact if_neg fun hneg => hcredit hneg.1

theorem applyDelta_withdraw {amount : Decimal} (hcurrent : ¬ current.IsNegative)
    (h : amount.IsPositive) :
    applyDelta c current (-amount) =
      if current < amount then .refused (.insufficientFunds c amount current)
      else .ofArithmetic (current.sub amount) := by
  have hamount : 0 ≤ amount.toRat := Decimal.toRat_nonneg_iff.2 (le_of_lt h)
  have hdebit : (-amount).IsNegative := neg_lt_zero.2 h
  rw [Decimal.isNegative_iff, not_lt] at hcurrent
  obtain ⟨updated, hsub⟩ := Decimal.exists_sub_of_nonneg hcurrent hamount
  unfold applyDelta
  rw [Decimal.sub_eq_ok hsub, hsub]
  by_cases hshort : current < amount
  · have hneg : updated.IsNegative :=
      Decimal.isNegative_iff.2 (Decimal.toRat_sub_neg (Decimal.lt_iff_toRat.1 hshort) hsub)
    simp only [if_pos hshort, if_pos (And.intro hdebit hneg), Decimal.neg_neg]
  · have hnonneg : ¬ updated.IsNegative := by
      rw [Decimal.lt_iff_toRat, not_lt] at hshort
      rw [Decimal.isNegative_iff, not_lt]
      exact Decimal.toRat_sub_nonneg hshort hsub
    simp only [if_neg hshort, if_neg fun hneg : _ ∧ _ => hnonneg hneg.2]
    rfl

theorem isMoney_of_applyDelta (hcurrent : current.IsMoney) (hdelta : delta.scale ≤ amountScale)
    (h : applyDelta c current delta = .ok updated) : updated.IsMoney := by
  obtain ⟨hadd, hneg⟩ := applyDelta_eq_ok.1 h
  refine ⟨(Decimal.scale_add_le hadd).trans (max_le hcurrent.places hdelta), ?_⟩
  by_cases hdebit : delta.IsNegative
  · refine not_lt.1 fun hlt => hneg ⟨hdebit, Decimal.isNegative_iff.2 hlt⟩
  · rw [Decimal.isNegative_iff, not_lt] at hdebit
    exact Decimal.toRat_add_nonneg hcurrent.nonneg hdebit hadd

theorem toRat_of_applyDelta (hcurrent : current.IsMoney) (hdelta : delta.scale ≤ amountScale)
    (h : applyDelta c current delta = .ok updated) (hlt : updated.toRat < amountLimit) :
    updated.toRat = current.toRat + delta.toRat := by
  have hmoney := isMoney_of_applyDelta hcurrent hdelta h
  exact Decimal.toRat_add hcurrent.places hdelta (applyDelta_eq_ok.1 h).1 (hmoney.abs_lt hlt)

end Delta

namespace Ledger

def amount (l : Ledger) (u : UserId) (c : Currency) : ℚ := (l.value? u c).getD 0

def HoldsMoney (l : Ledger) : Prop := ∀ u c b, l.balance? u c = some b → b.IsMoney

def InRange (l : Ledger) : Prop :=
  ∀ u c b, l.balance? u c = some b → b.toRat < amountLimit

theorem inRange_of_forall {l : Ledger}
    (h : ∀ e ∈ l.users.toList, ∀ f ∈ e.2.balances.toList, f.2.toRat < amountLimit) : l.InRange := by
  intro u c b hb
  unfold balance? balances at hb
  cases hu : l.users.get? u with
  | none =>
    rw [hu] at hb
    cases hb
  | some accounts =>
    rw [hu] at hb
    have he : (u, accounts) ∈ l.users.toList := Table.mem_toList_of_get? hu
    have hf : (c, b) ∈ accounts.balances.toList := Table.mem_toList_of_get? hb
    exact h (u, accounts) he (c, b) hf

theorem amount_of_balance? {l : Ledger} {u : UserId} {c : Currency} {b : Decimal}
    (h : l.balance? u c = some b) : l.amount u c = b.toRat := by
  rw [amount, value?, h]
  rfl

theorem amount_congr {l l' : Ledger} {u : UserId} {c : Currency}
    (h : l'.balance? u c = l.balance? u c) : l'.amount u c = l.amount u c := by
  rw [amount, value?, h, amount, value?]

theorem holdsMoney_new (cs : List Currency) : (new cs).HoldsMoney := fun _ _ _ h => by cases h

/-! ### Opening -/

section Opening

variable {l : Ledger} {u : UserId}

theorem balance?_openAccounts (l : Ledger) (u v : UserId) (c : Currency) :
    (l.openAccounts u).1.balance? v c = l.balance? v c ∨
      l.balance? v c = none ∧ (l.openAccounts u).1.balance? v c = some .zero := by
  obtain hopen | hnew := Bool.eq_false_or_eq_true (l.users.contains v)
  · left
    rw [balance?, balances, get?_users_openAccounts_of_contains _ _ _ hopen, balance?, balances]
  · by_cases hv : v = u
    · subst hv
      have hnone : l.balance? v c = none := by
        cases hb : l.balance? v c with
        | none => rfl
        | some b =>
          rw [contains_of_balance? hb] at hnew
          cases hnew
      rw [balance?, balances_openAccounts_self l v hnew, get?_zeros, hnone]
      split
      · exact Or.inr ⟨rfl, rfl⟩
      · exact Or.inl rfl
    · left
      rw [balance?, balances, get?_users_openAccounts, if_neg hv, balance?, balances]

theorem HoldsMoney.openAccounts (h : l.HoldsMoney) (u : UserId) :
    (l.openAccounts u).1.HoldsMoney := by
  intro v c b hb
  obtain heq | ⟨-, hzero⟩ := l.balance?_openAccounts u v c
  · exact h v c b (heq ▸ hb)
  · rw [hzero] at hb
    cases hb
    exact Decimal.isMoney_zero

theorem amount_openAccounts (l : Ledger) (u v : UserId) (c : Currency) :
    (l.openAccounts u).1.amount v c = l.amount v c := by
  obtain heq | ⟨hnone, hzero⟩ := l.balance?_openAccounts u v c
  · exact amount_congr heq
  · rw [amount_of_balance? hzero, amount, value?, hnone, Decimal.toRat_zero]
    rfl

end Opening

/-! ### Changes of one account -/

section Apply

variable {l : Ledger} {u : UserId} {c : Currency} {delta : Decimal} {revision : Revision}

theorem Commits.apply (h : l.Commits (.apply u c delta) revision) :
    ∃ current updated, l.balance? u c = some current ∧
      applyDelta c current delta = .ok updated ∧
      (l.perform (.apply u c delta)).1 = l.commit u [(c, updated)] := by
  obtain ⟨current, updated, hcurrent, hupdated, rfl⟩ := revision_apply_eq_ok h.revised
  exact ⟨current, updated, hcurrent, hupdated, by rw [h.performed]; rfl⟩

theorem perform_apply (hl : l.WellFormed) (u : UserId) (c : Currency) (delta : Decimal) :
    l.perform (.apply u c delta) =
      if c ∈ l.currencies then
        match l.balance? u c with
        | none => (l, .refused (.accountNotFound c))
        | some current =>
          match applyDelta c current delta with
          | .ok updated =>
            (l.commit u [(c, updated)], .ok ((l.commit u [(c, updated)]).balances u))
          | .refused e => (l, .refused e)
          | .overflowed o => (l, .overflowed o)
      else (l, .refused (.currencyNotFound c)) := by
  have hperform : l.perform (.apply u c delta) = l.change (.apply u c delta) := rfl
  rw [hperform]
  by_cases hc : c ∈ l.currencies
  · rw [if_pos hc]
    cases hb : l.balance? u c with
    | none =>
      have hrow : c ∉ l.rowsOf u := by
        intro hrow
        have hsome := (hl.accounts u (contains_of_mem_rowsOf hrow) c).2 hc
        rw [hb] at hsome
        cases hsome
      have hscreen : l.screen (.apply u c delta) = .error (.accountNotFound c) := by
        simp only [screen, if_pos hc, if_neg hrow]
      rw [change_of_error hscreen]
    | some current =>
      have hrow : c ∈ l.rowsOf u := by
        rw [hl.rows u (contains_of_balance? hb)]
        exact hc
      have hrows : ∀ d ∈ (Call.apply u c delta).rows, d ∈ l.rowsOf u := by
        intro d hd
        rwa [List.mem_singleton.1 hd]
      have hget : (l.balances u).get? c = some current := hb
      rw [change_of_rows (screen_apply_eq_ok.2 ⟨hc, hrow⟩) hrows]
      simp only [Call.revision, Call.user, hget]
      cases applyDelta c current delta <;> rfl
  · have hscreen : l.screen (.apply u c delta) = .error (.currencyNotFound c) := by
      simp only [screen, if_neg hc]
    rw [if_neg hc, change_of_error hscreen]

theorem balance?_commit_one (hopen : l.users.contains u = true) (updated : Decimal)
    (v : UserId) (d : Currency) :
    (l.commit u [(c, updated)]).balance? v d =
      if v = u ∧ d = c then some updated else l.balance? v d := by
  by_cases hv : v = u
  · subst hv
    have hwrite : Revision.writeTo [(c, updated)] (l.balances v) =
      (l.balances v).insert c updated := rfl
    rw [balance?, balances_commit _ _ _ hopen, hwrite, Table.get?_insert, balance?]
    simp
  · rw [balance?, balances_commit_of_ne _ _ _ _ hv, if_neg fun h => hv h.1, balance?]

theorem HoldsMoney.apply (h : l.HoldsMoney) (hdelta : delta.scale ≤ amountScale) :
    (l.perform (.apply u c delta)).1.HoldsMoney := by
  obtain ⟨heq, -⟩ | ⟨revision, hcommits⟩ := l.apply_cases u c delta
  · rwa [heq]
  · obtain ⟨current, updated, hcurrent, hupdated, heq⟩ := hcommits.apply
    have hopen : l.users.contains u = true := hcommits.opened
    have hmoney := isMoney_of_applyDelta (h u c current hcurrent) hdelta hupdated
    intro v d b hb
    rw [heq, balance?_commit_one hopen] at hb
    split at hb
    · cases hb
      exact hmoney
    · exact h v d b hb

/-- A change that succeeds moves its account by exactly its delta, and nothing else. -/
theorem amount_apply (h : l.HoldsMoney) (hdelta : delta.scale ≤ amountScale)
    (hrange : (l.perform (.apply u c delta)).1.InRange) (v : UserId) (d : Currency) :
    (l.perform (.apply u c delta)).1.amount v d = l.amount v d +
      if (l.perform (.apply u c delta)).2.isOk ∧ u = v ∧ c = d then delta.toRat else 0 := by
  obtain ⟨heq, hfailed⟩ | ⟨revision, hcommits⟩ := l.apply_cases u c delta
  · rw [heq, hfailed]
    simp
  · obtain ⟨current, updated, hcurrent, hupdated, heq⟩ := hcommits.apply
    have hopen : l.users.contains u = true := hcommits.opened
    rw [hcommits.isOk]
    rw [heq] at hrange ⊢
    by_cases hrow : v = u ∧ d = c
    · obtain ⟨rfl, rfl⟩ := hrow
      have hafter : (l.commit v [(d, updated)]).balance? v d = some updated := by
        rw [balance?_commit_one hopen, if_pos ⟨rfl, rfl⟩]
      rw [if_pos ⟨rfl, rfl, rfl⟩, amount_of_balance? hafter, amount_of_balance? hcurrent]
      exact toRat_of_applyDelta (h v d current hcurrent) hdelta hupdated (hrange v d _ hafter)
    · rw [if_neg fun h => hrow ⟨h.2.1.symm, h.2.2.symm⟩, add_zero]
      refine amount_congr ?_
      rw [balance?_commit_one hopen, if_neg hrow]

end Apply

end Ledger

end CurrencyWallet

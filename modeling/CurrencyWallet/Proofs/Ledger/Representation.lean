import CurrencyWallet.Proofs.Ledger.Money
import CurrencyWallet.Proofs.Ledger.Serialization

/-!
What a ledger holds after any calls, those that are refused or broken off among them, and at any
time between the steps of calls that run side by side: a row and a balance in exactly its currencies
for exactly those whose accounts were opened, and no balance below zero.
-/
namespace CurrencyWallet.Ledger

/-! ### Balances are never below zero -/

def NonNegative (l : Ledger) : Prop := ∀ u c b, l.balance? u c = some b → ¬ b.IsNegative

theorem nonNegative_new (cs : List Currency) : (new cs).NonNegative := fun _ _ _ h => by cases h

/-- A change with any delta, of any number of places, leaves nothing below zero: a debit is checked
after the addition, and a credit to what is not below zero cannot get there. -/
theorem not_isNegative_of_applyDelta {c : Currency} {current delta updated : Decimal}
    (hcurrent : ¬ current.IsNegative) (h : applyDelta c current delta = .ok updated) :
    ¬ updated.IsNegative := by
  obtain ⟨hadd, hdebit⟩ := applyDelta_eq_ok.1 h
  by_cases hdelta : delta.IsNegative
  · exact fun hneg => hdebit ⟨hdelta, hneg⟩
  · rw [Decimal.isNegative_iff, not_lt] at hcurrent hdelta ⊢
    exact Decimal.toRat_add_nonneg hcurrent hdelta hadd

theorem NonNegative.of_commits {l : Ledger} {call : Call} {revision : Revision} (h : l.NonNegative)
    (hc : l.Commits call revision) {e : Currency × Decimal} (he : e ∈ revision) :
    ¬ e.2.IsNegative := by
  obtain ⟨u, c, delta, current, rfl, hcurrent, hupdated⟩ | ⟨s, rfl, hvalid, hleg⟩ := hc.written he
  · exact not_isNegative_of_applyDelta (h u c current hcurrent) hupdated
  · obtain ⟨-, hsource, htarget⟩ := Settlement.validate_eq_ok.1 hvalid
    obtain heq | heq := hleg
    · rwa [heq]
    · rwa [heq]

theorem NonNegative.perform {l : Ledger} (h : l.NonNegative) (call : Call) :
    (l.perform call).1.NonNegative := by
  intro u c b hb
  obtain hbefore | rfl | ⟨-, revision, hc, hmem⟩ := eq_or_mem_of_balance?_perform hb
  · exact h u c b hbefore
  · decide
  · exact h.of_commits hc hmem

theorem NonNegative.run {l : Ledger} (h : l.NonNegative) (calls : List Call) :
    (l.run calls).NonNegative := by
  induction calls generalizing l with
  | nil => exact h
  | cons call calls ih => exact ih (h.perform call)

/-! ### Accounts are opened and stay -/

section Opened

variable {l : Ledger} {u : UserId}

theorem contains_openAccounts_iff (l : Ledger) (u v : UserId) :
    (l.openAccounts v).1.users.contains u = true ↔ l.users.contains u = true ∨ v = u := by
  rw [Table.contains, get?_users_openAccounts]
  by_cases h : u = v
  · rw [if_pos h]
    exact iff_of_true rfl (Or.inr h.symm)
  · rw [if_neg h, or_iff_left (Ne.symm h)]
    rfl

theorem contains_perform_iff (call : Call) :
    (l.perform call).1.users.contains u = true ↔
      l.users.contains u = true ∨ call = .openAccounts u := by
  cases call with
  | openAccounts v =>
    rw [Call.openAccounts.injEq]
    exact l.contains_openAccounts_iff u v
  | balances v =>
    rw [or_iff_left nofun]
    rfl
  | apply v c delta =>
    rw [or_iff_left nofun]
    obtain ⟨heq, -⟩ | ⟨revision, hc⟩ := l.apply_cases v c delta
    · rw [heq]
    · rw [hc.performed, contains_commit]
  | settle s =>
    rw [or_iff_left nofun]
    obtain ⟨heq, -⟩ | ⟨revision, hc⟩ := l.settle_commits s
    · rw [heq]
    · rw [hc.performed, contains_commit]

theorem contains_run_iff (calls : List Call) :
    (l.run calls).users.contains u = true ↔
      l.users.contains u = true ∨ .openAccounts u ∈ calls := by
  induction calls generalizing l with
  | nil =>
    rw [or_iff_left List.not_mem_nil]
    rfl
  | cons call calls ih =>
    rw [run, ih, contains_perform_iff, List.mem_cons, or_assoc, eq_comm (a := call)]

theorem rowsOf_of_not_contains (h : ¬ l.users.contains u = true) : l.rowsOf u = [] := by
  rw [rowsOf, Table.get?_of_not_contains (Bool.eq_false_iff.2 h)]
  rfl

theorem balance?_of_not_contains (h : ¬ l.users.contains u = true) (c : Currency) :
    l.balance? u c = none := by
  rw [balance?, balances, Table.get?_of_not_contains (Bool.eq_false_iff.2 h)]
  rfl

end Opened

/-! ### The accounts of a ledger -/

/-- Exactly the opened users have accounts, with a row and a balance in exactly these currencies,
and no balance is below zero. -/
structure Represents (l : Ledger) (cs : List Currency) (opened : UserId → Prop) : Prop where
  rows : ∀ u c, c ∈ l.rowsOf u ↔ opened u ∧ c ∈ cs
  balances : ∀ u c, (l.balance? u c).isSome ↔ opened u ∧ c ∈ cs
  nonNegative : l.NonNegative

theorem represents_run (cs : List Currency) (calls : List Call) :
    ((new cs).run calls).Represents cs fun u => .openAccounts u ∈ calls := by
  have hwell := (wellFormed_new cs).run calls
  have hopened : ∀ u, ((new cs).run calls).users.contains u = true ↔ .openAccounts u ∈ calls :=
    fun u => (contains_run_iff calls).trans (or_iff_right nofun)
  have hcurrencies : ∀ c, c ∈ ((new cs).run calls).currencies ↔ c ∈ cs := fun c => by
    rw [currencies_run]
    exact mem_ascending
  refine ⟨fun u c => ?_, fun u c => ?_, (nonNegative_new cs).run calls⟩
  · by_cases hu : ((new cs).run calls).users.contains u = true
    · rw [hwell.rows u hu, hcurrencies, ← hopened, and_iff_right hu]
    · rw [rowsOf_of_not_contains hu, ← hopened]
      exact iff_of_false List.not_mem_nil fun h => hu h.1
  · by_cases hu : ((new cs).run calls).users.contains u = true
    · rw [hwell.accounts u hu, hcurrencies, ← hopened, and_iff_right hu]
    · rw [balance?_of_not_contains hu, ← hopened]
      exact iff_of_false nofun fun h => hu h.1

theorem openAccounts_mem_sequence {calls : List Call} {order : List Nat} {u : UserId} :
    .openAccounts u ∈ sequence calls order ↔ ∃ i ∈ order, calls[i]? = some (.openAccounts u) := by
  rw [sequence, List.mem_filterMap]

/-- After any calls one after another, and at any time of any calls side by side after them, the
ledger has the accounts of those who were opened, in its currencies, and none below zero. What is
open stays as it is. -/
theorem represents_interleaved (cs : List Currency) (calls workers : List Call)
    (schedule : List Nat) :
    ((new cs).run calls).Represents cs (fun u => .openAccounts u ∈ calls) ∧
    (((Crew.start ((new cs).run calls) workers).run schedule).shared.ledger).Represents cs
      (fun u => .openAccounts u ∈ calls ∨ ∃ i, workers[i]? = some (.openAccounts u) ∧
        (((Crew.start ((new cs).run calls) workers).run schedule).outcome? i).isSome) ∧
    ∀ u, .openAccounts u ∈ calls →
      ((Crew.start ((new cs).run calls) workers).run schedule).shared.ledger.rowsOf u =
        ((new cs).run calls).rowsOf u := by
  have hreflects := Crew.reflects_run ((new cs).run calls) workers schedule
  have hledger : ((Crew.start ((new cs).run calls) workers).run schedule).shared.ledger =
      (new cs).run (calls ++ sequence workers
        ((Crew.start ((new cs).run calls) workers).order schedule)) := by
    rw [hreflects.ledger, run_append]
  have hafter := represents_run cs (calls ++ sequence workers
    ((Crew.start ((new cs).run calls) workers).order schedule))
  refine ⟨represents_run cs calls, ?_, fun u hu => ?_⟩
  · rw [hledger]
    convert hafter using 2
    rw [List.mem_append, openAccounts_mem_sequence]
    refine or_congr_right (exists_congr fun i => ?_)
    rw [hreflects.mem_iff, and_comm]
  · have hopen : ((new cs).run calls).users.contains u = true :=
      (contains_run_iff calls).2 (Or.inr hu)
    rw [hledger, run_append]
    have hwell := (wellFormed_new cs).run calls
    rw [(hwell.run _).rows u (contains_run hopen _), currencies_run, hwell.rows u hopen]

end CurrencyWallet.Ledger

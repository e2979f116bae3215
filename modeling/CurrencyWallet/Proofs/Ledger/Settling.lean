import CurrencyWallet.Proofs.Ledger.Accounts

/-!
What a settlement does. Where its user has both rows it is written if each leg's row still holds
the value that the leg was priced from, whatever the places; otherwise it is refused for the first
leg, in the order of the codes, whose row does not, and nothing is written.
-/
namespace CurrencyWallet

def SettlementLeg.HeldBy (leg : SettlementLeg) (b : Balances) : Prop :=
  (b.get? leg.currency).map Decimal.toRat = some leg.expected.toRat

instance (leg : SettlementLeg) (b : Balances) : Decidable (leg.HeldBy b) :=
  inferInstanceAs (Decidable (_ = _))

/-- The first leg whose row holds something else, and what it holds. -/
structure Settlement.Conflict (s : Settlement) (b : Balances) (leg : SettlementLeg)
    (found : Decimal) : Prop where
  mem : leg = s.source ∨ leg = s.target
  get?_eq : b.get? leg.currency = some found
  changed : found.toRat ≠ leg.expected.toRat
  first : ∀ other, other = s.source ∨ other = s.target → other.currency < leg.currency →
    other.HeldBy b

namespace Settlement

theorem mem_lockOrder {s : Settlement} {leg : SettlementLeg} :
    leg ∈ s.lockOrder ↔ leg = s.source ∨ leg = s.target := by
  unfold lockOrder
  split <;> simp [or_comm]

theorem pairwise_lockOrder {s : Settlement} (h : s.source.currency ≠ s.target.currency) :
    s.lockOrder.Pairwise (·.currency < ·.currency) := by
  unfold lockOrder
  split
  · simpa
  · simpa using KeyOrder.connected ‹_› h.symm

theorem validate_eq_ok {s : Settlement} :
    s.validate = .ok () ↔ s.source.currency ≠ s.target.currency ∧
      ¬ s.source.updated.IsNegative ∧ ¬ s.target.updated.IsNegative := by
  unfold validate
  by_cases hsame : s.source.currency = s.target.currency
  · simp [hsame]
  by_cases hsource : s.source.updated.IsNegative
  · simp [hsame, hsource]
  by_cases htarget : s.target.updated.IsNegative
  · simp [hsame, hsource, htarget]
  · simp [hsame, hsource, htarget]

end Settlement

namespace Ledger

theorem verifyLeg_of_held {s : Settlement} {b : Balances} {leg : SettlementLeg}
    (h : leg.HeldBy b) : verifyLeg s b leg = .ok () := by
  obtain ⟨found, hget, hvalue⟩ := Option.map_eq_some_iff.1 h
  rw [verifyLeg, hget]
  exact if_pos (Decimal.sameValue_iff.2 hvalue)

theorem verifyLeg_of_changed {s : Settlement} {b : Balances} {leg : SettlementLeg}
    {found : Decimal} (hget : b.get? leg.currency = some found)
    (h : found.toRat ≠ leg.expected.toRat) :
    verifyLeg s b leg = .error (.conflict leg.currency leg.expected found) := by
  rw [verifyLeg, hget]
  exact if_neg fun hsame => h (Decimal.sameValue_iff.1 hsame)

theorem forM_verifyLeg_cons (s : Settlement) (b : Balances) (leg : SettlementLeg)
    (legs : List SettlementLeg) : (leg :: legs).forM (verifyLeg s b) =
      (verifyLeg s b leg >>= fun _ => legs.forM (verifyLeg s b)) := rfl

theorem forM_verifyLeg_of_held {s : Settlement} {b : Balances} {legs : List SettlementLeg}
    (h : ∀ leg ∈ legs, leg.HeldBy b) : legs.forM (verifyLeg s b) = .ok () := by
  induction legs with
  | nil => rfl
  | cons leg legs ih =>
    rw [forM_verifyLeg_cons, verifyLeg_of_held (h leg List.mem_cons_self)]
    exact ih fun leg hleg => h leg (List.mem_cons_of_mem _ hleg)

theorem forM_verifyLeg_of_changed {s : Settlement} {b : Balances} {legs : List SettlementLeg}
    (hrows : ∀ leg ∈ legs, (b.get? leg.currency).isSome)
    (hasc : legs.Pairwise (·.currency < ·.currency)) (h : ¬ ∀ leg ∈ legs, leg.HeldBy b) :
    ∃ leg ∈ legs, ∃ found, b.get? leg.currency = some found ∧ found.toRat ≠ leg.expected.toRat ∧
      (∀ other ∈ legs, other.currency < leg.currency → other.HeldBy b) ∧
      legs.forM (verifyLeg s b) = .error (.conflict leg.currency leg.expected found) := by
  induction legs with
  | nil => exact absurd (fun leg hleg => absurd hleg List.not_mem_nil) h
  | cons leg legs ih =>
    obtain ⟨hlater, hasc⟩ := List.pairwise_cons.1 hasc
    obtain ⟨found, hget⟩ := Option.isSome_iff_exists.1 (hrows leg List.mem_cons_self)
    by_cases hvalue : found.toRat = leg.expected.toRat
    · have hheld : leg.HeldBy b := by rw [SettlementLeg.HeldBy, hget, Option.map_some, hvalue]
      have hrest : ¬ ∀ leg ∈ legs, leg.HeldBy b := fun hall => h fun other hother => by
        obtain rfl | hother := List.mem_cons.1 hother
        · exact hheld
        · exact hall other hother
      obtain ⟨leg', hleg', found', hget', hne, hfirst, heq⟩ :=
        ih (fun leg hleg => hrows leg (List.mem_cons_of_mem _ hleg)) hasc hrest
      refine ⟨leg', List.mem_cons_of_mem _ hleg', found', hget', hne,
        fun other hother hlt => ?_, ?_⟩
      · obtain rfl | hother := List.mem_cons.1 hother
        · exact hheld
        · exact hfirst other hother hlt
      · rw [forM_verifyLeg_cons, verifyLeg_of_held hheld]
        exact heq
    · refine ⟨leg, List.mem_cons_self, found, hget, hvalue, fun other hother hlt => ?_, ?_⟩
      · -- Every other leg comes later in the order of the codes.
        obtain rfl | hother := List.mem_cons.1 hother
        · exact absurd hlt (KeyOrder.irrefl _)
        · exact absurd (KeyOrder.trans hlt (hlater other hother)) (KeyOrder.irrefl _)
      · rw [forM_verifyLeg_cons, verifyLeg_of_changed hget hvalue]
        rfl

section Settle

variable {l : Ledger} {s : Settlement}

def settledRevision (s : Settlement) : Revision :=
  [(s.source.currency, s.source.updated), (s.target.currency, s.target.updated)]

theorem balances_commit_settled (hopen : l.users.contains s.user = true) :
    (l.commit s.user (settledRevision s)).balances s.user =
      ((l.balances s.user).insert s.source.currency s.source.updated).insert
        s.target.currency s.target.updated := by
  rw [balances_commit _ _ _ hopen]
  rfl

theorem balance?_commit_settled (hopen : l.users.contains s.user = true)
    (u : UserId) (c : Currency) :
    (l.commit s.user (settledRevision s)).balance? u c =
      if u = s.user ∧ c = s.target.currency then some s.target.updated
      else if u = s.user ∧ c = s.source.currency then some s.source.updated
      else l.balance? u c := by
  by_cases hu : u = s.user
  · subst hu
    rw [balance?, balances_commit_settled hopen, Table.get?_insert, Table.get?_insert, balance?]
    simp
  · rw [balance?, balances_commit_of_ne _ _ _ _ hu, if_neg fun h => hu h.1,
      if_neg fun h => hu h.1, balance?]

theorem balance?_commit_source (hopen : l.users.contains s.user = true)
    (hne : s.source.currency ≠ s.target.currency) :
    (l.commit s.user (settledRevision s)).balance? s.user s.source.currency =
      some s.source.updated := by
  rw [balance?_commit_settled hopen, if_neg fun h => hne h.2, if_pos ⟨rfl, rfl⟩]

theorem balance?_commit_target (hopen : l.users.contains s.user = true) :
    (l.commit s.user (settledRevision s)).balance? s.user s.target.currency =
      some s.target.updated := by
  rw [balance?_commit_settled hopen, if_pos ⟨rfl, rfl⟩]

theorem balance?_commit_of_not (hopen : l.users.contains s.user = true) {u : UserId} {c : Currency}
    (h : ¬ (u = s.user ∧ (c = s.source.currency ∨ c = s.target.currency))) :
    (l.commit s.user (settledRevision s)).balance? u c = l.balance? u c := by
  rw [balance?_commit_settled hopen, if_neg fun hrow => h ⟨hrow.1, Or.inr hrow.2⟩,
    if_neg fun hrow => h ⟨hrow.1, Or.inl hrow.2⟩]

theorem eq_settledRevision {b : Balances} {revision : Revision}
    (h : (Call.settle s).revision b = .ok revision) : revision = settledRevision s := by
  simp only [Call.revision] at h
  split at h
  · cases h
  · cases h
    rfl

theorem Commits.written {call : Call} {revision : Revision} (h : l.Commits call revision)
    {e : Currency × Decimal} (he : e ∈ revision) :
    (∃ u c delta current, call = .apply u c delta ∧ l.balance? u c = some current ∧
      applyDelta c current delta = .ok e.2) ∨
    ∃ s, call = .settle s ∧ s.validate = .ok () ∧
      (e.2 = s.source.updated ∨ e.2 = s.target.updated) := by
  cases call with
  | openAccounts u => cases h.revised; cases he
  | balances u => cases h.revised; cases he
  | apply u c delta =>
    obtain ⟨current, updated, hcurrent, hupdated, rfl⟩ := revision_apply_eq_ok h.revised
    obtain rfl := List.mem_singleton.1 he
    exact Or.inl ⟨u, c, delta, current, rfl, hcurrent, hupdated⟩
  | settle s =>
    obtain rfl := eq_settledRevision h.revised
    refine Or.inr ⟨s, rfl, (screen_settle_eq_ok.1 h.screened).1, ?_⟩
    obtain rfl | he := List.mem_cons.1 he
    · exact Or.inl rfl
    · exact Or.inr (List.mem_singleton.1 he ▸ rfl)

theorem perform_settle (hl : l.WellFormed) (hvalid : s.validate = .ok ())
    (hopen : l.users.contains s.user = true)
    (hrows : ∀ c ∈ (Call.settle s).rows, c ∈ l.currencies) :
    l.perform (.settle s) =
      match s.lockOrder.forM (verifyLeg s (l.balances s.user)) with
      | .error e => (l, .refused e)
      | .ok () => (l.commit s.user (settledRevision s),
          .ok ((l.commit s.user (settledRevision s)).balances s.user)) := by
  have hscreen : l.screen (.settle s) = .ok () := screen_settle_eq_ok.2 ⟨hvalid, hopen⟩
  change l.change (.settle s) = _
  rw [change_of_rows hscreen (by rwa [Call.user, hl.rows _ hopen])]
  simp only [Call.revision, Call.user]
  cases s.lockOrder.forM (verifyLeg s (l.balances s.user)) <;> rfl

/-- A settlement is written, or it is refused for its first conflict. -/
theorem settle_cases (hl : l.WellFormed) (hvalid : s.validate = .ok ())
    (hopen : l.users.contains s.user = true)
    (hrows : ∀ c ∈ (Call.settle s).rows, c ∈ l.currencies) :
    (s.source.HeldBy (l.balances s.user) ∧ s.target.HeldBy (l.balances s.user) ∧
      l.perform (.settle s) = (l.commit s.user (settledRevision s),
        .ok ((l.commit s.user (settledRevision s)).balances s.user))) ∨
    ¬ (s.source.HeldBy (l.balances s.user) ∧ s.target.HeldBy (l.balances s.user)) ∧
      ∃ leg found, s.Conflict (l.balances s.user) leg found ∧
        l.perform (.settle s) = (l, .refused (.conflict leg.currency leg.expected found)) := by
  have hheld : (∀ leg ∈ s.lockOrder, leg.HeldBy (l.balances s.user)) ↔
      s.source.HeldBy (l.balances s.user) ∧ s.target.HeldBy (l.balances s.user) := by
    simp [Settlement.mem_lockOrder]
  rw [perform_settle hl hvalid hopen hrows]
  by_cases h : ∀ leg ∈ s.lockOrder, leg.HeldBy (l.balances s.user)
  · rw [forM_verifyLeg_of_held h]
    exact Or.inl ⟨(hheld.1 h).1, (hheld.1 h).2, rfl⟩
  · have hsome : ∀ leg ∈ s.lockOrder, ((l.balances s.user).get? leg.currency).isSome :=
      fun leg hleg => (hl.accounts _ hopen _).2 (hrows _ (List.mem_map_of_mem hleg))
    obtain ⟨leg, hleg, found, hget, hne, hfirst, heq⟩ := forM_verifyLeg_of_changed (s := s) hsome
      (Settlement.pairwise_lockOrder (Settlement.validate_eq_ok.1 hvalid).1) h
    rw [heq]
    refine Or.inr ⟨fun hboth => h (hheld.2 hboth), leg, found, ⟨?_, hget, hne, ?_⟩, rfl⟩
    · exact Settlement.mem_lockOrder.1 hleg
    · exact fun other hother => hfirst other (Settlement.mem_lockOrder.2 hother)

end Settle

end Ledger

end CurrencyWallet

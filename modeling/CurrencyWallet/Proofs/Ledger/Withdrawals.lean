import CurrencyWallet.Proofs.Decimal.Range
import CurrencyWallet.Proofs.Exchange.Rivals
import Mathlib.Data.Rat.Floor

/-!
Equal withdrawals from one account. Side by side, in any interleaving and beside calls that leave
the account alone, as many of them succeed as the balance allows, and each of the others is refused
for want of funds.
-/
namespace CurrencyWallet

open Decimal (amountLimit)

namespace Ledger

/-! ### Counting calls -/

def workersOf (calls : List Call) (call : Call) : Finset Nat :=
  {i ∈ Finset.range calls.length | calls[i]? = some call}

theorem mem_workersOf {calls : List Call} {call : Call} {i : Nat} :
    i ∈ workersOf calls call ↔ calls[i]? = some call := by
  rw [workersOf, Finset.mem_filter, Finset.mem_range, and_iff_right_iff_imp]
  exact fun h => (List.getElem?_eq_some_iff.1 h).1

theorem workersOf_concat (calls : List Call) (last call : Call) :
    workersOf (calls ++ [last]) call =
      if last = call then insert calls.length (workersOf calls call)
      else workersOf calls call := by
  ext i
  obtain hlt | rfl | hgt := Nat.lt_trichotomy i calls.length
  · have hne : i ≠ calls.length := hlt.ne
    rw [mem_workersOf, List.getElem?_append_left hlt]
    split <;> simp [mem_workersOf, hne]
  · rw [mem_workersOf, List.getElem?_concat_length]
    split <;> simp [mem_workersOf, *]
  · have hne : i ≠ calls.length := hgt.ne'
    have hbeyond : (calls ++ [last]).length ≤ i := by simpa using Nat.succ_le_of_lt hgt
    rw [mem_workersOf, List.getElem?_eq_none hbeyond]
    split <;> simp [mem_workersOf, hne, hgt.le]

theorem card_workersOf (calls : List Call) (call : Call) :
    (workersOf calls call).card = calls.count call := by
  induction calls using List.reverseRecOn with
  | nil => rfl
  | append_singleton calls last ih =>
    have hnew : calls.length ∉ workersOf calls call := by simp [mem_workersOf]
    rw [workersOf_concat, List.count_append, List.count_singleton, ← ih]
    by_cases hlast : last = call
    · rw [if_pos hlast, Finset.card_insert_of_notMem hnew]
      simp [hlast]
    · rw [if_neg hlast]
      simp [hlast]

/-! ### One withdrawal -/

section Withdraw

variable {l : Ledger} {u : UserId} {c : Currency} {b w : Decimal}

theorem withdraw_cases (hl : l.WellFormed) (hb : l.balance? u c = some b) (hnonneg : 0 ≤ b.toRat)
    (hw : 0 < w.toRat) :
    (b.toRat < w.toRat ∧
      l.perform (.apply u c (-w)) = (l, .refused (.insufficientFunds c w b))) ∨
    (w.toRat ≤ b.toRat ∧ ∃ left, b.sub w = .ok left ∧ l.perform (.apply u c (-w)) =
      (l.commit u [(c, left)], .ok ((l.commit u [(c, left)]).balances u))) := by
  have hc : c ∈ l.currencies :=
    (hl.accounts u (contains_of_balance? hb) c).1 (Option.isSome_of_mem hb)
  have hcurrent : ¬ b.IsNegative := fun hneg => not_lt.2 hnonneg (Decimal.isNegative_iff.1 hneg)
  rw [perform_apply hl, if_pos hc, hb]
  simp only [applyDelta_withdraw hcurrent (Decimal.isPositive_iff.2 hw)]
  obtain hlt | hle := lt_or_ge b.toRat w.toRat
  · left
    rw [if_pos (Decimal.lt_iff_toRat.2 hlt)]
    exact ⟨hlt, rfl⟩
  · right
    obtain ⟨left, hleft⟩ := Decimal.exists_sub_of_nonneg hnonneg hw.le
    rw [if_neg fun hlt => not_lt.2 hle (Decimal.lt_iff_toRat.1 hlt), hleft]
    exact ⟨hle, left, rfl, rfl⟩

end Withdraw

/-! ### Side by side -/

/-- An account that holds `b`, and calls of which those that name it are withdrawals of `w`; both
are in full cents and below the limit. -/
structure Draws (l : Ledger) (calls : List Call) (u : UserId) (c : Currency) (b w : Decimal) :
    Prop where
  balance : l.balance? u c = some b
  balance_inCents : b.InCents
  balance_nonneg : 0 ≤ b.toRat
  balance_lt : b.toRat < amountLimit
  amount_inCents : w.InCents
  amount_pos : 0 < w.toRat
  amount_lt : w.toRat < amountLimit
  only : ∀ call ∈ calls, call.user = u → c ∈ call.rows → call = .apply u c (-w)

namespace Crew

def succeeded (s : Crew) (calls : List Call) (call : Call) : Finset Nat :=
  {i ∈ workersOf calls call | (s.outcome? i).any Attempt.isOk = true}

def granted (s : Crew) (calls : List Call) (call : Call) : Finset Nat :=
  {i ∈ workersOf calls call | (s.reply? i).any Attempt.isOk = true}

/-- As many of the withdrawals as there are, or as the balance covers, have succeeded; exactly the
rest of the balance is left, and all others were refused with what they asked for and what is
left. -/
structure Allots (calls : List Call) (u : UserId) (c : Currency) (b w : Decimal) (s : Crew)
    (left : Decimal) : Prop where
  balance : s.shared.ledger.balance? u c = some left
  granted : (s.granted calls (.apply u c (-w))).card =
    min (calls.count (.apply u c (-w))) ⌊b.toRat / w.toRat⌋₊
  value : left.toRat = b.toRat - w.toRat * (s.granted calls (.apply u c (-w))).card
  refused : ∀ i, calls[i]? = some (.apply u c (-w)) → i ∉ s.granted calls (.apply u c (-w)) →
    s.reply? i = some (.refused (.insufficientFunds c w left))

/-- What is left when some of the withdrawals have succeeded. Whoever has been refused would be
refused again. -/
structure Drawn (calls : List Call) (u : UserId) (c : Currency) (b w : Decimal) (s : Crew)
    (left : Decimal) : Prop where
  wellFormed : s.shared.ledger.WellFormed
  balance : s.shared.ledger.balance? u c = some left
  value : left.toRat = b.toRat - w.toRat * (s.succeeded calls (.apply u c (-w))).card
  nonneg : 0 ≤ left.toRat
  answers : ∀ i reply, calls[i]? = some (.apply u c (-w)) → s.outcome? i = some reply →
    reply.isOk = true ∨
      left.toRat < w.toRat ∧ reply = .refused (.insufficientFunds c w left)

section Drawn

variable {l : Ledger} {calls : List Call} {u : UserId} {c : Currency} {b w left : Decimal}
  {s s' : Crew} {call : Call} {i : Nat}

theorem succeeded_congr (h : ∀ k, calls[k]? = some call →
    (s'.outcome? k).any Attempt.isOk = (s.outcome? k).any Attempt.isOk) :
    s'.succeeded calls call = s.succeeded calls call :=
  Finset.filter_congr fun k hk => by rw [h k (mem_workersOf.1 hk)]

theorem succeeded_insert {balances : Balances} (hcall : calls[i]? = some call)
    (h : ∀ k, s'.outcome? k = if k = i then some (.ok balances) else s.outcome? k) :
    s'.succeeded calls call = insert i (s.succeeded calls call) := by
  ext k
  rw [succeeded, Finset.mem_filter, Finset.mem_insert, succeeded, Finset.mem_filter,
    mem_workersOf, h]
  by_cases hk : k = i
  · simp [hk, hcall, Attempt.isOk]
  · simp [hk]

theorem notMem_succeeded (h : s.outcome? i = none) : i ∉ s.succeeded calls call := by
  simp [succeeded, h]

theorem drawn_start (hl : l.WellFormed) (h : l.Draws calls u c b w) :
    (start l calls).Drawn calls u c b w b := by
  have hnone := (reflects_start l calls).mem_iff
  have hoff : ∀ i, (start l calls).outcome? i = none := fun i => by
    simpa using (hnone i).not.1 List.not_mem_nil
  have hempty : (start l calls).succeeded calls (.apply u c (-w)) = ∅ :=
    Finset.filter_eq_empty_iff.2 fun i _ => by simp [hoff]
  refine ⟨hl, h.balance, ?_, h.balance_nonneg, fun i reply _ hreply => ?_⟩
  · simp [hempty]
  · rw [hoff] at hreply
    cases hreply

theorem Drawn.of_same (h : s.Drawn calls u c b w left) (hwell : s'.shared.ledger.WellFormed)
    (hbalance : s'.shared.ledger.balance? u c = s.shared.ledger.balance? u c)
    (houtcome : ∀ k, calls[k]? = some (.apply u c (-w)) → s'.outcome? k = s.outcome? k) :
    s'.Drawn calls u c b w left where
  wellFormed := hwell
  balance := hbalance.trans h.balance
  value := by rw [h.value, succeeded_congr fun k hk => by rw [houtcome k hk]]
  nonneg := h.nonneg
  answers k reply hk hreply := h.answers k reply hk (houtcome k hk ▸ hreply)

theorem Drawn.toRat_le (h : s.Drawn calls u c b w left) (hdraws : l.Draws calls u c b w) :
    left.toRat ≤ b.toRat := by
  rw [h.value, sub_le_self_iff]
  exact mul_nonneg hdraws.amount_pos.le (Nat.cast_nonneg _)

theorem Drawn.refuse (h : s.Drawn calls u c b w left) (hshort : left.toRat < w.toRat)
    (hbefore : s.outcome? i = none) (hledger : s'.shared.ledger = s.shared.ledger)
    (houtcome : ∀ k, s'.outcome? k =
      if k = i then some (.refused (.insufficientFunds c w left)) else s.outcome? k) :
    s'.Drawn calls u c b w left := by
  refine ⟨hledger ▸ h.wellFormed, hledger ▸ h.balance, ?_, h.nonneg, fun k reply hk hreply => ?_⟩
  · rw [h.value, succeeded_congr fun k _ => ?_]
    rw [houtcome]
    by_cases hi : k = i
    · rw [if_pos hi, hi, hbefore]
      rfl
    · rw [if_neg hi]
  · rw [houtcome] at hreply
    by_cases hi : k = i
    · rw [if_pos hi] at hreply
      exact Or.inr ⟨hshort, (Option.some.inj hreply).symm⟩
    · rw [if_neg hi] at hreply
      exact h.answers k reply hk hreply

theorem Drawn.draw {left' : Decimal} {balances : Balances} (h : s.Drawn calls u c b w left)
    (hdraws : l.Draws calls u c b w) (hcall : calls[i]? = some (.apply u c (-w)))
    (hcovered : w.toRat ≤ left.toRat) (hsub : left.sub w = .ok left')
    (hbefore : s.outcome? i = none) (hwell : s'.shared.ledger.WellFormed)
    (hledger : s'.shared.ledger = s.shared.ledger.commit u [(c, left')])
    (houtcome : ∀ k, s'.outcome? k = if k = i then some (.ok balances) else s.outcome? k) :
    s'.Drawn calls u c b w left' := by
  have hopen := contains_of_balance? h.balance
  have hcents : left.InCents :=
    hdraws.balance_inCents.of_sub_mul hdraws.amount_inCents h.value
  have hleft : |left.toRat| < amountLimit := by
    rw [abs_of_nonneg h.nonneg]
    exact (h.toRat_le hdraws).trans_lt hdraws.balance_lt
  have hamount : |w.toRat| < amountLimit := by
    rw [abs_of_pos hdraws.amount_pos]
    exact hdraws.amount_lt
  have hexact := Decimal.toRat_sub_inCents hcents hdraws.amount_inCents hleft hamount hsub
  have hinsert := succeeded_insert hcall houtcome
  refine ⟨hwell, ?_, ?_, ?_, fun k reply hk hreply => ?_⟩
  · rw [hledger, balance?_commit_one hopen, if_pos ⟨rfl, rfl⟩]
  · rw [hexact, h.value, hinsert, Finset.card_insert_of_notMem (notMem_succeeded hbefore)]
    push_cast
    ring
  · rw [hexact]
    linarith
  · left
    rw [houtcome] at hreply
    by_cases hi : k = i
    · rw [if_pos hi] at hreply
      cases hreply
      rfl
    · rw [if_neg hi] at hreply
      obtain hok | ⟨hshort, -⟩ := h.answers k reply hk hreply
      · exact hok
      · exact absurd hshort (not_lt.2 hcovered)

theorem Drawn.step (h : s.Drawn calls u c b w left) (hdraws : l.Draws calls u c b w)
    (hsound : s.Sound calls) (i : Nat) : ∃ left', (s.step i).Drawn calls u c b w left' := by
  obtain ⟨hledger, hsame⟩ | ⟨call, hcall, hbefore, hledger, hafter⟩ := hsound.step_effect i
  · exact ⟨left, h.of_same (hledger ▸ h.wellFormed) (by rw [hledger]) fun k _ => hsame k⟩
  · by_cases hdraw : call = .apply u c (-w)
    · subst hdraw
      have hwell := hledger ▸ h.wellFormed.perform (.apply u c (-w))
      obtain ⟨hshort, hperform⟩ | ⟨hcovered, left', hsub, hperform⟩ :=
        withdraw_cases h.wellFormed h.balance h.nonneg hdraws.amount_pos
      · rw [hperform] at hledger hafter
        exact ⟨left, h.refuse hshort hbefore hledger hafter⟩
      · rw [hperform] at hledger hafter
        exact ⟨left', h.draw hdraws hcall hcovered hsub hbefore hwell hledger hafter⟩
    · refine ⟨left, h.of_same (hledger ▸ h.wellFormed.perform call) ?_ fun k hk => ?_⟩
      · rw [hledger]
        exact balance?_perform (contains_of_balance? h.balance) fun huser hrow =>
          hdraw (hdraws.only call (List.mem_of_getElem? hcall) huser.symm hrow)
      · rw [hafter, if_neg]
        rintro rfl
        exact hdraw (Option.some.inj (hcall.symm.trans hk))

theorem Drawn.run (h : s.Drawn calls u c b w left) (hdraws : l.Draws calls u c b w)
    (hsound : s.Sound calls) (schedule : List Nat) :
    ∃ left', (s.run schedule).Drawn calls u c b w left' := by
  induction schedule generalizing s left with
  | nil => exact ⟨left, h⟩
  | cons i schedule ih =>
    obtain ⟨left', hstep⟩ := h.step hdraws hsound i
    exact ih hstep (hsound.step i)

theorem Drawn.card_succeeded (h : s.Drawn calls u c b w left) (hdraws : l.Draws calls u c b w)
    (hdone : ∀ i, calls[i]? = some (.apply u c (-w)) → (s.outcome? i).isSome) :
    (s.succeeded calls (.apply u c (-w))).card =
      min (calls.count (.apply u c (-w))) ⌊b.toRat / w.toRat⌋₊ := by
  have hpos := hdraws.amount_pos
  have hvalue := h.value
  have hsome : (s.succeeded calls (.apply u c (-w))).card ≤ calls.count (.apply u c (-w)) := by
    rw [← card_workersOf]
    exact Finset.card_filter_le _ _
  have hcovered : (s.succeeded calls (.apply u c (-w))).card ≤ ⌊b.toRat / w.toRat⌋₊ := by
    have := h.nonneg
    refine Nat.le_floor ((le_div_iff₀ hpos).2 ?_)
    linarith
  by_cases hall : s.succeeded calls (.apply u c (-w)) = workersOf calls (.apply u c (-w))
  · rw [hall, card_workersOf] at hcovered ⊢
    exact (min_eq_left hcovered).symm
  · -- Someone was refused, so that what is left does not cover one more.
    obtain ⟨i, hi, hfailed⟩ : ∃ i ∈ workersOf calls (.apply u c (-w)),
        ¬ (s.outcome? i).any Attempt.isOk = true := by
      by_contra! hnone
      exact hall (Finset.filter_true_of_mem hnone)
    obtain ⟨reply, hreply⟩ := Option.isSome_iff_exists.1 (hdone i (mem_workersOf.1 hi))
    have hshort : left.toRat < w.toRat := by
      obtain hok | ⟨hshort, -⟩ := h.answers i reply (mem_workersOf.1 hi) hreply
      · rw [hreply] at hfailed
        exact absurd hok hfailed
      · exact hshort
    have hfloor : ⌊b.toRat / w.toRat⌋₊ < (s.succeeded calls (.apply u c (-w))).card + 1 := by
      refine (Nat.floor_lt (div_nonneg hdraws.balance_nonneg hpos.le)).2 ((div_lt_iff₀ hpos).2 ?_)
      push_cast
      linarith
    omega

theorem succeeded_eq_granted
    (hdone : ∀ i, calls[i]? = some call → (s.reply? i).isSome) :
    s.succeeded calls call = s.granted calls call :=
  Finset.filter_congr fun i hi => by
    obtain ⟨reply, hreply⟩ := Option.isSome_iff_exists.1 (hdone i (mem_workersOf.1 hi))
    rw [hreply, outcome?_of_reply? hreply]

theorem Drawn.allots (h : s.Drawn calls u c b w left) (hdraws : l.Draws calls u c b w)
    (hdone : ∀ i, calls[i]? = some (.apply u c (-w)) → (s.reply? i).isSome) :
    s.Allots calls u c b w left := by
  have hgranted := succeeded_eq_granted hdone
  refine ⟨h.balance, ?_, ?_, fun i hi hother => ?_⟩
  · rw [← hgranted]
    refine h.card_succeeded hdraws fun i hi => ?_
    obtain ⟨reply, hreply⟩ := Option.isSome_iff_exists.1 (hdone i hi)
    rw [outcome?_of_reply? hreply]
    rfl
  · rw [← hgranted]
    exact h.value
  · obtain ⟨reply, hreply⟩ := Option.isSome_iff_exists.1 (hdone i hi)
    obtain hok | ⟨-, rfl⟩ := h.answers i reply hi (outcome?_of_reply? hreply)
    · refine absurd (Finset.mem_filter.2 ⟨mem_workersOf.2 hi, ?_⟩) hother
      rw [hreply]
      exact hok
    · exact hreply

/-- Side by side, equal withdrawals succeed exactly as often as the balance allows: in any
interleaving, beside calls that leave the account alone, everyone can be brought to an answer, and
once the withdrawals have theirs, the account has been allotted to them. -/
theorem allots_run (hreach : l.Reachable) (hdraws : l.Draws calls u c b w)
    (schedule : List Nat) :
    (∃ rest, ∀ i < calls.length, (((start l calls).run (schedule ++ rest)).reply? i).isSome) ∧
    ((∀ i, calls[i]? = some (.apply u c (-w)) →
        (((start l calls).run schedule).reply? i).isSome) →
      ∃ left, ((start l calls).run schedule).Allots calls u c b w left) := by
  constructor
  · obtain ⟨rest, -, hrest⟩ := exists_completion_run l calls schedule
    exact ⟨rest, hrest⟩
  · intro hdone
    obtain ⟨left, hdrawn⟩ := (drawn_start hreach.wellFormed hdraws).run hdraws
      (sound_start l calls) schedule
    exact ⟨left, hdrawn.allots hdraws hdone⟩

end Drawn

def fourOfThirty : List Call :=
  [.apply ⟨1⟩ .usd (-.small 3000 2), .apply ⟨1⟩ .usd (-.small 3000 2), .openAccounts ⟨2⟩,
    .apply ⟨1⟩ .usd (-.small 3000 2), .apply ⟨1⟩ .eur (.small 500 2),
    .apply ⟨1⟩ .usd (-.small 3000 2)]

def lastFirst : List Nat := (List.replicate 24 [5, 4, 3, 2, 1, 0]).flatten

theorem draws_fourOfThirty :
    hundredDollars.Draws fourOfThirty ⟨1⟩ .usd (.small 10000 2) (.small 3000 2) where
  balance := by decide +kernel
  balance_inCents := Decimal.inCents_of_scale_le (by decide)
  balance_nonneg := by decide +kernel
  balance_lt := by decide +kernel
  amount_inCents := Decimal.inCents_of_scale_le (by decide)
  amount_pos := by decide +kernel
  amount_lt := by decide +kernel
  only := by decide +kernel

theorem allots_run_fourOfThirty :
    hundredDollars.Reachable ∧
    hundredDollars.Draws fourOfThirty ⟨1⟩ .usd (.small 10000 2) (.small 3000 2) ∧
    ∃ left, ((start hundredDollars fourOfThirty).run lastFirst).Allots fourOfThirty ⟨1⟩ .usd
      (.small 10000 2) (.small 3000 2) left ∧ left.toRat = 10 := by
  have hdone : ∀ i, fourOfThirty[i]? = some (.apply ⟨1⟩ .usd (-.small 3000 2)) →
      (((start hundredDollars fourOfThirty).run lastFirst).reply? i).isSome := by
    have hreplies : ∀ i < 6,
        (((start hundredDollars fourOfThirty).run lastFirst).reply? i).isSome := by
      decide +kernel
    exact fun i hi => hreplies i (List.getElem?_eq_some_iff.1 hi).1
  obtain ⟨left, hallots⟩ :=
    (allots_run reachable_hundredDollars draws_fourOfThirty lastFirst).2 hdone
  refine ⟨reachable_hundredDollars, draws_fourOfThirty, left, hallots, ?_⟩
  have hhundred : (Decimal.small 10000 2).toRat = 100 := by decide +kernel
  have hthirty : (Decimal.small 3000 2).toRat = 30 := by decide +kernel
  have hfour : fourOfThirty.count (.apply ⟨1⟩ .usd (-.small 3000 2)) = 4 := by decide +kernel
  have hfloor : ⌊(100 / 30 : ℚ)⌋₊ = 3 := (Nat.floor_eq_iff (by norm_num)).2 (by norm_num)
  rw [hallots.value, hallots.granted, hfour, hhundred, hthirty, hfloor]
  norm_num

end Crew

end Ledger

end CurrencyWallet

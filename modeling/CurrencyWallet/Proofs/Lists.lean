import CurrencyWallet.Table
import Mathlib.Algebra.Ring.Nat
import Mathlib.Data.List.Forall2

/-!
Lists of anything: sums over a list and lists in step with each other when one place changes, the
greatest of some keys, and what look-ups and readers find.
-/
namespace CurrencyWallet

/-! ### One place changes -/

theorem List.sum_map_set {α : Type} {f : α → Nat} {xs : List α} {i : Nat} {a : α}
    (h : xs[i]? = some a) (b : α) : ((xs.set i b).map f).sum + f a = (xs.map f).sum + f b := by
  induction xs generalizing i with
  | nil => cases h
  | cons x xs ih =>
    cases i with
    | zero =>
      cases h
      simp only [List.set_cons_zero, List.map_cons, List.sum_cons]
      omega
    | succ i =>
      have hrest := ih (i := i) h
      simp only [List.set_cons_succ, List.map_cons, List.sum_cons]
      omega

theorem List.sum_map_set_lt {α : Type} {f : α → Nat} {xs : List α} {i : Nat} {a b : α}
    (h : xs[i]? = some a) (hlt : f b < f a) : ((xs.set i b).map f).sum < (xs.map f).sum := by
  have hsum := List.sum_map_set (f := f) h b
  omega

theorem List.forall₂_set {α β : Type} {R : α → β → Prop} {as : List α} {bs : List β} {a : α} {b : β}
    (h : as.Forall₂ R bs) (hab : R a b) (i : Nat) : (as.set i a).Forall₂ R (bs.set i b) := by
  induction h generalizing i with
  | nil => exact .nil
  | cons hfirst hrest ih =>
    cases i with
    | zero => exact .cons hab hrest
    | succ i => exact .cons hfirst (ih i)

theorem List.exists_of_forall₂ {α β : Type} {R : α → β → Prop} {as : List α} {bs : List β} {a : α}
    {i : Nat} (h : as.Forall₂ R bs) (ha : as[i]? = some a) : ∃ b, bs[i]? = some b ∧ R a b := by
  induction h generalizing i with
  | nil => cases ha
  | cons hfirst hrest ih =>
    cases i with
    | zero =>
      cases ha
      exact ⟨_, rfl, hfirst⟩
    | succ i => exact ih ha

/-! ### What is found -/

/-- Of some keys one has no other above it. -/
theorem List.exists_last {κ : Type} [KeyOrder κ] {ks : List κ} (h : ks ≠ []) :
    ∃ k ∈ ks, ∀ x ∈ ks, ¬ k < x := by
  induction ks with
  | nil => exact absurd rfl h
  | cons k ks ih =>
    by_cases hks : ks = []
    · refine ⟨k, List.mem_cons_self, fun x hx => ?_⟩
      rw [hks] at hx
      rw [List.mem_singleton.1 hx]
      exact KeyOrder.irrefl k
    · obtain ⟨last, hmem, hlast⟩ := ih hks
      by_cases hk : last < k
      · refine ⟨k, List.mem_cons_self, fun x hx hlt => ?_⟩
        obtain rfl | hx := List.mem_cons.1 hx
        · exact KeyOrder.irrefl _ hlt
        · exact hlast x hx (KeyOrder.trans hk hlt)
      · refine ⟨last, List.mem_cons_of_mem _ hmem, fun x hx => ?_⟩
        obtain rfl | hx := List.mem_cons.1 hx
        · exact hk
        · exact hlast x hx

theorem List.mem_of_lookup {κ β : Type} [BEq κ] [LawfulBEq κ] {entries : List (κ × β)} {k : κ}
    {v : β} (h : entries.lookup k = some v) : (k, v) ∈ entries := by
  obtain ⟨before, after, hsplit, -⟩ := List.lookup_eq_some_iff.1 h
  rw [hsplit]
  exact List.mem_append_right before (List.mem_cons_self ..)

theorem List.map_of_mapM {β γ δ : Type} {f : β → Option γ} {g : β → δ} {k : γ → δ}
    (hf : ∀ x y, f x = some y → k y = g x) {xs : List β} {ys : List γ} (h : xs.mapM f = some ys) :
    ys.map k = xs.map g := by
  induction xs generalizing ys with
  | nil =>
    cases h
    rfl
  | cons x xs ih =>
    simp only [List.mapM_cons, Option.bind_eq_bind, Option.bind_eq_some_iff, Option.pure_def,
      Option.some.injEq] at h
    obtain ⟨y, hy, zs, hzs, rfl⟩ := h
    rw [List.map_cons, List.map_cons, hf x y hy, ih hzs]

end CurrencyWallet

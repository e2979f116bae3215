/-!
Finite maps as lists of entries in ascending key order, one entry a key. Two tables with the same
look-ups are the same table (`Table.ext_get?`), so no order of insertion can be told from the
result. `ascending` is the same for a set of keys.
-/
namespace CurrencyWallet

/-- What a key order must satisfy: it is strict, linear and decided. -/
class KeyOrder (κ : Type) extends LT κ where
  decLt (a b : κ) : Decidable (a < b)
  irrefl (a : κ) : ¬ a < a
  trans {a b c : κ} : a < b → b < c → a < c
  connected {a b : κ} : ¬ a < b → a ≠ b → b < a

instance KeyOrder.instDecidableLt {κ : Type} [KeyOrder κ] (a b : κ) : Decidable (a < b) :=
  KeyOrder.decLt a b

instance : KeyOrder String where
  decLt _ _ := inferInstance
  irrefl _ := Std.lt_irrefl
  trans := Std.lt_trans
  connected {a b} h hne := by
    obtain h' | h' | h' := Std.lt_trichotomy a b
    · exact absurd h' h
    · exact absurd h' hne
    · exact h'

instance : KeyOrder Int where
  decLt _ _ := inferInstance
  irrefl := Int.lt_irrefl
  trans := Int.lt_trans
  connected h hne := by omega

instance : KeyOrder Nat where
  decLt _ _ := inferInstance
  irrefl := Nat.lt_irrefl
  trans := Nat.lt_trans
  connected h hne := by omega

section Keys

variable {κ : Type} [KeyOrder κ] [DecidableEq κ]

def insertKey (k : κ) : List κ → List κ
  | [] => [k]
  | x :: xs => if k < x then k :: x :: xs else if k = x then x :: xs else x :: insertKey k xs

def ascending (ks : List κ) : List κ := ks.foldr insertKey []

theorem mem_insertKey {k x : κ} {ks : List κ} : x ∈ insertKey k ks ↔ x = k ∨ x ∈ ks := by
  induction ks with
  | nil => simp [insertKey]
  | cons y ys ih =>
    unfold insertKey
    split
    · simp
    · split
      · rename_i h; subst h; simp
      · simp only [List.mem_cons, ih]
        exact or_left_comm

theorem pairwise_insertKey {k : κ} {ks : List κ} (h : ks.Pairwise (· < ·)) :
    (insertKey k ks).Pairwise (· < ·) := by
  induction ks with
  | nil => simp [insertKey]
  | cons y ys ih =>
    have hy := List.pairwise_cons.1 h
    unfold insertKey
    split
    · rename_i hk
      exact List.pairwise_cons.2 ⟨fun x hx => by
        obtain rfl | hx := List.mem_cons.1 hx
        · exact hk
        · exact KeyOrder.trans hk (hy.1 x hx), h⟩
    · rename_i hk
      split
      · exact h
      · rename_i hne
        exact List.pairwise_cons.2 ⟨fun x hx => by
          obtain rfl | hx := mem_insertKey.1 hx
          · exact KeyOrder.connected hk hne
          · exact hy.1 x hx, ih hy.2⟩

theorem pairwise_ascending (ks : List κ) : (ascending ks).Pairwise (· < ·) := by
  induction ks with
  | nil => exact List.Pairwise.nil
  | cons k ks ih => exact pairwise_insertKey ih

theorem mem_ascending {x : κ} {ks : List κ} : x ∈ ascending ks ↔ x ∈ ks := by
  induction ks with
  | nil => simp [ascending]
  | cons k ks ih =>
    show x ∈ insertKey k (ascending ks) ↔ _
    rw [mem_insertKey, ih, List.mem_cons]

end Keys

structure Table (κ α : Type) [KeyOrder κ] where
  entries : List (κ × α)
  ascends : entries.Pairwise (·.1 < ·.1) := by exact List.Pairwise.nil

namespace Table

section Entries

variable {κ α : Type} [KeyOrder κ] [DecidableEq κ]

def find (k : κ) : List (κ × α) → Option α
  | [] => none
  | (x, v) :: rest => if k = x then some v else find k rest

/-- Lists `v` under `k`, in place of what stood there. -/
def put (k : κ) (v : α) : List (κ × α) → List (κ × α)
  | [] => [(k, v)]
  | (x, w) :: rest =>
    if k < x then (k, v) :: (x, w) :: rest
    else if k = x then (k, v) :: rest
    else (x, w) :: put k v rest

theorem fst_of_mem_put {k : κ} {v : α} {l : List (κ × α)} {e : κ × α} (h : e ∈ put k v l) :
    e.1 = k ∨ e ∈ l := by
  induction l with
  | nil => simp_all [put]
  | cons y ys ih =>
    obtain ⟨x, w⟩ := y
    unfold put at h
    split at h
    · obtain rfl | h := List.mem_cons.1 h
      · exact Or.inl rfl
      · exact Or.inr h
    · split at h
      · obtain rfl | h := List.mem_cons.1 h
        · exact Or.inl rfl
        · exact Or.inr (List.mem_cons_of_mem _ h)
      · obtain rfl | h := List.mem_cons.1 h
        · exact Or.inr List.mem_cons_self
        · exact (ih h).imp id (List.mem_cons_of_mem _)

theorem pairwise_put {k : κ} {v : α} {l : List (κ × α)} (h : l.Pairwise (·.1 < ·.1)) :
    (put k v l).Pairwise (·.1 < ·.1) := by
  induction l with
  | nil => simp [put]
  | cons y ys ih =>
    obtain ⟨x, w⟩ := y
    have hy := List.pairwise_cons.1 h
    unfold put
    split
    · rename_i hk
      exact List.pairwise_cons.2 ⟨fun e he => by
        obtain rfl | he := List.mem_cons.1 he
        · exact hk
        · exact KeyOrder.trans hk (hy.1 e he), h⟩
    · rename_i hk
      split
      · rename_i heq
        exact List.pairwise_cons.2 ⟨fun e he => heq ▸ hy.1 e he, hy.2⟩
      · rename_i hne
        exact List.pairwise_cons.2 ⟨fun e he => by
          obtain heq | he := fst_of_mem_put he
          · rw [heq]; exact KeyOrder.connected hk hne
          · exact hy.1 e he, ih hy.2⟩

theorem find_put_self (k : κ) (v : α) (l : List (κ × α)) : find k (put k v l) = some v := by
  induction l with
  | nil => simp [put, find]
  | cons y ys ih =>
    obtain ⟨x, w⟩ := y
    unfold put
    split
    · simp [find]
    · split
      · simp [find]
      · rename_i hne; simp [find, hne, ih]

theorem find_put_of_ne {k k' : κ} (h : k' ≠ k) (v : α) (l : List (κ × α)) :
    find k' (put k v l) = find k' l := by
  induction l with
  | nil => simp [put, find, h]
  | cons y ys ih =>
    obtain ⟨x, w⟩ := y
    unfold put
    split
    · simp [find, h]
    · split
      · rename_i heq; subst heq; simp [find, h]
      · simp [find, ih]

theorem find_eq_none_of_lt {k : κ} {l : List (κ × α)} (h : ∀ e ∈ l, k < e.1) :
    find k l = none := by
  induction l with
  | nil => rfl
  | cons y ys ih =>
    obtain ⟨x, w⟩ := y
    have hk : k < x := h (x, w) List.mem_cons_self
    have hne : k ≠ x := fun heq => KeyOrder.irrefl x (heq ▸ hk)
    simp only [find, if_neg hne]
    exact ih fun e he => h e (List.mem_cons_of_mem _ he)

theorem eq_of_find_eq {l₁ l₂ : List (κ × α)} (h₁ : l₁.Pairwise (·.1 < ·.1))
    (h₂ : l₂.Pairwise (·.1 < ·.1)) (h : ∀ k, find k l₁ = find k l₂) : l₁ = l₂ := by
  induction l₁ generalizing l₂ with
  | nil =>
    cases l₂ with
    | nil => rfl
    | cons y ys => have := h y.1; simp [find] at this
  | cons x xs ih =>
    cases l₂ with
    | nil => have := h x.1; simp [find] at this
    | cons y ys =>
      have hx := List.pairwise_cons.1 h₁
      have hy := List.pairwise_cons.1 h₂
      have hkey : x.1 = y.1 := by
        by_cases hlt : x.1 < y.1
        · have hnone : find x.1 (y :: ys) = none := find_eq_none_of_lt fun e he => by
            obtain rfl | he := List.mem_cons.1 he
            · exact hlt
            · exact KeyOrder.trans hlt (hy.1 e he)
          have := h x.1
          rw [hnone] at this
          simp [find] at this
        · by_cases hne : x.1 = y.1
          · exact hne
          · have hlt := KeyOrder.connected hlt hne
            have hnone : find y.1 (x :: xs) = none := find_eq_none_of_lt fun e he => by
              obtain rfl | he := List.mem_cons.1 he
              · exact hlt
              · exact KeyOrder.trans hlt (hx.1 e he)
            have := h y.1
            rw [hnone] at this
            simp [find] at this
      obtain ⟨k, v⟩ := x
      obtain ⟨k', v'⟩ := y
      simp only at hkey
      subst hkey
      have hv := h k
      simp only [find, if_pos, Option.some.injEq] at hv
      subst hv
      rw [ih hx.2 hy.2 fun k' => ?_]
      by_cases hk : k' = k
      · subst hk
        rw [find_eq_none_of_lt hx.1, find_eq_none_of_lt hy.1]
      · have := h k'
        simpa [find, hk] using this

end Entries

variable {κ α : Type} [KeyOrder κ] [DecidableEq κ]

instance [DecidableEq α] : DecidableEq (Table κ α) := fun a b =>
  match a, b with
  | ⟨l, _⟩, ⟨m, _⟩ =>
    if h : l = m then isTrue (by subst h; rfl) else isFalse fun heq => h (by cases heq; rfl)

def empty : Table κ α := ⟨[], List.Pairwise.nil⟩

instance : EmptyCollection (Table κ α) := ⟨empty⟩

instance : Inhabited (Table κ α) := ⟨empty⟩

def get? (t : Table κ α) (k : κ) : Option α := find k t.entries

def contains (t : Table κ α) (k : κ) : Bool := (t.get? k).isSome

def insert (t : Table κ α) (k : κ) (v : α) : Table κ α :=
  ⟨put k v t.entries, pairwise_put t.ascends⟩

def filter (t : Table κ α) (p : κ → α → Bool) : Table κ α :=
  ⟨t.entries.filter fun e => p e.1 e.2, t.ascends.filter _⟩

def erase (t : Table κ α) (k : κ) : Table κ α := t.filter fun x _ => x ≠ k

def map {β : Type} (t : Table κ α) (f : α → β) : Table κ β :=
  ⟨t.entries.map fun e => (e.1, f e.2), t.ascends.map _ fun _ _ h => h⟩

def keys (t : Table κ α) : List κ := t.entries.map (·.1)

def toList (t : Table κ α) : List (κ × α) := t.entries

def size (t : Table κ α) : Nat := t.entries.length

def ofList (entries : List (κ × α)) : Table κ α :=
  entries.foldl (fun t e => t.insert e.1 e.2) empty

@[simp] theorem get?_empty (k : κ) : (empty : Table κ α).get? k = none := rfl

@[simp] theorem get?_insert_self (t : Table κ α) (k : κ) (v : α) :
    (t.insert k v).get? k = some v := find_put_self k v t.entries

theorem get?_insert_of_ne (t : Table κ α) {k k' : κ} (h : k' ≠ k) (v : α) :
    (t.insert k v).get? k' = t.get? k' := find_put_of_ne h v t.entries

theorem get?_insert (t : Table κ α) (k k' : κ) (v : α) :
    (t.insert k v).get? k' = if k' = k then some v else t.get? k' := by
  split
  · rename_i h; subst h; exact get?_insert_self t _ v
  · rename_i h; exact get?_insert_of_ne t h v

omit [KeyOrder κ] in
theorem mem_of_find {k : κ} {v : α} {l : List (κ × α)} (h : find k l = some v) : (k, v) ∈ l := by
  induction l with
  | nil => cases h
  | cons e l ih =>
    unfold find at h
    split at h
    · rename_i hk
      cases h
      rw [hk]
      exact List.mem_cons_self
    · exact List.mem_cons_of_mem _ (ih h)

theorem mem_toList_of_get? {t : Table κ α} {k : κ} {v : α} (h : t.get? k = some v) :
    (k, v) ∈ t.toList := mem_of_find h

theorem find_of_mem {k : κ} {v : α} {l : List (κ × α)} (hl : l.Pairwise (·.1 < ·.1))
    (h : (k, v) ∈ l) : find k l = some v := by
  induction l with
  | nil => cases h
  | cons e l ih =>
    obtain ⟨hlt, hl⟩ := List.pairwise_cons.1 hl
    unfold find
    obtain rfl | h := List.mem_cons.1 h
    · exact if_pos rfl
    · have hne : k ≠ e.1 := fun heq => KeyOrder.irrefl e.1 (heq ▸ hlt _ h)
      rw [if_neg hne]
      exact ih hl h

theorem get?_of_mem_toList {t : Table κ α} {k : κ} {v : α} (h : (k, v) ∈ t.toList) :
    t.get? k = some v := find_of_mem t.ascends h

theorem get?_of_get?_filter {t : Table κ α} {p : κ → α → Bool} {k : κ} {v : α}
    (h : (t.filter p).get? k = some v) : t.get? k = some v :=
  get?_of_mem_toList (List.mem_filter.1 (mem_toList_of_get? h)).1

theorem find_filter {l : List (κ × α)} (hl : l.Pairwise (·.1 < ·.1)) (p : κ → α → Bool) (k : κ) :
    find k (l.filter fun e => p e.1 e.2) = (find k l).filter (p k) := by
  induction l with
  | nil => rfl
  | cons e l ih =>
    obtain ⟨hlt, hl⟩ := List.pairwise_cons.1 hl
    rw [List.filter_cons]
    by_cases hk : k = e.1
    · subst hk
      cases hp : p e.1 e.2 with
      | true => simp [find, Option.filter_some, hp]
      | false =>
        have hnone : find e.1 (l.filter fun e => p e.1 e.2) = none :=
          find_eq_none_of_lt fun e' he' => hlt e' (List.mem_filter.1 he').1
        simp [find, Option.filter_some, hp, hnone]
    · split <;> simp [find, hk, ih hl]

theorem get?_filter (t : Table κ α) (p : κ → α → Bool) (k : κ) :
    (t.filter p).get? k = (t.get? k).filter (p k) := find_filter t.ascends p k

theorem get?_erase (t : Table κ α) (k k' : κ) :
    (t.erase k).get? k' = if k' = k then none else t.get? k' := by
  rw [erase, get?_filter]
  by_cases h : k' = k
  · cases t.get? k' <;> simp [h, Option.filter_some]
  · cases t.get? k' <;> simp [h, Option.filter_some]

theorem get?_ofList (entries : List (κ × α)) (k : κ) :
    (ofList entries).get? k = (entries.reverse.find? (·.1 = k)).map (·.2) := by
  unfold ofList
  rw [← List.foldr_reverse]
  induction entries.reverse with
  | nil => rfl
  | cons e entries ih =>
    rw [List.foldr_cons, get?_insert, ih, List.find?_cons]
    by_cases h : k = e.1
    · simp [h]
    · simp [h, Ne.symm h]

theorem mem_keys_iff {t : Table κ α} {k : κ} : k ∈ t.keys ↔ ∃ v, t.get? k = some v := by
  constructor
  · intro h
    obtain ⟨⟨_, v⟩, he, rfl⟩ := List.mem_map.1 h
    exact ⟨v, get?_of_mem_toList he⟩
  · rintro ⟨v, h⟩
    exact List.mem_map_of_mem (mem_toList_of_get? h)

theorem mem_keys_ofList {entries : List (κ × α)} {k : κ} :
    k ∈ (ofList entries).keys ↔ ∃ e ∈ entries, e.1 = k := by
  rw [mem_keys_iff, ← Option.isSome_iff_exists, get?_ofList, Option.isSome_map,
    List.find?_isSome]
  simp

theorem get?_of_not_contains {t : Table κ α} {k : κ} (h : t.contains k = false) :
    t.get? k = none :=
  Option.not_isSome_iff_eq_none.1 (Bool.eq_false_iff.1 h)

theorem ext_get? {t u : Table κ α} (h : ∀ k, t.get? k = u.get? k) : t = u := by
  obtain ⟨l, hl⟩ := t
  obtain ⟨m, hm⟩ := u
  have : l = m := eq_of_find_eq hl hm h
  subst this
  rfl

end Table

end CurrencyWallet

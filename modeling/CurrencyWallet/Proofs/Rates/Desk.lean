import CurrencyWallet.Rates.Resolution

/-!
A desk finds the rate of its table. A cache that has only been written by the desk holds nothing
but rates of the table, whatever has expired in between, so that a search ends after at most three
requests with the rate of the table, from the cache or not, or with the report that there is none.
-/
namespace CurrencyWallet

def RateCache.Every (P : String → CachedRate → Prop) (c : RateCache) : Prop :=
  ∀ key e, c.entries.get? key = some e → P key e

namespace RateCache.Every

variable {P : String → CachedRate → Prop} {c : RateCache}

theorem new (P : String → CachedRate → Prop) (capacity : Nat) : (RateCache.new capacity).Every P :=
  fun _ _ h => by cases h

theorem remove (h : c.Every P) (key : String) : (c.remove key).Every P :=
  fun _ _ he => h _ _ (Table.get?_of_get?_filter he)

theorem evictExpired (h : c.Every P) (now : Nat) : (c.evictExpired now).Every P :=
  fun _ _ he => h _ _ (Table.get?_of_get?_filter he)

theorem lookup (h : c.Every P) (now : Nat) (key : String) : (c.lookup now key).1.Every P := by
  unfold RateCache.lookup
  cases c.entries.get? key with
  | none => exact h
  | some e =>
    simp only
    split
    · exact h
    · exact h.remove key

theorem makeRoom (h : c.Every P) (now : Nat) : (c.makeRoom now).Every P := by
  unfold RateCache.makeRoom
  split
  · exact h.evictExpired now
  · exact h

theorem store {key : String} {rate : Decimal} {now ttl : Nat} (hreach : IsWithinReach ttl)
    (h : c.Every fun key' e => key' ≠ key → P key' e) (hnew : P key ⟨rate, now + ttl⟩) :
    (c.store now key rate ttl).Every P := by
  intro key' e he
  rw [store_of_reach hreach, Table.get?_insert] at he
  split at he
  · rename_i heq
    cases he
    exact heq ▸ hnew
  · rename_i hne
    exact h.makeRoom now key' e he hne

theorem store_of_not_reach {key : String} {rate : Decimal} {now ttl : Nat}
    (hreach : ¬ IsWithinReach ttl) (h : c.Every P) : (c.store now key rate ttl).Every P := by
  rw [RateCache.store_of_not_reach hreach]
  exact h.makeRoom now

theorem of_lookup (h : c.Every P) {now : Nat} {key : String} {rate : Decimal}
    (hfound : (c.lookup now key).2 = some rate) :
    ∃ e : CachedRate, P key e ∧ e.rate = rate ∧ e.IsFresh now := by
  rw [RateCache.lookup_snd] at hfound
  obtain ⟨e, he, hrate⟩ := Option.map_eq_some_iff.1 hfound
  obtain ⟨hentry, hfresh⟩ := Option.filter_eq_some_iff.1 he
  exact ⟨e, h key e hentry, hrate, of_decide_eq_true hfresh⟩

end RateCache.Every

/-- What can be read from the cache is in the table. -/
def RateCache.Agrees (rates : RateTable) (c : RateCache) : Prop :=
  ∀ key e, c.entries.get? key = some e → rates.get? key = some e.rate

def RateTable.AllUsable (rates : RateTable) : Prop :=
  ∀ key rate, rates.get? key = some rate → IsUsableRate rate

namespace RateCache.Agrees

variable {rates : RateTable} {c : RateCache}

theorem every (h : c.Agrees rates) : c.Every fun key e => rates.get? key = some e.rate := h

theorem new (rates : RateTable) (capacity : Nat) : (RateCache.new capacity).Agrees rates :=
  Every.new _ capacity

theorem lookup (h : c.Agrees rates) (now : Nat) (key : String) :
    (c.lookup now key).1.Agrees rates := h.every.lookup now key

theorem store (h : c.Agrees rates) {key : String} {rate : Decimal}
    (hrate : rates.get? key = some rate) (now ttl : Nat) :
    (c.store now key rate ttl).Agrees rates := by
  by_cases hreach : IsWithinReach ttl
  · exact Every.store hreach (fun key' e he _ => h key' e he) hrate
  · exact h.every.store_of_not_reach hreach

theorem of_lookup (h : c.Agrees rates) {now : Nat} {key : String} {rate : Decimal}
    (hfound : (c.lookup now key).2 = some rate) : rates.get? key = some rate := by
  obtain ⟨e, he, hrate, -⟩ := h.every.of_lookup hfound
  rw [← hrate]
  exact he

end RateCache.Agrees

structure RateDesk.Faithful (d : RateDesk) : Prop where
  cache : d.cache.Agrees d.rates
  usable : d.rates.AllUsable

/-- A search as far as a desk with these rates can have taken it. -/
inductive Resolution.Tracks (rates : RateTable) (pair : CurrencyPair) : Resolution → Prop
  | reading : Tracks rates pair ⟨pair, some (.readCache pair.key), none⟩
  | asking : Tracks rates pair ⟨pair, some (.quote pair), none⟩
  | writing (rate : Decimal) (ttl : Nat) (h : rates.get? pair.key = some rate) :
    Tracks rates pair
      ⟨pair, some (.writeCache pair.key rate ttl), some (.ok ⟨pair, rate, .remote⟩)⟩
  | found (rate : Decimal) (source : RateSource) (h : rates.get? pair.key = some rate) :
    Tracks rates pair ⟨pair, none, some (.ok ⟨pair, rate, source⟩)⟩
  | missing (h : rates.get? pair.key = none) :
    Tracks rates pair ⟨pair, none, some (.error (.unsupported pair))⟩

def RateTable.Answers (rates : RateTable) (pair : CurrencyPair) (result : RateResult) : Prop :=
  (∃ rate source, rates.get? pair.key = some rate ∧ result = .ok ⟨pair, rate, source⟩) ∨
    rates.get? pair.key = none ∧ result = .error (.unsupported pair)

namespace Resolution

variable {rates : RateTable} {pair : CurrencyPair} {r : Resolution}

theorem tracks_start (rates : RateTable) (policy : RatePolicy) (pair : CurrencyPair) :
    (start policy pair).Tracks rates pair := by
  unfold start
  split
  · exact .reading
  · exact .asking

theorem Tracks.answers (h : r.Tracks rates pair) {result : RateResult}
    (hresult : r.result? = some result) : rates.Answers pair result := by
  cases h with
  | reading => cases hresult
  | asking => cases hresult
  | writing rate ttl hrate =>
    cases hresult
    exact Or.inl ⟨rate, _, hrate, rfl⟩
  | found rate source hrate =>
    cases hresult
    exact Or.inl ⟨rate, source, hrate, rfl⟩
  | missing hnone =>
    cases hresult
    exact Or.inr ⟨hnone, rfl⟩

theorem Tracks.isSome_result? (h : r.Tracks rates pair) (hdone : r.request? = none) :
    r.result?.isSome := by
  cases h with
  | reading => cases hdone
  | asking => cases hdone
  | writing rate ttl hrate => cases hdone
  | found rate source hrate => rfl
  | missing hnone => rfl

theorem request?_of_callsLeft (h : r.callsLeft = 0) : r.request? = none := by
  unfold callsLeft at h
  split at h
  · cases h
  · cases h
  · cases h
  · assumption

end Resolution

namespace RateDesk

variable {d : RateDesk} {pair : CurrencyPair} {r : Resolution}

@[simp] theorem rates_serve (d : RateDesk) (now : Nat) (call : RateCall) :
    (d.serve now call).1.rates = d.rates := by
  cases call <;> rfl

@[simp] theorem rates_assist (d : RateDesk) (now : Nat) (r : Resolution) :
    (d.assist now r).1.rates = d.rates := by
  unfold assist
  split
  · rfl
  · exact rates_serve d now _

theorem assist_reading (d : RateDesk) (now : Nat) (pair : CurrencyPair) :
    d.assist now ⟨pair, some (.readCache pair.key), none⟩ =
      ({ d with cache := (d.cache.lookup now pair.key).1 },
        match (d.cache.lookup now pair.key).2.filter (IsUsableRate ·) with
        | some rate => ⟨pair, none, some (.ok ⟨pair, rate, .cache⟩)⟩
        | none => ⟨pair, some (.quote pair), none⟩) := by
  cases hfound : (d.cache.lookup now pair.key).2 with
  | none => simp only [assist, serve, hfound, Resolution.advance, Option.filter_none]
  | some rate =>
    by_cases husable : IsUsableRate rate
    · simp only [assist, serve, hfound, Resolution.advance, Resolution.finish, husable, if_true,
        Option.filter_some, decide_true]
    · simp only [assist, serve, hfound, Resolution.advance, husable, if_false,
        Option.filter_some, decide_false, Bool.false_eq_true]

theorem assist_asking (d : RateDesk) (now : Nat) (pair : CurrencyPair) :
    d.assist now ⟨pair, some (.quote pair), none⟩ =
      (d, match d.rates.get? pair.key with
        | none => ⟨pair, none, some (.error (.unsupported pair))⟩
        | some rate =>
          if IsUsableRate rate then .deliver d.policy ⟨pair, some (.quote pair), none⟩ rate
          else ⟨pair, none, some (.error (.unavailable pair))⟩) := by
  cases hrate : d.rates.get? pair.key with
  | none => simp only [assist, serve, RateTable.quote, hrate, Resolution.advance, Resolution.finish]
  | some rate =>
    simp only [assist, serve, RateTable.quote, hrate, Resolution.advance, Resolution.finish]

theorem assist_writing (d : RateDesk) (now : Nat) (pair : CurrencyPair) (key : String)
    (rate : Decimal) (ttl : Nat) (result? : Option RateResult) :
    d.assist now ⟨pair, some (.writeCache key rate ttl), result?⟩ =
      ({ d with cache := d.cache.store now key rate ttl }, ⟨pair, none, result?⟩) := by
  simp only [assist, serve]
  obtain hanswer | hanswer := RateAnswer.ofWrite_cases ttl
  · rw [hanswer]
    rfl
  · rw [hanswer]
    rfl

structure Assists (d : RateDesk) (pair : CurrencyPair) (r : Resolution)
    (next : RateDesk × Resolution) : Prop where
  faithful : next.1.Faithful
  tracks : next.2.Tracks d.rates pair
  closer : next.2.callsLeft ≤ r.callsLeft - 1

theorem Faithful.assist_reading (h : d.Faithful) (now : Nat) :
    d.Assists pair ⟨pair, some (.readCache pair.key), none⟩
      (d.assist now ⟨pair, some (.readCache pair.key), none⟩) := by
  have hcache := h.cache.lookup now pair.key
  rw [RateDesk.assist_reading]
  cases hfound : (d.cache.lookup now pair.key).2 with
  | none => exact ⟨⟨hcache, h.usable⟩, .asking, Nat.le_refl _⟩
  | some rate =>
    have hrate := h.cache.of_lookup hfound
    rw [Option.filter_some, if_pos (decide_eq_true (h.usable _ _ hrate))]
    exact ⟨⟨hcache, h.usable⟩, .found rate .cache hrate, Nat.zero_le _⟩

theorem Faithful.assist_asking (h : d.Faithful) (now : Nat) :
    d.Assists pair ⟨pair, some (.quote pair), none⟩
      (d.assist now ⟨pair, some (.quote pair), none⟩) := by
  rw [RateDesk.assist_asking]
  cases hrate : d.rates.get? pair.key with
  | none => exact ⟨h, .missing hrate, Nat.zero_le _⟩
  | some rate =>
    simp only [if_pos (h.usable _ _ hrate), Resolution.deliver]
    split
    · exact ⟨h, .writing rate _ hrate, Nat.le_refl _⟩
    · exact ⟨h, .found rate .remote hrate, Nat.zero_le _⟩

theorem Faithful.assist (h : d.Faithful) (hr : r.Tracks d.rates pair) (now : Nat) :
    d.Assists pair r (d.assist now r) := by
  cases hr with
  | reading => exact h.assist_reading now
  | asking => exact h.assist_asking now
  | writing rate ttl hrate =>
    rw [assist_writing]
    exact ⟨⟨h.cache.store hrate now ttl, h.usable⟩, .found rate .remote hrate, Nat.le_refl _⟩
  | found rate source hrate => exact ⟨h, .found rate source hrate, Nat.zero_le _⟩
  | missing hnone => exact ⟨h, .missing hnone, Nat.zero_le _⟩

theorem Faithful.tracks_assistAll (h : d.Faithful) (hr : r.Tracks d.rates pair) (now calls : Nat) :
    (assistAll now calls d r).2.Tracks d.rates pair ∧
      (assistAll now calls d r).2.callsLeft ≤ r.callsLeft - calls := by
  induction calls generalizing d r with
  | zero => exact ⟨hr, Nat.le_refl _⟩
  | succ calls ih =>
    have hassists := h.assist hr now
    have htracks := hassists.tracks
    rw [← rates_assist d now r] at htracks
    obtain ⟨hnext, hleft⟩ := ih hassists.faithful htracks
    rw [rates_assist] at hnext
    refine ⟨hnext, Nat.le_trans hleft ?_⟩
    have hcloser := hassists.closer
    omega

theorem Faithful.exists_result (h : d.Faithful) (now : Nat) (pair : CurrencyPair) :
    ∃ r result, (assistAll now (Resolution.start d.policy pair).callsLeft d
        (.start d.policy pair)).2 = r ∧
      r.request? = none ∧ r.result? = some result ∧ (d.resolve now pair).2 = result := by
  obtain ⟨htracks, hleft⟩ := h.tracks_assistAll (Resolution.tracks_start d.rates d.policy pair) now
    (Resolution.start d.policy pair).callsLeft
  rw [Nat.sub_self, Nat.le_zero] at hleft
  have hdone := Resolution.request?_of_callsLeft hleft
  obtain ⟨result, hresult⟩ := Option.isSome_iff_exists.1 (htracks.isSome_result? hdone)
  refine ⟨_, result, rfl, hdone, hresult, ?_⟩
  simp only [resolve, hresult, Option.getD_some]

end RateDesk

end CurrencyWallet

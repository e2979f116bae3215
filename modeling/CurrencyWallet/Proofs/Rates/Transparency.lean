import CurrencyWallet.Proofs.Rates.Desk

/-!
A cache makes no difference to what is found. Any rates may be listed, more than one for a pair and
also such as cannot be used; whatever has been cached, has expired or was evicted, a search comes
to the answer of the table (`RateDesk.unsourced_resolve`), and only where the rate was found
depends on the cache.
-/
namespace CurrencyWallet

def RateResult.unsourced (result : RateResult) : Except RateError (CurrencyPair × Decimal) :=
  result.map fun found => (found.pair, found.rate)

def RateTable.answer (rates : RateTable) (pair : CurrencyPair) :
    Except RateError (CurrencyPair × Decimal) :=
  match rates.get? pair.key with
  | none => .error (.unsupported pair)
  | some rate => if IsUsableRate rate then .ok (pair, rate) else .error (.unavailable pair)

inductive Resolution.LeadsTo (rates : RateTable) (pair : CurrencyPair) : Resolution → Prop
  | reading : LeadsTo rates pair ⟨pair, some (.readCache pair.key), none⟩
  | asking : LeadsTo rates pair ⟨pair, some (.quote pair), none⟩
  | writing (rate : Decimal) (ttl : Nat) (h : rates.get? pair.key = some rate)
    (husable : IsUsableRate rate) :
    LeadsTo rates pair
      ⟨pair, some (.writeCache pair.key rate ttl), some (.ok ⟨pair, rate, .remote⟩)⟩
  | ended (result : RateResult) (h : result.unsourced = rates.answer pair) :
    LeadsTo rates pair ⟨pair, none, some result⟩

namespace RateTable

variable {rates : RateTable} {pair : CurrencyPair} {rate : Decimal}

theorem answer_of_none (h : rates.get? pair.key = none) :
    rates.answer pair = .error (.unsupported pair) := by
  rw [answer, h]

theorem answer_of_usable (h : rates.get? pair.key = some rate) (husable : IsUsableRate rate) :
    rates.answer pair = .ok (pair, rate) := by
  rw [answer, h]
  exact if_pos husable

theorem answer_of_not_usable (h : rates.get? pair.key = some rate) (husable : ¬ IsUsableRate rate) :
    rates.answer pair = .error (.unavailable pair) := by
  rw [answer, h]
  exact if_neg husable

end RateTable

theorem Resolution.LeadsTo.unsourced_result {rates : RateTable} {pair : CurrencyPair}
    {r : Resolution} (h : r.LeadsTo rates pair) (hover : r.callsLeft = 0) (default : RateResult) :
    (r.result?.getD default).unsourced = rates.answer pair := by
  cases h with
  | reading => cases hover
  | asking => cases hover
  | writing rate ttl hrate husable => cases hover
  | ended result hresult => exact hresult

namespace RateDesk

/-- A desk with this table and a cache that agrees with it, and a search there that is over after
so many more requests. -/
structure Searches (table : RateTable) (pair : CurrencyPair) (left : Nat)
    (s : RateDesk × Resolution) : Prop where
  rates : s.1.rates = table
  cache : s.1.cache.Agrees table
  leads : s.2.LeadsTo table pair
  bounded : s.2.callsLeft ≤ left

variable {d : RateDesk} {pair : CurrencyPair} {r : Resolution} {left : Nat}

theorem Searches.step_reading (hcache : d.cache.Agrees d.rates) (hleft : 2 ≤ left) (now : Nat) :
    Searches d.rates pair left (d.assist now ⟨pair, some (.readCache pair.key), none⟩) := by
  have hread := hcache.lookup now pair.key
  rw [assist_reading]
  cases hfound : (d.cache.lookup now pair.key).2.filter (IsUsableRate ·) with
  | none => exact ⟨rfl, hread, .asking, hleft⟩
  | some rate =>
    obtain ⟨hlookup, husable⟩ := Option.filter_eq_some_iff.1 hfound
    have hanswer :=
      RateTable.answer_of_usable (hcache.of_lookup hlookup) (of_decide_eq_true husable)
    exact ⟨rfl, hread, .ended (.ok ⟨pair, rate, .cache⟩) hanswer.symm, Nat.zero_le _⟩

theorem Searches.step_asking (hcache : d.cache.Agrees d.rates) (hleft : 1 ≤ left) (now : Nat) :
    Searches d.rates pair left (d.assist now ⟨pair, some (.quote pair), none⟩) := by
  rw [assist_asking]
  cases hrate : d.rates.get? pair.key with
  | none =>
    have hanswer := RateTable.answer_of_none hrate
    exact ⟨rfl, hcache, .ended (.error (.unsupported pair)) hanswer.symm, Nat.zero_le _⟩
  | some rate =>
    by_cases husable : IsUsableRate rate
    · have hanswer := RateTable.answer_of_usable hrate husable
      simp only [if_pos husable, Resolution.deliver]
      split
      · exact ⟨rfl, hcache, .writing rate _ hrate husable, hleft⟩
      · exact ⟨rfl, hcache, .ended (.ok ⟨pair, rate, .remote⟩) hanswer.symm, Nat.zero_le _⟩
    · have hanswer := RateTable.answer_of_not_usable hrate husable
      simp only [if_neg husable]
      exact ⟨rfl, hcache, .ended (.error (.unavailable pair)) hanswer.symm, Nat.zero_le _⟩

/-- Each request brings a search nearer to its end, with the cache or past it. -/
theorem Searches.step (h : Searches d.rates pair (left + 1) (d, r)) (now : Nat) :
    Searches d.rates pair left (d.assist now r) := by
  obtain ⟨-, hcache, hleads, hbounded⟩ := h
  cases hleads with
  | reading => exact step_reading hcache (Nat.le_of_succ_le_succ hbounded) now
  | asking => exact step_asking hcache (Nat.le_of_succ_le_succ hbounded) now
  | writing rate ttl hrate husable =>
    have hanswer := RateTable.answer_of_usable hrate husable
    rw [assist_writing]
    exact ⟨rfl, hcache.store hrate now ttl, .ended (.ok ⟨pair, rate, .remote⟩) hanswer.symm,
      Nat.zero_le _⟩
  | ended result hresult => exact ⟨rfl, hcache, .ended result hresult, Nat.zero_le _⟩

theorem Searches.assistAll (h : Searches d.rates pair left (d, r)) (now : Nat) :
    Searches d.rates pair 0 (assistAll now left d r) := by
  induction left generalizing d r with
  | zero => exact h
  | succ left ih =>
    have hnext := h.step now
    rw [← rates_assist d now r] at hnext ⊢
    exact ih hnext

theorem searches_start (hcache : d.cache.Agrees d.rates) (pair : CurrencyPair) :
    Searches d.rates pair (Resolution.start d.policy pair).callsLeft (d, .start d.policy pair) := by
  refine ⟨rfl, hcache, ?_, Nat.le_refl _⟩
  unfold Resolution.start
  split
  · exact .reading
  · exact .asking

theorem unsourced_resolve (hcache : d.cache.Agrees d.rates) (now : Nat) (pair : CurrencyPair) :
    (d.resolve now pair).2.unsourced = d.rates.answer pair ∧
      (d.resolve now pair).1.rates = d.rates ∧ (d.resolve now pair).1.cache.Agrees d.rates := by
  obtain ⟨hrates, hafter, hleads, hbounded⟩ := (searches_start hcache pair).assistAll now
  exact ⟨hleads.unsourced_result (Nat.le_zero.1 hbounded) _, hrates, hafter⟩

def results : RateDesk → List (Nat × CurrencyPair) → List RateResult
  | _, [] => []
  | d, (now, pair) :: searches =>
    let (d, result) := d.resolve now pair
    result :: d.results searches

theorem unsourced_results (hcache : d.cache.Agrees d.rates) (searches : List (Nat × CurrencyPair)) :
    (d.results searches).map RateResult.unsourced =
      searches.map fun search => d.rates.answer search.2 := by
  induction searches generalizing d with
  | nil => rfl
  | cons search searches ih =>
    obtain ⟨hresult, hrates, hafter⟩ := unsourced_resolve hcache search.1 search.2
    rw [← hrates] at hafter
    rw [results, List.map_cons, List.map_cons, hresult, ih hafter, hrates]

/-- With a cache and without one the same is found. -/
theorem results_useCache (policy : RatePolicy) (listed : List (CurrencyPair × Decimal))
    (capacity : Nat) (searches : List (Nat × CurrencyPair)) :
    (results ⟨{ policy with useCache := true }, .ofRates listed, .new capacity⟩ searches).map
        RateResult.unsourced =
      (results ⟨{ policy with useCache := false }, .ofRates listed, .new capacity⟩ searches).map
        RateResult.unsourced := by
  rw [unsourced_results (.new _ capacity), unsourced_results (.new _ capacity)]

/-- The second search finds the rate in the cache, the third one finds it expired, and a rate that
cannot be used is found nowhere. -/
example : (results ⟨⟨10, 0, 0, true⟩,
      .ofRates [(⟨.usd, .eur⟩, .small 90 2), (⟨.usd, .rub⟩, .zero), (⟨.usd, .eur⟩, .small 92 2)],
      .new 1⟩ [(0, ⟨.usd, .eur⟩), (9, ⟨.usd, .eur⟩), (10, ⟨.usd, .eur⟩), (11, ⟨.usd, .rub⟩)]).map
        (·.toOption.map fun found => (found.rate, found.source)) =
    [some (.small 92 2, .remote), some (.small 92 2, .cache), some (.small 92 2, .remote),
      none] := by
  decide +kernel

end RateDesk

end CurrencyWallet

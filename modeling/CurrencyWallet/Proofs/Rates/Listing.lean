import CurrencyWallet.Proofs.Currency.Pair
import CurrencyWallet.Proofs.Decimal.Text
import CurrencyWallet.Rates.Listing

/-!
Lists of rates as texts. A list can be spelt with blank entries, blanks around its codes and rates
and letters of either case; each of its spellings is read as the list itself, with the repeated
pairs and all places. A text is read unless an entry is malformed, and the leftmost malformed entry
is reported. A table made of a text has the last rate of each pair.
-/
namespace CurrencyWallet

open Text

/-! ### Lists that are mapped until there is an error -/

section Faults

variable {α β ε : Type}

def fault? : Except ε α → Option ε
  | .error e => some e
  | .ok _ => none

theorem fault?_eq_some_iff {r : Except ε α} {e : ε} : fault? r = some e ↔ r = .error e := by
  cases r <;> simp [fault?]

theorem fault?_mapM (f : α → Except ε β) (xs : List α) :
    fault? (xs.mapM f) = xs.findSome? fun x => fault? (f x) := by
  induction xs with
  | nil => rfl
  | cons x xs ih =>
    rw [List.mapM_cons, List.findSome?_cons, ← ih]
    cases f x with
    | error e => rfl
    | ok v => cases xs.mapM f <;> rfl

theorem exists_of_mem_of_mapM {f : α → Except ε β} {xs : List α} {ys : List β}
    (h : xs.mapM f = .ok ys) {y : β} (hy : y ∈ ys) : ∃ x ∈ xs, f x = .ok y := by
  induction xs generalizing ys with
  | nil =>
    cases h
    cases hy
  | cons x xs ih =>
    rw [List.mapM_cons] at h
    cases hx : f x with
    | error e => simp [hx, bind, Except.bind] at h
    | ok v =>
      cases hxs : xs.mapM f with
      | error e => simp [hx, hxs, bind, Except.bind] at h
      | ok vs =>
        simp only [hx, hxs, bind, Except.bind, pure, Except.pure, Except.ok.injEq] at h
        rw [← h] at hy
        obtain rfl | hy := List.mem_cons.1 hy
        · exact ⟨x, List.mem_cons_self, hx⟩
        · obtain ⟨x', hmem, hx'⟩ := ih hxs hy
          exact ⟨x', List.mem_cons_of_mem _ hmem, hx'⟩

end Faults

namespace RateListing

variable {rates : List (CurrencyPair × Decimal)} {text : String}

/-! ### Spellings -/

def SpeltEntry (e : CurrencyPair × Decimal) (cs : List Char) : Prop :=
  ∃ pair rate, e.1.IsSpelt pair ∧ e.2.IsSpelt rate ∧ cs = pair ++ '=' :: rate

/-- Parts that spell the entries of a list one after the other, and blank ones anywhere. -/
inductive SpeltParts : List (CurrencyPair × Decimal) → List (List Char) → Prop
  | nil : SpeltParts [] []
  | blank {rates parts part} (h : allBlank part = true) (rest : SpeltParts rates parts) :
      SpeltParts rates (part :: parts)
  | entry {rates parts e part} (h : SpeltEntry e part) (rest : SpeltParts rates parts) :
      SpeltParts (e :: rates) (part :: parts)

def IsSpelt (rates : List (CurrencyPair × Decimal)) (text : String) : Prop :=
  ∃ parts, SpeltParts rates parts ∧ text.toList = joinWith ',' parts

theorem isSpelt_toText (h : ∀ e ∈ rates, e.1.IsValid) : IsSpelt rates (toText rates) := by
  refine ⟨rates.map entryText, ?_, String.toList_ofList⟩
  induction rates with
  | nil => exact .nil
  | cons e rates ih =>
    obtain ⟨he, hrates⟩ := List.forall_mem_cons.1 h
    have hrate : e.2.IsSpelt e.2.chars := ⟨[], [], rfl, rfl, by simp⟩
    exact .entry ⟨_, _, CurrencyPair.isSpelt_key he, hrate, rfl⟩ (ih hrates)

theorem comma_not_mem_of_speltEntry {e : CurrencyPair × Decimal} {cs : List Char}
    (he : e.1.IsValid) (h : SpeltEntry e cs) : ',' ∉ cs := by
  obtain ⟨pair, rate, hpair, hrate, rfl⟩ := h
  have hleft : ',' ∉ pair :=
    CurrencyPair.not_mem_of_isSpelt he hpair (by decide) (by decide) (by decide)
  have hright : ',' ∉ rate :=
    Decimal.not_mem_of_isSpelt hrate (by decide) (by decide) (by decide) (by decide)
  simp [hleft, hright]

theorem not_allBlank_of_speltEntry {e : CurrencyPair × Decimal} {cs : List Char}
    (h : SpeltEntry e cs) : allBlank cs = false := by
  obtain ⟨pair, rate, -, -, rfl⟩ := h
  rw [Bool.eq_false_iff]
  intro hblank
  exact not_mem_of_allBlank hblank (c := '=') (by decide) (by simp)

theorem readEntry_of_speltEntry {e : CurrencyPair × Decimal} {cs : List Char}
    (he : e.1.IsValid) (h : SpeltEntry e cs) : readEntry cs = .ok e := by
  obtain ⟨pair, rate, hpair, hrate, rfl⟩ := h
  have hequals : '=' ∉ pair :=
    CurrencyPair.not_mem_of_isSpelt he hpair (by decide) (by decide) (by decide)
  have hreadPair := CurrencyPair.ofText?_of_isSpelt he (CurrencyPair.isSpelt_trim he hpair)
  have hreadRate : Decimal.ofText? (trimmed rate) = some e.2 := by
    rw [trimmed, Decimal.trim_of_isSpelt hrate]
    exact Decimal.ofText?_toText e.2
  simp only [readEntry, splitOnce_append hequals, trimmed] at hreadRate ⊢
  simp only [hreadPair, hreadRate]

theorem entries_of_parts {parts : List (List Char)} (htext : text.toList = joinWith ',' parts)
    (h : ∀ part ∈ parts, ',' ∉ part) :
    entries text = parts.filter fun part => !allBlank part := by
  rw [entries, htext]
  by_cases hne : parts = []
  · rw [hne]
    rfl
  · rw [splitAt_joinWith hne h]

theorem comma_not_mem_of_speltParts {parts : List (List Char)} (hvalid : ∀ e ∈ rates, e.1.IsValid)
    (h : SpeltParts rates parts) : ∀ part ∈ parts, ',' ∉ part := by
  induction h with
  | nil => simp
  | blank hblank _ ih =>
    exact List.forall_mem_cons.2 ⟨not_mem_of_allBlank hblank (by decide), ih hvalid⟩
  | entry he _ ih =>
    obtain ⟨hvalid, hrest⟩ := List.forall_mem_cons.1 hvalid
    exact List.forall_mem_cons.2 ⟨comma_not_mem_of_speltEntry hvalid he, ih hrest⟩

theorem mapM_readEntry_of_speltParts {parts : List (List Char)}
    (hvalid : ∀ e ∈ rates, e.1.IsValid) (h : SpeltParts rates parts) :
    (parts.filter fun part => !allBlank part).mapM readEntry = .ok rates := by
  induction h with
  | nil => rfl
  | blank hblank _ ih => simpa [hblank] using ih hvalid
  | entry he _ ih =>
    obtain ⟨hvalid, hrest⟩ := List.forall_mem_cons.1 hvalid
    rw [List.filter_cons_of_pos (by simp [not_allBlank_of_speltEntry he]), List.mapM_cons,
      readEntry_of_speltEntry hvalid he, ih hrest]
    rfl

theorem ofText_of_isSpelt (hvalid : ∀ e ∈ rates, e.1.IsValid) (h : IsSpelt rates text) :
    ofText text = .ok rates := by
  obtain ⟨parts, hparts, htext⟩ := h
  rw [ofText, entries_of_parts htext (comma_not_mem_of_speltParts hvalid hparts),
    mapM_readEntry_of_speltParts hvalid hparts]

/-! ### Malformed entries -/

/-- What is wrong with an entry: it has no equals sign, or what stands before the first one is no
pair, or that is a pair and what stands after the sign is no decimal. -/
inductive Malformed : List Char → RateEntryError → Prop
  | noRate {entry} (h : '=' ∉ entry) : Malformed entry (.noRate (trimmed entry))
  | badPair {left right} (hleft : '=' ∉ left) (hpair : CurrencyPair.ofText? (trimmed left) = none) :
      Malformed (left ++ '=' :: right) (.badPair (trimmed left))
  | badRate {left right pair} (hleft : '=' ∉ left)
      (hpair : CurrencyPair.ofText? (trimmed left) = some pair)
      (hrate : Decimal.ofText? (trimmed right) = none) :
      Malformed (left ++ '=' :: right) (.badRate pair (trimmed right))

theorem readEntry_eq_error_iff {entry : List Char} {e : RateEntryError} :
    readEntry entry = .error e ↔ Malformed entry e := by
  constructor
  · intro h
    unfold readEntry at h
    split at h
    · rename_i hsplit
      cases h
      exact .noRate (splitOnce_eq_none_iff.1 hsplit)
    · rename_i left right hsplit
      obtain ⟨rfl, hleft⟩ := splitOnce_eq_some hsplit
      split at h
      · rename_i hpair
        cases h
        exact .badPair hleft hpair
      · rename_i pair hpair
        split at h
        · rename_i hrate
          cases h
          exact .badRate hleft hpair hrate
        · cases h
  · rintro (h | ⟨hleft, hpair⟩ | ⟨hleft, hpair, hrate⟩)
    · simp only [readEntry, splitOnce_eq_none_iff.2 h]
    · simp only [readEntry, splitOnce_append hleft, hpair]
    · simp only [readEntry, splitOnce_append hleft, hpair, hrate]

def IsLeftmostFault (text : String) (e : RateEntryError) : Prop :=
  ∃ before entry after, entries text = before ++ entry :: after ∧
    (∀ x ∈ before, ∀ e', ¬ Malformed x e') ∧ Malformed entry e

theorem fault?_readEntry_eq_none_iff {entry : List Char} :
    fault? (readEntry entry) = none ↔ ∀ e, ¬ Malformed entry e := by
  rw [Option.eq_none_iff_forall_ne_some]
  simp only [ne_eq, fault?_eq_some_iff, readEntry_eq_error_iff]

theorem ofText_eq_error_iff {e : RateEntryError} :
    ofText text = .error e ↔ IsLeftmostFault text e := by
  rw [← fault?_eq_some_iff, ofText, fault?_mapM, List.findSome?_eq_some_iff]
  simp only [fault?_readEntry_eq_none_iff, fault?_eq_some_iff, readEntry_eq_error_iff,
    IsLeftmostFault, and_comm]

theorem exists_ofText_eq_error_iff :
    (∃ e, ofText text = .error e) ↔ ∃ entry ∈ entries text, ∃ e, Malformed entry e := by
  simp only [← readEntry_eq_error_iff, ← fault?_eq_some_iff, ← Option.isSome_iff_exists, ofText,
    fault?_mapM, List.findSome?_isSome_iff]

theorem isValid_of_readEntry {entry : List Char} {e : CurrencyPair × Decimal}
    (h : readEntry entry = .ok e) : e.1.IsValid := by
  unfold readEntry at h
  split at h
  · cases h
  · split at h
    · cases h
    · rename_i hpair
      split at h
      · cases h
      · cases h
        exact CurrencyPair.isValid_of_ofText? hpair

theorem isValid_of_ofText (h : ofText text = .ok rates) : ∀ e ∈ rates, e.1.IsValid := by
  intro e he
  obtain ⟨entry, -, hentry⟩ := exists_of_mem_of_mapM h he
  exact isValid_of_readEntry hentry

end RateListing

/-! ### Tables -/

def IsLastRate (rates : List (CurrencyPair × Decimal)) (pair : CurrencyPair) (rate : Decimal) :
    Prop :=
  ∃ before after, rates = before ++ (pair, rate) :: after ∧ ∀ e ∈ after, e.1 ≠ pair

namespace RateTable

variable {rates : List (CurrencyPair × Decimal)}

theorem get?_ofRates_of_isValid (h : ∀ e ∈ rates, e.1.IsValid) (pair : CurrencyPair) :
    (ofRates rates).get? pair.key = (rates.reverse.find? (·.1 = pair)).map (·.2) := by
  have hkey : ∀ e ∈ rates.reverse, decide (e.1.key = pair.key) = decide (e.1 = pair) := by
    intro e he
    have he := h e (List.mem_reverse.1 he)
    rw [decide_eq_decide, eq_comm, CurrencyPair.key_eq_iff he.1 he.2, eq_comm]
  rw [get?_ofRates_key, ← List.head?_filter, List.filter_congr hkey, List.head?_filter]

theorem get?_ofRates_eq_some_iff (h : ∀ e ∈ rates, e.1.IsValid) {pair : CurrencyPair}
    {rate : Decimal} : (ofRates rates).get? pair.key = some rate ↔ IsLastRate rates pair rate := by
  rw [get?_ofRates_of_isValid h, Option.map_eq_some_iff]
  constructor
  · rintro ⟨e, hfind, rfl⟩
    obtain ⟨hpair, after, before, hsplit, hafter⟩ := List.find?_eq_some_iff_append.1 hfind
    rw [decide_eq_true_eq] at hpair
    refine ⟨before.reverse, after.reverse, ?_, fun e' he' => ?_⟩
    · rw [← hpair, ← List.reverse_reverse rates, hsplit]
      simp
    · simpa using hafter e' (List.mem_reverse.1 he')
  · rintro ⟨before, after, rfl, hafter⟩
    refine ⟨(pair, rate), List.find?_eq_some_iff_append.2 ⟨by simp, after.reverse, before.reverse,
      by simp, fun e he => ?_⟩, rfl⟩
    simpa using hafter e (List.mem_reverse.1 he)

theorem get?_ofRates_eq_none_iff (h : ∀ e ∈ rates, e.1.IsValid) {pair : CurrencyPair} :
    (ofRates rates).get? pair.key = none ↔ ∀ e ∈ rates, e.1 ≠ pair := by
  rw [get?_ofRates_of_isValid h, Option.map_eq_none_iff, List.find?_eq_none]
  simp

theorem quote_ofRates_eq_ok_iff (h : ∀ e ∈ rates, e.1.IsValid) {pair : CurrencyPair}
    {rate : Decimal} : (ofRates rates).quote pair = .ok rate ↔ IsLastRate rates pair rate := by
  rw [← get?_ofRates_eq_some_iff h, quote]
  split <;> simp_all

theorem quote_ofRates_eq_error_iff (h : ∀ e ∈ rates, e.1.IsValid) {pair : CurrencyPair}
    {e : RateError} : (ofRates rates).quote pair = .error e ↔
      e = .unsupported pair ∧ ∀ entry ∈ rates, entry.1 ≠ pair := by
  rw [← get?_ofRates_eq_none_iff h, quote]
  cases (ofRates rates).get? pair.key with
  | none => simp [eq_comm]
  | some rate => simp

end RateTable

namespace RateListing

/-- Every spelling of a list of valid pairs and rates is read as that list; a text is not read if
and only if it has a malformed entry, and then the leftmost one is reported; and a service with the
rates of a text quotes the last one of each pair, and none for the pairs that have no entry. -/
theorem faithful_ofText :
    (∀ rates : List (CurrencyPair × Decimal), (∀ e ∈ rates, e.1.IsValid) →
      IsSpelt rates (toText rates) ∧ ∀ text, IsSpelt rates text → ofText text = .ok rates) ∧
    (∀ text,
      ((∃ e, ofText text = .error e) ↔ ∃ entry ∈ entries text, ∃ e, Malformed entry e) ∧
      ∀ e, ofText text = .error e ↔ IsLeftmostFault text e) ∧
    ∀ text rates, ofText text = .ok rates → ∀ pair : CurrencyPair,
      (∀ rate, (RateService.fixed (.ofRates rates)).quote pair = .ok rate ↔
        IsLastRate rates pair rate) ∧
      ∀ e, (RateService.fixed (.ofRates rates)).quote pair = .error e ↔
        e = .unsupported pair ∧ ∀ entry ∈ rates, entry.1 ≠ pair := by
  refine ⟨fun rates hvalid => ⟨isSpelt_toText hvalid, fun text => ofText_of_isSpelt hvalid⟩,
    fun text => ⟨exists_ofText_eq_error_iff, fun e => ofText_eq_error_iff⟩,
    fun text rates h pair => ?_⟩
  have hvalid := isValid_of_ofText h
  exact ⟨fun rate => RateTable.quote_ofRates_eq_ok_iff hvalid,
    fun e => RateTable.quote_ofRates_eq_error_iff hvalid⟩

/-- Two rates for one pair, of which the second is quoted; and a text whose second entry is the
first malformed one. -/
theorem faithful_ofText_repeated :
    let dollarsInEuros : CurrencyPair := ⟨.usd, .eur⟩
    let rates := [(dollarsInEuros, Decimal.small 92 2), (dollarsInEuros, Decimal.small (-1500) 3)]
    ofText " usd / Eur = 0.92 , ,USD/EUR=-1.500" = .ok rates ∧
      (RateService.fixed (.ofRates rates)).quote dollarsInEuros = .ok (.small (-1500) 3) ∧
      (RateService.fixed (.ofRates rates)).quote ⟨.eur, .usd⟩ = .error (.unsupported ⟨.eur, .usd⟩) ∧
      ofText "USD/EUR=1, EUR-USD = 2,=" = .error (.badPair "EUR-USD") := by
  intro dollarsInEuros rates
  have hspelt : IsSpelt rates " usd / Eur = 0.92 , ,USD/EUR=-1.500" := by
    refine ⟨[" usd / Eur = 0.92 ".toList, " ".toList, "USD/EUR=-1.500".toList],
      .entry ⟨" usd / Eur ".toList, " 0.92 ".toList, ?_, ?_, by decide +kernel⟩
        (.blank (by decide +kernel)
          (.entry ⟨"USD/EUR".toList, "-1.500".toList, ?_, ?_, by decide +kernel⟩ .nil)),
      by decide +kernel⟩
    · exact ⟨" usd ".toList, " Eur ".toList,
        ⟨" ".toList, "usd".toList, " ".toList, by decide +kernel⟩,
        ⟨" ".toList, "Eur".toList, " ".toList, by decide +kernel⟩, by decide +kernel⟩
    · exact ⟨" ".toList, " ".toList, by decide +kernel⟩
    · exact CurrencyPair.isSpelt_key (by decide +kernel)
    · exact ⟨[], [], by decide +kernel⟩
  have hread := (faithful_ofText.1 rates (by decide +kernel)).2 _ hspelt
  have hquote := faithful_ofText.2.2 _ rates hread
  refine ⟨hread, ((hquote dollarsInEuros).1 _).2 ⟨[(dollarsInEuros, .small 92 2)], [], rfl, nofun⟩,
    ((hquote ⟨.eur, .usd⟩).2 _).2 ⟨rfl, by decide +kernel⟩,
    ((faithful_ofText.2.1 _).2 _).2 ⟨["USD/EUR=1".toList], " EUR-USD = 2".toList, ["=".toList],
      by decide +kernel, fun x hx e h => ?_, ?_⟩⟩
  · have hgood : readEntry "USD/EUR=1".toList = .ok (dollarsInEuros, .small 1 0) := rfl
    rw [List.mem_singleton.1 hx, ← readEntry_eq_error_iff, hgood] at h
    cases h
  · exact readEntry_eq_error_iff.1 rfl

end RateListing

end CurrencyWallet

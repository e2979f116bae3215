import CurrencyWallet.Proofs.Currency.Pair

/-!
Texts that spell a valid code. Ten characters outside ASCII have capitals in ASCII: the sharp s, the
dotless i, the long s and seven ligatures. Such a character is as good as its capitals, and with
these in its place a text spells a valid code if and only if it is three letters between blanks.
-/
namespace CurrencyWallet

open Text

/-! ### Letters that stand for others -/

/-- The characters outside ASCII whose capitals are letters of ASCII, and these. -/
def latinForms : List (Char × List Char) :=
  [('ß', ['S', 'S']), ('ı', ['I']), ('ſ', ['S']), ('ﬀ', ['F', 'F']), ('ﬁ', ['F', 'I']),
   ('ﬂ', ['F', 'L']), ('ﬃ', ['F', 'F', 'I']), ('ﬄ', ['F', 'F', 'L']), ('ﬅ', ['S', 'T']),
   ('ﬆ', ['S', 'T'])]

def latin (c : Char) : List Char := (latinForms.lookup c).getD [c]

/-- The text with the capitals of those characters in their place. -/
def spelledOut (cs : List Char) : List Char := cs.flatMap latin

theorem isLetter_eq_isAlpha (c : Char) : isLetter c = c.isAlpha := by
  -- `Char.isAlpha` compares code points with those of `A` and `Z`, `a` and `z`.
  have halpha : c.isAlpha = true ↔
      65 ≤ c.toNat ∧ c.toNat ≤ 90 ∨ 97 ≤ c.toNat ∧ c.toNat ≤ 122 := by
    show (decide ('A'.val ≤ c.val ∧ c.val ≤ 'Z'.val) ||
      decide ('a'.val ≤ c.val) && decide (c.val ≤ 'z'.val)) = true ↔ _
    simp only [Bool.or_eq_true, Bool.and_eq_true, decide_eq_true_eq, UInt32.le_iff_toNat_le]
    rfl
  rw [Bool.eq_iff_iff, halpha, isLetter, isCapital_iff, toNat_toUpper]
  split <;> omega

theorem isLetter_of_isCapital {c : Char} (h : Currency.isCapital c = true) : isLetter c = true := by
  rwa [isLetter, toUpper_of_isCapital h]

theorem toNat_lt_of_isLetter {c : Char} (h : isLetter c = true) : c.toNat < 128 := by
  have := toNat_of_isLetter h
  omega

theorem capitals_of_mem_latinForms {c : Char} {capitals : List Char}
    (h : (c, capitals) ∈ latinForms) :
    128 ≤ c.toNat ∧ capitals = upperChar c ∧ ∀ x ∈ upperChar c, Currency.isCapital x = true := by
  have hforms : ∀ form ∈ latinForms, 128 ≤ form.1.toNat ∧ form.2 = upperChar form.1 ∧
      (upperChar form.1).all Currency.isCapital = true := by decide +kernel
  obtain ⟨hc, himage, hall⟩ := hforms _ h
  exact ⟨hc, himage, List.all_eq_true.1 hall⟩

theorem latin_cases (c : Char) :
    latin c = [c] ∨ 128 ≤ c.toNat ∧ latin c = upperChar c ∧
      ∀ x ∈ upperChar c, Currency.isCapital x = true := by
  unfold latin
  cases hlookup : latinForms.lookup c with
  | none => exact Or.inl rfl
  | some capitals => exact Or.inr (capitals_of_mem_latinForms (List.mem_of_lookup hlookup))

theorem latin_of_ascii {c : Char} (h : c.toNat < 128) : latin c = [c] :=
  (latin_cases c).resolve_right fun hlisted => by omega

theorem latinForms_lookup_of_ascii {n : Nat} (hn : 128 ≤ n) (h : ∀ m ∈ upperCodePoint n, m < 128) :
    latinForms.lookup (Char.ofNat n) = some ((upperCodePoint n).map Char.ofNat) := by
  unfold upperCodePoint at h ⊢
  split at h
  · rename_i image hlookup
    have hletters : ∀ letter ∈ expandingLetters, (∀ m ∈ letter.2, m < 128) →
        latinForms.lookup (Char.ofNat letter.1) = some (letter.2.map Char.ofNat) := by
      decide +kernel
    exact hletters _ (List.mem_of_lookup hlookup) h
  · cases hruns : caseRuns.findSome? (·.image? n) with
    | none =>
      have := h n (by simp [hruns])
      omega
    | some m =>
      have hm := h m (by simp [hruns])
      obtain ⟨run, hrun, himage⟩ := List.exists_of_findSome?_eq_some hruns
      unfold CaseRun.image? at himage
      split at himage
      · rename_i hbetween
        cases himage
        have hsingle : ∀ run ∈ caseRuns, 128 ≤ run.last → run.image < 128 →
            run.first = run.last ∧
              latinForms.lookup (Char.ofNat run.first) = some [Char.ofNat run.image] := by
          decide +kernel
        obtain ⟨hfirst, hform⟩ := hsingle run hrun (by omega) (by omega)
        have heq : n = run.first := by omega
        rw [heq, hform, Nat.sub_self]
        rfl
      · cases himage

theorem latinForms_lookup_upperChar {c : Char} (hc : 128 ≤ c.toNat)
    (h : ∀ x ∈ upperChar c, x.toNat < 128) : latinForms.lookup c = some (upperChar c) := by
  have hascii : ∀ n ∈ upperCodePoint c.toNat, n < 128 := by
    intro n hn
    have himage := h _ (List.mem_map_of_mem hn)
    rwa [toNat_ofNat_of_upperCodePoint hn] at himage
  have hlookup := latinForms_lookup_of_ascii hc hascii
  rwa [Char.ofNat_toNat] at hlookup

theorem mem_latinForms_iff {c : Char} {capitals : List Char} :
    (c, capitals) ∈ latinForms ↔
      128 ≤ c.toNat ∧ (∀ x ∈ upperChar c, x.toNat < 128) ∧ capitals = upperChar c := by
  constructor
  · intro h
    obtain ⟨hc, himage, hcapitals⟩ := capitals_of_mem_latinForms h
    refine ⟨hc, fun x hx => ?_, himage⟩
    exact toNat_lt_of_isLetter (isLetter_of_isCapital (hcapitals x hx))
  · rintro ⟨hc, hascii, rfl⟩
    exact List.mem_of_lookup (latinForms_lookup_upperChar hc hascii)

theorem latin_of_isCapital {c : Char} (hc : 128 ≤ c.toNat)
    (h : ∀ x ∈ upperChar c, Currency.isCapital x = true) : latin c = upperChar c := by
  have hascii : ∀ x ∈ upperChar c, x.toNat < 128 := fun x hx =>
    toNat_lt_of_isLetter (isLetter_of_isCapital (h x hx))
  rw [latin, latinForms_lookup_upperChar hc hascii, Option.getD_some]

theorem latin_of_not_mem {c : Char} (h : c ∉ latinForms.map (·.1)) : latin c = [c] := by
  have hlookup : latinForms.lookup c = none := by
    rw [List.lookup_eq_none_iff]
    rintro ⟨form, capitals⟩ hform
    exact bne_iff_ne.2 fun heq => h (heq ▸ List.mem_map_of_mem hform)
  rw [latin, hlookup, Option.getD_none]

theorem isCapital_upperChar_iff {c : Char} :
    (∀ x ∈ upperChar c, Currency.isCapital x = true) ↔ ∀ x ∈ latin c, isLetter x = true := by
  by_cases hc : c.toNat < 128
  · rw [latin_of_ascii hc, upperChar_of_ascii hc, List.forall_mem_singleton,
      List.forall_mem_singleton, isLetter]
  · constructor
    · intro h x hx
      rw [latin_of_isCapital (by omega) h] at hx
      exact isLetter_of_isCapital (h x hx)
    · intro h
      obtain hself | ⟨-, -, hcapitals⟩ := latin_cases c
      · rw [hself, List.forall_mem_singleton] at h
        exact absurd (toNat_lt_of_isLetter h) hc
      · exact hcapitals

theorem upperChar_of_isLetter {c : Char} (h : ∀ x ∈ latin c, isLetter x = true) :
    upperChar c = (latin c).map Char.toUpper := by
  obtain hself | ⟨-, hlatin, hcapitals⟩ := latin_cases c
  · rw [hself, List.forall_mem_singleton] at h
    rw [hself, upperChar_of_ascii (toNat_lt_of_isLetter h), List.map_singleton]
  · rw [hlatin, map_toUpper_of_isCapital hcapitals]

/-! ### Texts -/

theorem isCapital_uppercase_iff {cs : List Char} :
    (∀ x ∈ uppercase cs, Currency.isCapital x = true) ↔ ∀ x ∈ spelledOut cs, isLetter x = true := by
  simp only [uppercase, spelledOut, List.forall_mem_flatMap, isCapital_upperChar_iff]

theorem uppercase_of_spelledOut {cs : List Char} (h : ∀ x ∈ spelledOut cs, isLetter x = true) :
    uppercase cs = (spelledOut cs).map Char.toUpper := by
  rw [spelledOut, List.forall_mem_flatMap] at h
  rw [uppercase, spelledOut, List.map_flatMap]
  exact List.flatMap_congr fun c hc => upperChar_of_isLetter (h c hc)

theorem spelledOut_of_not_mem {cs : List Char} (h : ∀ c ∈ cs, c ∉ latinForms.map (·.1)) :
    spelledOut cs = cs := by
  rw [spelledOut, List.flatMap_congr fun c hc => latin_of_not_mem (h c hc), List.flatMap_singleton']

def IsThreeLetters (cs : List Char) : Prop := cs.length = 3 ∧ ∀ c ∈ cs, c.isAlpha = true

instance (cs : List Char) : Decidable (IsThreeLetters cs) :=
  @instDecidableAnd _ _ _ (List.decidableBAll _ cs)

namespace Currency

theorem isCode_uppercase_iff {cs : List Char} :
    IsCode (uppercase cs) ↔ IsThreeLetters (spelledOut cs) := by
  have hletters : (∀ x ∈ uppercase cs, 'A' ≤ x ∧ x ≤ 'Z') ↔
      ∀ x ∈ spelledOut cs, x.isAlpha = true := by
    simpa only [isCapital, Bool.and_eq_true, decide_eq_true_eq, isLetter_eq_isAlpha]
      using isCapital_uppercase_iff
  rw [IsCode, IsThreeLetters, hletters, and_congr_left_iff]
  intro h
  rw [uppercase_of_spelledOut fun x hx => (isLetter_eq_isAlpha x).trans (h x hx), List.length_map]

theorem isValid_ofText_iff_threeLetters {s : String} :
    (ofText s).IsValid ↔ IsThreeLetters (spelledOut (trim s.toList)) := by
  rw [isValid_iff, ofText_eq, String.toList_ofList, normal, isCode_uppercase_iff]

theorem toList_code_ofText {s : String} (h : IsThreeLetters (spelledOut (trim s.toList))) :
    (ofText s).code.toList = (spelledOut (trim s.toList)).map Char.toUpper := by
  rw [ofText_eq, String.toList_ofList, normal]
  exact uppercase_of_spelledOut fun x hx => (isLetter_eq_isAlpha x).trans (h.2 x hx)

theorem isThreeLetters_of_map_toUpper {cs ds : List Char} (h : IsThreeLetters cs)
    (hmap : cs.map Char.toUpper = ds.map Char.toUpper) : IsThreeLetters ds := by
  have hlength := congrArg List.length hmap
  rw [List.length_map, List.length_map] at hlength
  refine ⟨hlength ▸ h.1, fun d hd => ?_⟩
  obtain ⟨c, hc, hcase⟩ := List.mem_map.1 (hmap ▸ List.mem_map_of_mem hd)
  rw [← isLetter_eq_isAlpha, isLetter, ← hcase]
  exact (isLetter_eq_isAlpha c).trans (h.2 c hc)

/-- Trimmed and spelled out, the texts of valid codes are three letters of ASCII, and two texts have
one valid code if and only if these letters differ in nothing but their case. The characters that
are spelled out are those outside ASCII whose upper case is in ASCII; a text without them is spelled
out already. -/
theorem isValid_ofText :
    (∀ s, (ofText s).IsValid ↔ IsThreeLetters (spelledOut (trim s.toList))) ∧
    (∀ s t, ofText s = ofText t ∧ (ofText s).IsValid ↔
      IsThreeLetters (spelledOut (trim s.toList)) ∧
        (spelledOut (trim s.toList)).map Char.toUpper =
          (spelledOut (trim t.toList)).map Char.toUpper) ∧
    (∀ c capitals, (c, capitals) ∈ latinForms ↔
      128 ≤ c.toNat ∧ (∀ x ∈ upperChar c, x.toNat < 128) ∧ capitals = upperChar c) ∧
    ∀ s : String, (∀ c ∈ trim s.toList, c ∉ latinForms.map (·.1)) →
      spelledOut (trim s.toList) = trim s.toList := by
  refine ⟨fun s => isValid_ofText_iff_threeLetters, fun s t => ?_,
    fun c capitals => mem_latinForms_iff, fun s h => spelledOut_of_not_mem h⟩
  rw [← code_inj, ← String.toList_inj]
  constructor
  · rintro ⟨hcode, hvalid⟩
    have hs := isValid_ofText_iff_threeLetters.1 hvalid
    have ht : IsThreeLetters (spelledOut (trim t.toList)) := by
      rw [← isValid_ofText_iff_threeLetters, isValid_iff, ← hcode, ← isValid_iff]
      exact hvalid
    exact ⟨hs, by rw [← toList_code_ofText hs, hcode, toList_code_ofText ht]⟩
  · rintro ⟨hs, hcase⟩
    have ht := isThreeLetters_of_map_toUpper hs hcase
    exact ⟨by rw [toList_code_ofText hs, hcase, toList_code_ofText ht],
      isValid_ofText_iff_threeLetters.2 hs⟩

theorem isValid_ofText_dollars :
    (ofText " uSd\t").IsValid ∧ ofText " uSd\t" = ofText "uſd" ∧ ('ſ', ['S']) ∈ latinForms ∧
      spelledOut (trim " uSd\t".toList) = trim " uSd\t".toList := by
  obtain ⟨hvalid, hsame, hforms, hplain⟩ := isValid_ofText
  have htrim : trim " uSd\t".toList = ['u', 'S', 'd'] := by decide +kernel
  have hlong : upperChar 'ſ' = ['S'] := by decide +kernel
  refine ⟨(hvalid _).2 (by decide +kernel), ?_, (hforms _ _).2 ⟨by decide, ?_, hlong.symm⟩,
    hplain _ ?_⟩
  · exact ((hsame _ _).2 (by decide +kernel)).1
  · rw [hlong, List.forall_mem_singleton]
    decide
  · rw [htrim]
    simp [latinForms]

theorem not_forall_isValid_iff_threeLetters :
    ¬ ∀ s, (ofText s).IsValid ↔ IsThreeLetters (trim s.toList) := by
  intro h
  have hvalid : (ofText "uſd").IsValid := by decide +kernel
  exact absurd ((h "uſd").1 hvalid) (by decide +kernel)

end Currency

end CurrencyWallet

import CurrencyWallet.Currency
import CurrencyWallet.Proofs.Text.Normal

/-!
Spellings of codes and pairs. A code can be spelt with letters of either case and blanks around
them, and a pair by two codes around a slash; the reader finds the code and the pair again. The key
of a pair of valid codes is the key of no other pair, whatever the codes of the other one are. A
text is read as a pair if and only if it has one slash with a code on either side of it.
-/
namespace CurrencyWallet

open Text

/-! ### Letters -/

def isLetter (c : Char) : Bool := Currency.isCapital c.toUpper

theorem isCapital_iff {c : Char} : Currency.isCapital c = true ↔ 65 ≤ c.toNat ∧ c.toNat ≤ 90 := by
  simp only [Currency.isCapital, Bool.and_eq_true, decide_eq_true_eq, Char.le_def,
    UInt32.le_iff_toNat_le]
  rfl

theorem toNat_of_isLetter {c : Char} (h : isLetter c = true) :
    65 ≤ c.toNat ∧ c.toNat ≤ 90 ∨ 97 ≤ c.toNat ∧ c.toNat ≤ 122 := by
  rw [isLetter, isCapital_iff, toNat_toUpper] at h
  split at h <;> omega

theorem isBlank_of_isLetter {c : Char} (h : isLetter c = true) : isBlank c = false := by
  have hrange := toNat_of_isLetter h
  exact isBlank_of_graphic (by omega) (by omega)

theorem toUpper_of_isCapital {c : Char} (h : Currency.isCapital c = true) : c.toUpper = c := by
  rw [isCapital_iff] at h
  refine Char.toNat_inj.1 ?_
  rw [toNat_toUpper, if_neg (by omega)]

theorem map_toUpper_of_isCapital {cs : List Char} (h : ∀ c ∈ cs, Currency.isCapital c = true) :
    cs.map Char.toUpper = cs :=
  (List.map_congr_left fun c hc => toUpper_of_isCapital (h c hc)).trans (List.map_id _)

theorem uppercase_of_isLetter {cs : List Char} (h : ∀ c ∈ cs, isLetter c = true) :
    uppercase cs = cs.map Char.toUpper := by
  induction cs with
  | nil => rfl
  | cons c cs ih =>
    obtain ⟨hc, hcs⟩ := List.forall_mem_cons.1 h
    have hascii : c.toNat < 128 := by
      have := toNat_of_isLetter hc
      omega
    rw [uppercase_cons, upperChar_of_ascii hascii, ih hcs]
    rfl

/-! ### Codes -/

namespace Currency

def IsSpelt (c : Currency) (cs : List Char) : Prop :=
  ∃ left letters right, allBlank left = true ∧ allBlank right = true ∧
    letters.map Char.toUpper = c.code.toList ∧ cs = left ++ letters ++ right

variable {c : Currency} {cs : List Char}

theorem isLetter_of_letters (hc : c.IsValid) {letters : List Char}
    (h : letters.map Char.toUpper = c.code.toList) : ∀ x ∈ letters, isLetter x = true := by
  intro x hx
  have hmem : x.toUpper ∈ c.code.toList := h ▸ List.mem_map_of_mem hx
  exact List.all_eq_true.1 hc.2 _ hmem

theorem letters_ne_nil (hc : c.IsValid) {letters : List Char}
    (h : letters.map Char.toUpper = c.code.toList) : letters ≠ [] := by
  rintro rfl
  have hlen := hc.1
  rw [← h] at hlen
  cases hlen

theorem isSpelt_code (hc : c.IsValid) : c.IsSpelt c.code.toList := by
  refine ⟨[], c.code.toList, [], rfl, rfl, ?_, by simp⟩
  exact map_toUpper_of_isCapital (List.all_eq_true.1 hc.2)

theorem isSpelt_trimStart (hc : c.IsValid) (h : c.IsSpelt cs) : c.IsSpelt (trimStart cs) := by
  obtain ⟨left, letters, right, hleft, hright, hletters, rfl⟩ := h
  have hblank x hx := isBlank_of_isLetter (isLetter_of_letters hc hletters x hx)
  refine ⟨[], letters, right, rfl, hright, hletters, ?_⟩
  rw [List.append_assoc, trimStart_append_of_allBlank hleft,
    trimStart_append_of_not_isBlank (letters_ne_nil hc hletters) hblank]
  rfl

theorem isSpelt_trimEnd (hc : c.IsValid) (h : c.IsSpelt cs) : c.IsSpelt (trimEnd cs) := by
  obtain ⟨left, letters, right, hleft, hright, hletters, rfl⟩ := h
  have hblank x hx := isBlank_of_isLetter (isLetter_of_letters hc hletters x hx)
  refine ⟨left, letters, [], hleft, rfl, hletters, ?_⟩
  rw [trimEnd_append_of_allBlank hright,
    trimEnd_append_of_not_isBlank (letters_ne_nil hc hletters) hblank, List.append_nil]

theorem not_mem_of_isSpelt (hc : c.IsValid) (h : c.IsSpelt cs) {x : Char}
    (hblank : isBlank x = false) (hletter : isLetter x = false) : x ∉ cs := by
  obtain ⟨left, letters, right, hleft, hright, hletters, rfl⟩ := h
  have hnot : x ∉ letters := fun hx => by
    rw [isLetter_of_letters hc hletters x hx] at hletter
    cases hletter
  simp [not_mem_of_allBlank hleft hblank, not_mem_of_allBlank hright hblank, hnot]

theorem ofText_of_isSpelt (hc : c.IsValid) (h : c.IsSpelt cs) : ofText (String.ofList cs) = c := by
  obtain ⟨left, letters, right, hleft, hright, hletters, rfl⟩ := h
  have hletter := isLetter_of_letters hc hletters
  have htrim : trim letters = letters := trim_of_not_isBlank fun x hx =>
    isBlank_of_isLetter (hletter x hx)
  rw [ofText, String.toList_ofList, trim_padded hleft hright, htrim, uppercase_of_isLetter hletter,
    hletters, String.ofList_toList]

def IsCode (cs : List Char) : Prop := cs.length = 3 ∧ ∀ x ∈ cs, 'A' ≤ x ∧ x ≤ 'Z'

instance (cs : List Char) : Decidable (IsCode cs) :=
  @instDecidableAnd _ _ _ (List.decidableBAll _ cs)

theorem isValid_iff : c.IsValid ↔ IsCode c.code.toList := by
  simp only [IsValid, IsCode, isCapital, List.all_eq_true, Bool.and_eq_true, decide_eq_true_eq]

theorem ofText_eq (s : String) : ofText s = ⟨String.ofList (normal s.toList)⟩ := rfl

def IsNormal (c : Currency) : Prop := ofText c.code = c

instance (c : Currency) : Decidable c.IsNormal := inferInstanceAs (Decidable (_ = _))

theorem isNormal_ofText (s : String) : (ofText s).IsNormal := by
  rw [IsNormal, ofText_eq, ofText_eq, String.toList_ofList, normal_normal]

theorem isNormal_of_isValid (h : c.IsValid) : c.IsNormal := by
  have hcode := ofText_of_isSpelt h (isSpelt_code h)
  rwa [String.ofList_toList] at hcode

theorem slash_not_mem (h : c.IsValid) : '/' ∉ c.code.toList := by
  intro hmem
  have hcapital := List.all_eq_true.1 h.2 _ hmem
  exact absurd hcapital (by decide)

end Currency

/-! ### Pairs -/

namespace CurrencyPair

def IsValid (p : CurrencyPair) : Prop := p.source.IsValid ∧ p.target.IsValid

instance (p : CurrencyPair) : Decidable p.IsValid := inferInstanceAs (Decidable (_ ∧ _))

def IsSpelt (p : CurrencyPair) (cs : List Char) : Prop :=
  ∃ source target, p.source.IsSpelt source ∧ p.target.IsSpelt target ∧
    cs = source ++ '/' :: target

variable {p : CurrencyPair} {cs : List Char}

theorem toList_key (p : CurrencyPair) :
    p.key.toList = p.source.code.toList ++ '/' :: p.target.code.toList := by
  simp [key]

theorem isSpelt_key (hp : p.IsValid) : p.IsSpelt p.key.toList :=
  ⟨_, _, Currency.isSpelt_code hp.1, Currency.isSpelt_code hp.2, toList_key p⟩

theorem isSpelt_trim (hp : p.IsValid) (h : p.IsSpelt cs) : p.IsSpelt (trim cs) := by
  obtain ⟨source, target, hsource, htarget, rfl⟩ := h
  exact ⟨_, _, Currency.isSpelt_trimStart hp.1 hsource, Currency.isSpelt_trimEnd hp.2 htarget,
    trim_append_cons (by decide) source target⟩

theorem not_mem_of_isSpelt (hp : p.IsValid) (h : p.IsSpelt cs) {x : Char}
    (hblank : isBlank x = false) (hletter : isLetter x = false) (hslash : x ≠ '/') : x ∉ cs := by
  obtain ⟨source, target, hsource, htarget, rfl⟩ := h
  simp [Currency.not_mem_of_isSpelt hp.1 hsource hblank hletter,
    Currency.not_mem_of_isSpelt hp.2 htarget hblank hletter, hslash]

theorem ofText?_of_isSpelt (hp : p.IsValid) (h : p.IsSpelt cs) :
    ofText? (String.ofList cs) = some p := by
  obtain ⟨source, target, hsource, htarget, rfl⟩ := h
  have hslash : '/' ∉ source := Currency.not_mem_of_isSpelt hp.1 hsource (by decide) (by decide)
  simp only [ofText?, String.toList_ofList, splitOnce_append hslash,
    Currency.ofText_of_isSpelt hp.1 hsource, Currency.ofText_of_isSpelt hp.2 htarget]
  exact if_pos hp

theorem isValid_of_ofText? {s : String} (h : ofText? s = some p) : p.IsValid := by
  unfold ofText? at h
  split at h
  · cases h
  · simp only [Option.ite_none_right_eq_some, Option.some.injEq] at h
    obtain ⟨hvalid, rfl⟩ := h
    exact hvalid

theorem key_eq_iff {p q : CurrencyPair} (hs : q.source.IsValid) (ht : q.target.IsValid) :
    p.key = q.key ↔ p = q := by
  constructor
  · intro h
    have htexts := congrArg String.toList h
    rw [toList_key, toList_key] at htexts
    obtain ⟨hsource, htarget⟩ := append_separator_inj (Currency.slash_not_mem hs)
      (Currency.slash_not_mem ht) htexts
    obtain ⟨source, target⟩ := p
    obtain ⟨source', target'⟩ := q
    rw [String.toList_inj, Currency.code_inj] at hsource htarget
    cases hsource
    cases htarget
    rfl
  · rintro rfl
    rfl

/-- The text has one slash, and the normal forms of its two sides are codes, those of the pair. -/
def IsReadingOf (p : CurrencyPair) (s : String) : Prop :=
  ∃ left right, s.toList = left ++ '/' :: right ∧ '/' ∉ left ∧ '/' ∉ right ∧
    Currency.IsCode (normal left) ∧ Currency.IsCode (normal right) ∧
    p = ⟨⟨String.ofList (normal left)⟩, ⟨String.ofList (normal right)⟩⟩

theorem slash_not_mem_of_isCode {cs : List Char} (h : Currency.IsCode (normal cs)) : '/' ∉ cs := by
  rw [← mem_normal_iff (by decide) (by decide)]
  intro hmem
  exact absurd (h.2 _ hmem) (by decide)

theorem ofText?_eq_some_iff {s : String} : ofText? s = some p ↔ p.IsReadingOf s := by
  have hcode (cs : List Char) : (Currency.ofText (String.ofList cs)).IsValid ↔
      Currency.IsCode (normal cs) := by
    rw [Currency.isValid_iff, Currency.ofText_eq, String.toList_ofList, String.toList_ofList]
  constructor
  · intro h
    unfold ofText? at h
    split at h
    · cases h
    · rename_i left right hsplit
      simp only [hcode, Option.ite_none_right_eq_some, Option.some.injEq] at h
      obtain ⟨⟨hleft, hright⟩, rfl⟩ := h
      obtain ⟨hs, hslash⟩ := splitOnce_eq_some hsplit
      refine ⟨left, right, hs, hslash, slash_not_mem_of_isCode hright, hleft, hright, ?_⟩
      simp only [Currency.ofText_eq, String.toList_ofList]
  · rintro ⟨left, right, hs, hslash, -, hleft, hright, rfl⟩
    have hvalid := And.intro ((hcode left).2 hleft) ((hcode right).2 hright)
    simp only [ofText?, hs, splitOnce_append hslash, if_pos hvalid]
    simp only [Currency.ofText_eq, String.toList_ofList]

theorem ofText_eq_ok_iff {s : String} : ofText s = .ok p ↔ p.IsReadingOf s := by
  rw [← ofText?_eq_some_iff, ofText]
  cases ofText? s <;> simp

theorem ofText_eq_error_iff {s : String} {e : PairError} :
    ofText s = .error e ↔ e.text = s ∧ ∀ p : CurrencyPair, ¬ p.IsReadingOf s := by
  simp only [← ofText?_eq_some_iff, ofText]
  cases ofText? s with
  | some pair => simp
  | none =>
    obtain ⟨text⟩ := e
    simp [eq_comm]

theorem ofText_key (hp : p.IsValid) : ofText p.key = .ok p := by
  have h := ofText?_of_isSpelt hp (isSpelt_key hp)
  rw [String.ofList_toList] at h
  rw [ofText, h]

theorem isValid_of_ofText {s : String} (h : ofText s = .ok p) : p.IsValid := by
  rw [ofText_eq_ok_iff, ← ofText?_eq_some_iff] at h
  exact isValid_of_ofText? h

/-- Pairs of valid codes with one key are one pair, which is read from the key again. A text is read
if and only if it has one slash with a code on either side, the pair it is read as is also read from
the key, and a text that is not read is reported as it is. -/
theorem faithful_key :
    (∀ p q : CurrencyPair, p.IsValid → q.IsValid → p.key = q.key → p = q) ∧
    (∀ p : CurrencyPair, p.IsValid → ofText p.key = .ok p) ∧
    (∀ s p, ofText s = .ok p ↔ p.IsReadingOf s) ∧
    (∀ s p, ofText s = .ok p → ofText p.key = .ok p) ∧
    ∀ s e, ofText s = .error e ↔ e.text = s ∧ ∀ p : CurrencyPair, ¬ p.IsReadingOf s := by
  refine ⟨fun p q _ hq h => (key_eq_iff hq.1 hq.2).1 h, fun p hp => ofText_key hp,
    fun s p => ofText_eq_ok_iff, fun s p h => ofText_key (isValid_of_ofText h),
    fun s e => ofText_eq_error_iff⟩

/-- A pair in small letters between blanks, a sharp s that is two capitals, and a second slash. -/
theorem faithful_key_spacious :
    ofText " usd\t/\u3000eUr " = .ok ⟨.usd, .eur⟩ ∧ ofText "USD/EUR" = .ok ⟨.usd, .eur⟩ ∧
      ofText "\u00dfp/EUR" = .ok ⟨⟨"SSP"⟩, .eur⟩ ∧ ofText "USD/EUR/" = .error ⟨"USD/EUR/"⟩ ∧
      ∀ p : CurrencyPair, p.IsValid → p.key = "USD/EUR" → p = ⟨.usd, .eur⟩ := by
  obtain ⟨hkey, -, hok, hagain, herror⟩ := faithful_key
  have hspacious : ofText " usd\t/\u3000eUr " = .ok ⟨.usd, .eur⟩ :=
    (hok _ _).2 ⟨" usd\t".toList, "\u3000eUr ".toList, by decide +kernel⟩
  refine ⟨hspacious, hagain _ _ hspacious,
    (hok _ _).2 ⟨"\u00dfp".toList, "EUR".toList, by decide +kernel⟩,
    (herror _ _).2 ⟨rfl, fun p hp => ?_⟩, fun p hp h => hkey p _ hp (by decide +kernel) h⟩
  have hnone : ofText? "USD/EUR/" = none := by decide +kernel
  rw [← ofText?_eq_some_iff, hnone] at hp
  cases hp

end CurrencyPair

end CurrencyWallet

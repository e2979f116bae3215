import CurrencyWallet.Decimal.Text
import CurrencyWallet.Text.Blank

/-!
What is written is read. A decimal is written in digits with at most one point and one sign, and
the reader, which takes one digit after the other, comes to the same coefficient with the same
places: no digit of a decimal is one too many.
-/
namespace CurrencyWallet.Decimal

open Text

def AllDigits (cs : List Char) : Prop := ∀ c ∈ cs, c.isDigit = true

def numberFrom (acc : Nat) (cs : List Char) : Nat := Nat.ofDigitChars 10 cs acc

theorem numberFrom_cons (acc : Nat) (c : Char) (cs : List Char) :
    numberFrom acc (c :: cs) = numberFrom (10 * acc + (c.toNat - '0'.toNat)) cs :=
  Nat.ofDigitChars_cons

theorem numberFrom_append (acc : Nat) (xs ys : List Char) :
    numberFrom acc (xs ++ ys) = numberFrom (numberFrom acc xs) ys := Nat.ofDigitChars_append acc

theorem numberFrom_natDigits (n : Nat) : numberFrom 0 (natDigits n) = n :=
  Nat.ofDigitChars_toDigits (by decide) (by decide)

def digitMark (c : Char) : Mark := some (c.toNat - '0'.toNat)

theorem allDigits_append {xs ys : List Char} :
    AllDigits (xs ++ ys) ↔ AllDigits xs ∧ AllDigits ys := List.forall_mem_append

theorem allDigits_natDigits (n : Nat) : AllDigits (natDigits n) := fun _ hc =>
  Nat.isDigit_of_mem_toDigits (by decide) (by decide) hc

theorem allDigits_padded (width n : Nat) : AllDigits (padded width n) := by
  refine allDigits_append.2 ⟨fun c hc => ?_, allDigits_natDigits n⟩
  rw [List.eq_of_mem_replicate hc]
  decide

theorem ne_of_isDigit {c x : Char} (hc : c.isDigit = true) (hx : x.isDigit = false) : c ≠ x := by
  rintro rfl
  rw [hc] at hx
  cases hx

theorem not_mem_of_allDigits {cs : List Char} (h : AllDigits cs) {x : Char}
    (hx : x.isDigit = false) : x ∉ cs := fun hmem => ne_of_isDigit (h x hmem) hx rfl

theorem numberFrom_padded (width n : Nat) : numberFrom 0 (padded width n) = n := by
  have hzeros : numberFrom 0 (List.replicate (width - (natDigits n).length) '0') = 0 := by
    rw [numberFrom, Nat.ofDigitChars_replicate_zero, Nat.mul_zero]
  rw [padded, numberFrom_append, hzeros, numberFrom_natDigits]

theorem le_numberFrom (acc : Nat) (cs : List Char) : acc ≤ numberFrom acc cs := by
  induction cs generalizing acc with
  | nil => exact Nat.le_refl acc
  | cons c cs ih =>
    have := ih (10 * acc + (c.toNat - '0'.toNat))
    rw [numberFrom_cons]
    omega

/-! ### Reading digits -/

theorem mark?_of_isDigit {c : Char} (h : c.isDigit = true) : mark? c = some (digitMark c) := by
  have hrange : '0' ≤ c ∧ c ≤ '9' := by simpa [Char.isDigit, Char.le_def] using h
  rw [mark?, if_neg (ne_of_isDigit h (by decide)), digit?, if_pos hrange]
  rfl

theorem marks?_of_allDigits {cs : List Char} (h : AllDigits cs) :
    marks? cs = some (cs.map digitMark) := by
  induction cs with
  | nil => rfl
  | cons c cs ih =>
    obtain ⟨hc, hcs⟩ := List.forall_mem_cons.1 h
    have ih := ih hcs
    rw [marks?] at ih ⊢
    rw [List.mapM_cons, mark?_of_isDigit hc, ih]
    rfl

theorem ofDigits_marks (acc : Nat) (cs : List Char) :
    ofDigits acc ((cs.map digitMark).filterMap id) = numberFrom acc cs := by
  rw [List.filterMap_map, ofDigits, List.foldl_filterMap]
  rfl

theorem takePlaces_marks {m scale : Nat} {cs : List Char}
    (hfit : numberFrom m cs < coefficientLimit) (hlen : scale + cs.length ≤ maxScale) :
    takePlaces m scale (cs.map digitMark) = some (numberFrom m cs, scale + cs.length) := by
  induction cs generalizing m scale with
  | nil => rfl
  | cons c cs ih =>
    rw [List.length_cons] at hlen ⊢
    rw [numberFrom_cons] at hfit ⊢
    have hnext := Nat.lt_of_le_of_lt (le_numberFrom _ cs) hfit
    rw [List.map_cons, digitMark, takePlaces, if_pos ⟨by omega, hnext⟩, ih hfit (by omega)]
    congr 2
    omega

theorem readMagnitude_of_split {cs whole places : List Char}
    (hsplit : (splitOnce '.' cs).getD (cs, []) = (whole, places)) (hne : whole ≠ [])
    (hwhole : AllDigits whole) (hplaces : AllDigits places)
    (hfit : numberFrom 0 (whole ++ places) < coefficientLimit) (hlen : places.length ≤ maxScale) :
    readMagnitude cs = some (numberFrom 0 (whole ++ places), places.length) := by
  obtain ⟨c, whole, rfl⟩ := List.exists_cons_of_ne_nil hne
  rw [numberFrom_append] at hfit ⊢
  have hstart := Nat.lt_of_le_of_lt (le_numberFrom _ places) hfit
  have hread : takePlaces (numberFrom 0 (c :: whole)) 0 (places.map digitMark) = _ :=
    takePlaces_marks hfit (by omega)
  rw [Nat.zero_add] at hread
  simp only [readMagnitude, hsplit, marks?_of_allDigits hwhole, marks?_of_allDigits hplaces,
    Option.bind_eq_bind, Option.bind_some]
  rw [ofDigits_marks, if_pos hstart, hread]
  rfl

/-! ### Reading what is written -/

theorem exists_magnitudeText (m scale : Nat) : ∃ whole places : List Char, whole ≠ [] ∧
    AllDigits whole ∧ AllDigits places ∧ numberFrom 0 (whole ++ places) = m ∧
    places.length = scale ∧
    magnitudeText m scale = if scale = 0 then whole else whole ++ '.' :: places := by
  by_cases hs : scale = 0
  · refine ⟨natDigits m, [], Nat.toDigits_ne_nil, allDigits_natDigits m, by simp [AllDigits], ?_,
      hs.symm, ?_⟩
    · rw [List.append_nil, numberFrom_natDigits]
    · rw [magnitudeText, if_pos hs, if_pos hs]
  · have hlen : scale + 1 ≤ (padded (scale + 1) m).length := by
      simp only [padded, List.length_append, List.length_replicate]
      omega
    have hsplit := List.take_append_drop ((padded (scale + 1) m).length - scale)
      (padded (scale + 1) m)
    have hdigits := allDigits_padded (scale + 1) m
    rw [← hsplit, allDigits_append] at hdigits
    refine ⟨_, _, ?_, hdigits.1, hdigits.2, ?_, ?_, ?_⟩
    · intro hnil
      have := congrArg List.length hnil
      rw [List.length_take, List.length_nil] at this
      omega
    · rw [hsplit, numberFrom_padded]
    · rw [List.length_drop]
      omega
    · rw [magnitudeText, if_neg hs, if_neg hs]

theorem readMagnitude_magnitudeText {m scale : Nat} (hm : m < coefficientLimit)
    (hs : scale ≤ maxScale) : readMagnitude (magnitudeText m scale) = some (m, scale) := by
  obtain ⟨whole, places, hne, hwhole, hplaces, hnumber, hlen, htext⟩ :=
    exists_magnitudeText m scale
  have hpoint : '.' ∉ whole := not_mem_of_allDigits hwhole (by decide)
  have hsplit : (splitOnce '.' (magnitudeText m scale)).getD (magnitudeText m scale, []) =
      (whole, places) := by
    rw [htext]
    split
    · rename_i h
      rw [splitOnce_eq_none_iff.2 hpoint, List.eq_nil_of_length_eq_zero (hlen.trans h)]
      rfl
    · rw [splitOnce_append hpoint]
      rfl
  rw [readMagnitude_of_split hsplit hne hwhole hplaces (hnumber ▸ hm) (hlen ▸ hs), hnumber, hlen]

theorem exists_magnitudeText_cons (m scale : Nat) : ∃ (c : Char) (rest : List Char),
    c.isDigit = true ∧ magnitudeText m scale = c :: rest := by
  obtain ⟨whole, places, hne, hwhole, -, -, -, htext⟩ := exists_magnitudeText m scale
  obtain ⟨c, whole, rfl⟩ := List.exists_cons_of_ne_nil hne
  rw [htext]
  split
  · exact ⟨c, _, hwhole c List.mem_cons_self, rfl⟩
  · exact ⟨c, _, hwhole c List.mem_cons_self, rfl⟩

theorem readPlain_of_isDigit {c : Char} (h : c.isDigit = true) (rest : List Char) :
    readPlain (c :: rest) =
      (readMagnitude (c :: rest)).bind fun (m, scale) => ofParts? (withSign 1 m) scale := by
  have hminus : c ≠ '-' := ne_of_isDigit h (by decide)
  have hplus : c ≠ '+' := ne_of_isDigit h (by decide)
  simp [readPlain, hminus, hplus]

theorem readPlain_chars (d : Decimal) : readPlain d.chars = some d := by
  have hread := readMagnitude_magnitudeText d.coeff_lt d.scale_le
  have hparts : ofParts? d.coeff d.scale = some d := by
    rw [ofParts?, dif_pos d.coeff_lt, dif_pos d.scale_le]
  rw [chars]
  by_cases hneg : d.coeff < 0
  · have hcoeff : withSign (-1) d.coeff.natAbs = d.coeff := by
      rw [withSign, if_pos (by decide)]
      omega
    simp only [if_pos hneg, readPlain, hread, Option.bind_some, hcoeff, hparts]
  · have hcoeff : withSign 1 d.coeff.natAbs = d.coeff := by
      rw [withSign, if_neg (by decide)]
      omega
    obtain ⟨c, rest, hc, htext⟩ := exists_magnitudeText_cons d.coeff.natAbs d.scale
    simp only [if_neg hneg]
    rw [htext] at hread ⊢
    simp only [readPlain_of_isDigit hc, hread, Option.bind_some, hcoeff, hparts]

theorem ofText?_toText (d : Decimal) : ofText? d.toText = some d := by
  rw [ofText?, toText, String.toList_ofList, ofChars?, readPlain_chars]
  rfl

theorem isDigit_or_of_mem_chars {d : Decimal} {c : Char} (h : c ∈ d.chars) :
    c.isDigit = true ∨ c = '.' ∨ c = '-' := by
  have hmagnitude (h : c ∈ magnitudeText d.coeff.natAbs d.scale) : c.isDigit = true ∨ c = '.' := by
    obtain ⟨whole, places, -, hwhole, hplaces, -, -, htext⟩ :=
      exists_magnitudeText d.coeff.natAbs d.scale
    rw [htext] at h
    split at h
    · exact .inl (hwhole c h)
    · obtain h | rfl | h := by simpa using h
      · exact .inl (hwhole c h)
      · exact .inr rfl
      · exact .inl (hplaces c h)
  rw [chars] at h
  split at h
  · obtain rfl | h := List.mem_cons.1 h
    · exact .inr (.inr rfl)
    · exact (hmagnitude h).imp_right .inl
  · exact (hmagnitude h).imp_right .inl

theorem isBlank_of_mem_chars {d : Decimal} {c : Char} (h : c ∈ d.chars) : isBlank c = false := by
  obtain hc | rfl | rfl := isDigit_or_of_mem_chars h
  · have hrange : 48 ≤ c.toNat ∧ c.toNat ≤ 57 := by
      simpa [Char.isDigit, UInt32.le_iff_toNat_le] using hc
    exact isBlank_of_graphic (by omega) (by omega)
  · decide
  · decide

def IsSpelt (d : Decimal) (cs : List Char) : Prop :=
  ∃ left right, allBlank left = true ∧ allBlank right = true ∧ cs = left ++ d.chars ++ right

theorem trim_of_isSpelt {d : Decimal} {cs : List Char} (h : d.IsSpelt cs) : trim cs = d.chars := by
  obtain ⟨left, right, hleft, hright, rfl⟩ := h
  rw [trim_padded hleft hright, trim_of_not_isBlank fun _ => isBlank_of_mem_chars]

theorem not_mem_of_isSpelt {d : Decimal} {cs : List Char} (h : d.IsSpelt cs) {x : Char}
    (hblank : isBlank x = false) (hdigit : x.isDigit = false) (hpoint : x ≠ '.')
    (hminus : x ≠ '-') : x ∉ cs := by
  obtain ⟨left, right, hleft, hright, rfl⟩ := h
  have hchars : x ∉ d.chars := fun hmem => by
    obtain hx | hx | hx := isDigit_or_of_mem_chars hmem
    · rw [hx] at hdigit
      cases hdigit
    · exact hpoint hx
    · exact hminus hx
  simp [not_mem_of_allBlank hleft hblank, not_mem_of_allBlank hright hblank, hchars]

end CurrencyWallet.Decimal

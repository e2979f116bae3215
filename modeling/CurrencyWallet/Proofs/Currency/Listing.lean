import CurrencyWallet.Proofs.Currency.Pair
import Mathlib.Data.List.Sort
import Mathlib.Logic.Relation

/-!
Lists of codes as texts. What is read from a text depends only on the set of the codes that its
parts spell, so that order, repetition, blank parts, blanks and the case of letters do not count.
The codes that are read, joined by commas, are read as the same list again.
-/
namespace CurrencyWallet

open Text

theorem ascending_ext {κ : Type} [KeyOrder κ] [DecidableEq κ] {ks ls : List κ}
    (h : ∀ k, k ∈ ks ↔ k ∈ ls) : ascending ks = ascending ls := by
  have : @Std.Irrefl κ (· < ·) := ⟨KeyOrder.irrefl⟩
  have : @Std.Antisymm κ (· < ·) :=
    ⟨fun _ _ hab hba => absurd (KeyOrder.trans hab hba) (KeyOrder.irrefl _)⟩
  refine (pairwise_ascending ks).eq_of_mem_iff (pairwise_ascending ls) fun k => ?_
  rw [mem_ascending, mem_ascending, h]

namespace Currency

def segments (s : String) : List (List Char) := splitAt ',' s.toList

def IsListedIn (c : Currency) (parts : List (List Char)) : Prop :=
  ∃ part ∈ parts, allBlank part = false ∧ c = ofText (String.ofList part)

variable {s t : String} {c : Currency} {parts : List (List Char)}

theorem mem_listOfText_iff : c ∈ listOfText s ↔ c.IsListedIn (segments s) := by
  simp only [listOfText, mem_ascending, List.mem_map, List.mem_filter, Bool.not_eq_true',
    IsListedIn, segments, and_assoc, @eq_comm _ c]

theorem listOfText_eq_iff :
    listOfText s = listOfText t ↔ ∀ c, IsListedIn c (segments s) ↔ IsListedIn c (segments t) := by
  constructor
  · intro h c
    rw [← mem_listOfText_iff, h, mem_listOfText_iff]
  · intro h
    refine ascending_ext fun c => ?_
    have hc := h c
    rwa [← mem_listOfText_iff, ← mem_listOfText_iff, listOfText, listOfText, mem_ascending,
      mem_ascending] at hc

/-! ### Changes that do not count -/

/-- One change of the segments: in their order, in one that is there twice or blank, or in the
blanks around one or the case of its letters. -/
inductive Retouch : List (List Char) → List (List Char) → Prop
  | reordered {parts parts'} (h : parts.Perm parts') : Retouch parts parts'
  | repeated {before part after} (h : part ∈ before ++ after) :
      Retouch (before ++ after) (before ++ part :: after)
  | blank {before part after} (h : allBlank part = true) :
      Retouch (before ++ after) (before ++ part :: after)
  | padded {before left part right after} (hleft : allBlank left = true)
      (hright : allBlank right = true) :
      Retouch (before ++ part :: after) (before ++ (left ++ part ++ right) :: after)
  | recased {before part part' after} (h : part.map Char.toUpper = part'.map Char.toUpper) :
      Retouch (before ++ part :: after) (before ++ part' :: after)

/-- Texts that come from one another by such changes, made or taken back. -/
def SameList : String → String → Prop :=
  Relation.EqvGen fun s t => Retouch (segments s) (segments t)

theorem isListedIn_replace {before after : List (List Char)} {part part' : List Char}
    (hblank : allBlank part' = allBlank part) (hnormal : normal part' = normal part) :
    c.IsListedIn (before ++ part' :: after) ↔ c.IsListedIn (before ++ part :: after) := by
  simp only [IsListedIn, List.mem_append, List.mem_cons, or_and_right, exists_or,
    exists_eq_left, ofText_eq, String.toList_ofList, hblank, hnormal]

theorem Retouch.isListedIn_iff {parts' : List (List Char)} (h : Retouch parts parts') :
    c.IsListedIn parts' ↔ c.IsListedIn parts := by
  cases h with
  | reordered h => simp only [IsListedIn, h.mem_iff]
  | @repeated before part after h =>
    refine exists_congr fun x => and_congr_left fun _ => ?_
    rw [List.mem_append, List.mem_cons, or_left_comm, ← List.mem_append]
    exact or_iff_right_of_imp fun hx => hx ▸ h
  | @blank before part after h =>
    refine exists_congr fun x => and_congr_left fun hx => ?_
    rw [List.mem_append, List.mem_cons, or_left_comm, ← List.mem_append]
    refine or_iff_right_of_imp fun heq => ?_
    rw [heq, h] at hx
    cases hx.1
  | padded hleft hright =>
    exact isListedIn_replace (allBlank_padded hleft hright _) (normal_padded hleft hright _)
  | @recased before part part' after h =>
    refine isListedIn_replace ?_ ?_
    · rw [← allBlank_map_toUpper, ← h, allBlank_map_toUpper]
    · rw [← normal_map_toUpper, ← h, normal_map_toUpper]

theorem listOfText_of_sameList (h : SameList s t) : listOfText s = listOfText t := by
  induction h with
  | rel s t h => exact listOfText_eq_iff.2 fun c => h.isListedIn_iff.symm
  | refl s => rfl
  | symm s t _ ih => exact ih.symm
  | trans s t u _ _ ihst ihtu => exact ihst.trans ihtu

/-! ### Writing a list -/

def listText (codes : List Currency) : String :=
  String.ofList (joinWith ',' (codes.map fun c => c.code.toList))

theorem isNormal_of_mem_listOfText (h : c ∈ listOfText s) : c.IsNormal := by
  obtain ⟨part, -, -, rfl⟩ := mem_listOfText_iff.1 h
  exact isNormal_ofText _

theorem comma_not_mem_of_mem_listOfText (h : c ∈ listOfText s) : ',' ∉ c.code.toList := by
  obtain ⟨part, hpart, -, rfl⟩ := mem_listOfText_iff.1 h
  rw [ofText_eq, String.toList_ofList, String.toList_ofList, mem_normal_iff (by decide) (by decide)]
  exact not_mem_of_mem_splitAt hpart

theorem not_allBlank_of_mem_listOfText (h : c ∈ listOfText s) : allBlank c.code.toList = false := by
  obtain ⟨part, -, hblank, rfl⟩ := mem_listOfText_iff.1 h
  rw [ofText_eq, String.toList_ofList, String.toList_ofList, allBlank_normal, hblank]

theorem segments_listText {codes : List Currency} (hne : codes ≠ [])
    (h : ∀ c ∈ codes, ',' ∉ c.code.toList) :
    segments (listText codes) = codes.map fun c => c.code.toList := by
  rw [segments, listText, String.toList_ofList]
  refine splitAt_joinWith (by simpa using hne) ?_
  simpa using h

theorem listOfText_listText (s : String) : listOfText (listText (listOfText s)) = listOfText s := by
  by_cases hne : listOfText s = []
  · rw [hne]
    rfl
  · refine listOfText_eq_iff.2 fun c => ?_
    rw [segments_listText hne fun c hc => comma_not_mem_of_mem_listOfText hc, ← mem_listOfText_iff]
    constructor
    · rintro ⟨part, hpart, -, rfl⟩
      obtain ⟨d, hd, rfl⟩ := List.mem_map.1 hpart
      have hnormal : ofText d.code = d := isNormal_of_mem_listOfText hd
      rwa [String.ofList_toList, hnormal]
    · intro hc
      have hnormal : ofText c.code = c := isNormal_of_mem_listOfText hc
      refine ⟨c.code.toList, List.mem_map_of_mem hc, not_allBlank_of_mem_listOfText hc, ?_⟩
      rw [String.ofList_toList, hnormal]

/-- The codes of a text ascend and are those that its segments spell, the blank ones left out; they
are the same for texts that differ in what does not count, and they are read again from their own
text. -/
theorem canonical_listOfText :
    (∀ s, (listOfText s).Pairwise (· < ·) ∧ ∀ c, c ∈ listOfText s ↔ c.IsListedIn (segments s)) ∧
    (∀ s t, SameList s t → listOfText s = listOfText t) ∧
    ∀ s, listOfText (listText (listOfText s)) = listOfText s :=
  ⟨fun _ => ⟨pairwise_ascending _, fun _ => mem_listOfText_iff⟩, fun _ _ => listOfText_of_sameList,
    listOfText_listText⟩

/-- Two ways to list the euro and the dollar: the blank part is left out, the second dollar and the
blank before the euro are taken away, and the two codes change places. -/
theorem canonical_listOfText_untidy :
    SameList "usd, EUR,,USD" "EUR,USD" ∧
      listOfText "usd, EUR,,USD" = listOfText "EUR,USD" ∧
      listOfText "usd, EUR,,USD" = [.eur, .usd] ∧ listText [.eur, .usd] = "EUR,USD" := by
  have hcapital : Retouch (segments "usd, EUR,,USD") (segments "USD, EUR,,USD") :=
    @Retouch.recased [] "usd".toList "USD".toList [" EUR".toList, [], "USD".toList]
      (by decide +kernel)
  have hblank : Retouch (segments "USD, EUR,USD") (segments "USD, EUR,,USD") :=
    @Retouch.blank ["USD".toList, " EUR".toList] [] ["USD".toList] rfl
  have hagain : Retouch (segments "USD, EUR") (segments "USD, EUR,USD") :=
    @Retouch.repeated ["USD".toList, " EUR".toList] "USD".toList [] (by decide +kernel)
  have hpadded : Retouch (segments "USD,EUR") (segments "USD, EUR") :=
    @Retouch.padded ["USD".toList] [' '] "EUR".toList [] [] rfl rfl
  have horder : Retouch (segments "USD,EUR") (segments "EUR,USD") :=
    .reordered (List.Perm.swap "EUR".toList "USD".toList [])
  have hsame : SameList "usd, EUR,,USD" "EUR,USD" :=
    .trans _ _ _ (.rel _ _ hcapital) <| .trans _ _ _ (.symm _ _ (.rel _ _ hblank)) <|
      .trans _ _ _ (.symm _ _ (.rel _ _ hagain)) <|
      .trans _ _ _ (.symm _ _ (.rel _ _ hpadded)) (.rel _ _ horder)
  have htext : listText [.eur, .usd] = "EUR,USD" := by decide +kernel
  have hlist : listOfText "EUR,USD" = [.eur, .usd] := by decide +kernel
  have heq := canonical_listOfText.2.1 _ _ hsame
  exact ⟨hsame, heq, heq.trans hlist, htext⟩

end Currency

end CurrencyWallet

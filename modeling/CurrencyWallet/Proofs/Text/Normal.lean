import CurrencyWallet.Proofs.Lists
import CurrencyWallet.Text.Blank
import CurrencyWallet.Text.Uppercase

/-!
The normal form of a text: trimmed and in upper case. No image of a letter is listed as a letter
itself, and none is blank, so the normal form of a normal form is the same text. No image is below
the capitals of ASCII either, so a separator is in the normal form only if it is in the text. Blanks
around the text and the case of its ASCII letters are lost, whatever else is in it.
-/
namespace CurrencyWallet.Text

/-! ### Listed letters and their images -/

def CaseRun.points (run : CaseRun) (start : Nat) : List Nat :=
  List.range' start ((run.last - run.first) / run.stride + 1) run.stride

theorem CaseRun.mem_points_of_image? {run : CaseRun} {n m : Nat} (h : run.image? n = some m) :
    n ∈ run.points run.first ∧ m ∈ run.points run.image := by
  unfold image? at h
  split at h
  · rename_i hrun
    obtain ⟨hfirst, hlast, hstride⟩ := hrun
    cases h
    have hsteps : run.stride * ((n - run.first) / run.stride) = n - run.first :=
      Nat.mul_div_cancel' (Nat.dvd_of_mod_eq_zero hstride)
    have hcount : (n - run.first) / run.stride < (run.last - run.first) / run.stride + 1 :=
      Nat.lt_succ_of_le (Nat.div_le_div_right (by omega))
    simp only [points, List.mem_range']
    exact ⟨⟨_, hcount, by omega⟩, ⟨_, hcount, by omega⟩⟩
  · cases h

def listedLetters : List Nat :=
  expandingLetters.map (·.1) ++ caseRuns.flatMap fun run => run.points run.first

def listedImages : List Nat :=
  expandingLetters.flatMap (·.2) ++ caseRuns.flatMap fun run => run.points run.image

theorem upperCodePoint_cases (n : Nat) :
    upperCodePoint n = [n] ∨
      n ∈ listedLetters ∧ upperCodePoint n ≠ [] ∧ ∀ m ∈ upperCodePoint n, m ∈ listedImages := by
  unfold upperCodePoint
  split
  · rename_i image hlookup
    have hmem := List.mem_of_lookup hlookup
    have hne : ∀ letter ∈ expandingLetters, letter.2 ≠ [] := by decide +kernel
    refine Or.inr ⟨?_, hne _ hmem, fun m hm => ?_⟩
    · exact List.mem_append_left _ (List.mem_map_of_mem hmem)
    · exact List.mem_append_left _ (List.mem_flatMap.2 ⟨_, hmem, hm⟩)
  · cases hruns : caseRuns.findSome? (·.image? n) with
    | none => exact Or.inl rfl
    | some m =>
      obtain ⟨run, hrun, himage⟩ := List.exists_of_findSome?_eq_some hruns
      obtain ⟨hn, hm⟩ := CaseRun.mem_points_of_image? himage
      refine Or.inr ⟨?_, List.cons_ne_nil _ _, fun m' hm' => ?_⟩
      · exact List.mem_append_right _ (List.mem_flatMap.2 ⟨run, hrun, hn⟩)
      · rw [Option.getD_some, List.mem_singleton] at hm'
        rw [hm']
        exact List.mem_append_right _ (List.mem_flatMap.2 ⟨run, hrun, hm⟩)

/-- The numbers of a list as the ones of a binary numeral. -/
def mask (ns : List Nat) : Nat := ns.foldr (fun n m => 1 <<< n ||| m) 0

theorem testBit_mask (ns : List Nat) (n : Nat) : (mask ns).testBit n = decide (n ∈ ns) := by
  induction ns with
  | nil => simp [mask]
  | cons x xs ih =>
    have hcons : mask (x :: xs) = 1 <<< x ||| mask xs := rfl
    rw [hcons, Nat.testBit_or, ih, Nat.one_shiftLeft, Nat.testBit_two_pow]
    simp [eq_comm]

theorem not_mem_of_mask {ms ns : List Nat} (h : mask ms &&& mask ns = 0) {n : Nat} (hn : n ∈ ms) :
    n ∉ ns := by
  intro hn'
  have hbit := congrArg (·.testBit n) h
  simp [Nat.testBit_and, testBit_mask, hn, hn'] at hbit

theorem upperCodePoint_of_listedImages {n : Nat} (h : n ∈ listedImages) :
    upperCodePoint n = [n] := by
  have hmask : mask listedImages &&& mask listedLetters = 0 := by decide +kernel
  exact (upperCodePoint_cases n).resolve_right fun hn => not_mem_of_mask hmask h hn.1

theorem isScalar_of_listedImages {n : Nat} (h : n ∈ listedImages) : 65 ≤ n ∧ n.isValidChar := by
  have hall : ∀ n ∈ listedImages, 65 ≤ n ∧ n.isValidChar := by decide +kernel
  exact hall n h

/-! ### Characters -/

theorem upperChar_ne_nil (c : Char) : upperChar c ≠ [] := by
  obtain h | ⟨-, hne, -⟩ := upperCodePoint_cases c.toNat
  · simp [upperChar, h]
  · simpa [upperChar] using hne

theorem toNat_ofNat_of_upperCodePoint {c : Char} {n : Nat} (h : n ∈ upperCodePoint c.toNat) :
    (Char.ofNat n).toNat = n := by
  obtain hself | ⟨-, -, himages⟩ := upperCodePoint_cases c.toNat
  · rw [hself, List.mem_singleton] at h
    rw [h, Char.ofNat_toNat]
  · rw [Char.ofNat, dif_pos (isScalar_of_listedImages (himages n h)).2]
    rfl

theorem mem_upperChar_cases {c x : Char} (h : x ∈ upperChar c) :
    upperChar c = [c] ∧ x = c ∨ x.toNat ∈ listedImages := by
  obtain ⟨n, hn, rfl⟩ := List.mem_map.1 h
  obtain hself | ⟨-, -, himages⟩ := upperCodePoint_cases c.toNat
  · rw [hself, List.mem_singleton] at hn
    rw [upperChar, hself, hn, List.map_singleton, Char.ofNat_toNat]
    exact Or.inl ⟨rfl, rfl⟩
  · rw [toNat_ofNat_of_upperCodePoint hn]
    exact Or.inr (himages n hn)

theorem upperChar_of_mem {c x : Char} (h : x ∈ upperChar c) : upperChar x = [x] := by
  obtain ⟨hself, rfl⟩ | himage := mem_upperChar_cases h
  · exact hself
  · rw [upperChar, upperCodePoint_of_listedImages himage, List.map_singleton, Char.ofNat_toNat]

theorem eq_of_mem_upperChar {c x : Char} (h : x ∈ upperChar c) (hx : x.toNat < 65) : x = c := by
  obtain ⟨-, rfl⟩ | himage := mem_upperChar_cases h
  · rfl
  · have := (isScalar_of_listedImages himage).1
    omega

def blankPoints : List Nat := blankRuns.flatMap fun run => List.range' run.1 (run.2 - run.1 + 1)

theorem mem_blankPoints_of_isBlank {c : Char} (h : isBlank c = true) : c.toNat ∈ blankPoints := by
  obtain ⟨run, hrun, hc⟩ := List.any_eq_true.1 h
  simp only [Bool.and_eq_true, decide_eq_true_eq] at hc
  refine List.mem_flatMap.2 ⟨run, hrun, ?_⟩
  rw [List.mem_range'_1]
  omega

theorem isBlank_of_mem_upperChar {c x : Char} (hc : isBlank c = false) (h : x ∈ upperChar c) :
    isBlank x = false := by
  obtain ⟨-, rfl⟩ | himage := mem_upperChar_cases h
  · exact hc
  · have hmask : mask listedImages &&& mask blankPoints = 0 := by decide +kernel
    rw [Bool.eq_false_iff]
    exact fun hblank => not_mem_of_mask hmask himage (mem_blankPoints_of_isBlank hblank)

theorem upperChar_toUpper (c : Char) : upperChar c.toUpper = upperChar c := by
  have hupper := toNat_toUpper c
  split at hupper
  · have hself : c.toUpper.toUpper = c.toUpper := by
      rw [← Char.toNat_inj, toNat_toUpper, if_neg (by omega)]
    rw [upperChar_of_ascii (by omega), upperChar_of_ascii (by omega), hself]
  · rw [Char.toNat_inj.1 hupper]

theorem isBlank_toUpper (c : Char) : isBlank c.toUpper = isBlank c := by
  have hupper := toNat_toUpper c
  split at hupper
  · rw [isBlank_of_graphic (by omega) (by omega), isBlank_of_graphic (by omega) (by omega)]
  · rw [Char.toNat_inj.1 hupper]

theorem isBlank_comp_toUpper : isBlank ∘ Char.toUpper = isBlank := funext isBlank_toUpper

/-! ### Upper case -/

theorem mem_uppercase {x : Char} {cs : List Char} : x ∈ uppercase cs ↔ ∃ c ∈ cs, x ∈ upperChar c :=
  List.mem_flatMap

theorem uppercase_of_capitals {cs : List Char} (h : ∀ c ∈ cs, upperChar c = [c]) :
    uppercase cs = cs := by
  induction cs with
  | nil => rfl
  | cons c cs ih =>
    obtain ⟨hc, hcs⟩ := List.forall_mem_cons.1 h
    rw [uppercase_cons, hc, ih hcs, List.singleton_append]

theorem uppercase_uppercase (cs : List Char) : uppercase (uppercase cs) = uppercase cs := by
  refine uppercase_of_capitals fun x hx => ?_
  obtain ⟨c, -, hc⟩ := mem_uppercase.1 hx
  exact upperChar_of_mem hc

theorem uppercase_map_toUpper (cs : List Char) :
    uppercase (cs.map Char.toUpper) = uppercase cs := by
  simp only [uppercase, List.flatMap_map, upperChar_toUpper]

/-- Below the capitals of ASCII upper case adds nothing and takes nothing away. -/
theorem mem_uppercase_iff {x : Char} (hx : x.toNat < 65) {cs : List Char} :
    x ∈ uppercase cs ↔ x ∈ cs := by
  rw [mem_uppercase]
  constructor
  · rintro ⟨c, hc, h⟩
    rwa [eq_of_mem_upperChar h hx]
  · intro h
    refine ⟨x, h, ?_⟩
    have hupper : x.toUpper = x := by rw [← Char.toNat_inj, toNat_toUpper, if_neg (by omega)]
    rw [upperChar_of_ascii (by omega), hupper]
    exact List.mem_singleton_self x

/-! ### Trimmed texts -/

def IsTrimmed (cs : List Char) : Prop :=
  (∀ c ∈ cs.head?, isBlank c = false) ∧ ∀ c ∈ cs.getLast?, isBlank c = false

theorem trimStart_of_head? {cs : List Char} (h : ∀ c ∈ cs.head?, isBlank c = false) :
    trimStart cs = cs := by
  cases cs with
  | nil => rfl
  | cons c cs => exact trimStart_of_head (h c rfl) cs

theorem isBlank_of_head?_trimStart {cs : List Char} :
    ∀ c ∈ (trimStart cs).head?, isBlank c = false := by
  induction cs with
  | nil => nofun
  | cons c cs ih =>
    cases hc : isBlank c with
    | true => rwa [trimStart, List.dropWhile_cons_of_pos hc]
    | false =>
      rw [trimStart_of_head hc]
      rintro _ ⟨⟩
      exact hc

theorem exists_append_trimStart (cs : List Char) :
    ∃ left, allBlank left = true ∧ cs = left ++ trimStart cs :=
  ⟨cs.takeWhile isBlank, List.all_takeWhile, List.takeWhile_append_dropWhile.symm⟩

theorem exists_trimStart_append (cs : List Char) :
    ∃ right, allBlank right = true ∧ trimStart cs = trim cs ++ right := by
  obtain ⟨right, hright, hsplit⟩ := exists_append_trimStart (trimStart cs).reverse
  refine ⟨right.reverse, (allBlank_reverse right).trans hright, ?_⟩
  rw [trim, ← List.reverse_append, ← hsplit, List.reverse_reverse]

theorem exists_append_trim_append (cs : List Char) :
    ∃ left right, allBlank left = true ∧ allBlank right = true ∧ cs = left ++ trim cs ++ right := by
  obtain ⟨left, hleft, hsplit⟩ := exists_append_trimStart cs
  obtain ⟨right, hright, htrim⟩ := exists_trimStart_append cs
  exact ⟨left, right, hleft, hright, by rw [List.append_assoc, ← htrim, ← hsplit]⟩

theorem isTrimmed_trim (cs : List Char) : IsTrimmed (trim cs) := by
  constructor
  · intro c hc
    obtain ⟨right, -, hsplit⟩ := exists_trimStart_append cs
    refine @isBlank_of_head?_trimStart cs c ?_
    rw [hsplit, List.head?_append, Option.mem_def.1 hc]
    rfl
  · rw [trim, List.getLast?_reverse]
    exact isBlank_of_head?_trimStart

theorem trim_of_isTrimmed {cs : List Char} (h : IsTrimmed cs) : trim cs = cs := by
  have hlast : trimStart cs.reverse = cs.reverse :=
    trimStart_of_head? (by rw [List.head?_reverse]; exact h.2)
  rw [trim, trimStart_of_head? h.1, hlast, List.reverse_reverse]

theorem isTrimmed_uppercase {cs : List Char} (h : IsTrimmed cs) : IsTrimmed (uppercase cs) := by
  constructor
  · cases cs with
    | nil => nofun
    | cons c cs =>
      intro x hx
      rw [uppercase_cons, List.head?_append_of_ne_nil _ (upperChar_ne_nil c)] at hx
      exact isBlank_of_mem_upperChar (h.1 c rfl) (List.mem_of_mem_head? hx)
  · obtain rfl | ⟨cs, c, rfl⟩ := List.eq_nil_or_concat cs
    · nofun
    · intro x hx
      rw [List.concat_eq_append] at h hx
      rw [uppercase_append, uppercase_cons, uppercase_nil, List.append_nil,
        List.getLast?_append_of_ne_nil _ (upperChar_ne_nil c)] at hx
      exact isBlank_of_mem_upperChar (h.2 c (by simp)) (List.mem_of_getLast? hx)

theorem trim_map_toUpper (cs : List Char) :
    trim (cs.map Char.toUpper) = (trim cs).map Char.toUpper := by
  have hstart (cs : List Char) :
      trimStart (cs.map Char.toUpper) = (trimStart cs).map Char.toUpper := by
    rw [trimStart, List.dropWhile_map, isBlank_comp_toUpper, trimStart]
  rw [trim, hstart, ← List.map_reverse, hstart, ← List.map_reverse, trim]

theorem mem_trim_iff {x : Char} (hx : isBlank x = false) {cs : List Char} :
    x ∈ trim cs ↔ x ∈ cs := by
  obtain ⟨left, right, hleft, hright, hsplit⟩ := exists_append_trim_append cs
  conv_rhs => rw [hsplit]
  simp [not_mem_of_allBlank hleft hx, not_mem_of_allBlank hright hx]

/-! ### Normal forms -/

def normal (cs : List Char) : List Char := uppercase (trim cs)

theorem normal_normal (cs : List Char) : normal (normal cs) = normal cs := by
  rw [normal, normal, trim_of_isTrimmed (isTrimmed_uppercase (isTrimmed_trim cs)),
    uppercase_uppercase]

theorem normal_padded {left right : List Char} (hleft : allBlank left = true)
    (hright : allBlank right = true) (cs : List Char) :
    normal (left ++ cs ++ right) = normal cs := by
  rw [normal, trim_padded hleft hright, normal]

theorem normal_map_toUpper (cs : List Char) : normal (cs.map Char.toUpper) = normal cs := by
  rw [normal, trim_map_toUpper, uppercase_map_toUpper, normal]

theorem allBlank_padded {left right : List Char} (hleft : allBlank left = true)
    (hright : allBlank right = true) (cs : List Char) :
    allBlank (left ++ cs ++ right) = allBlank cs := by
  rw [allBlank] at hleft hright ⊢
  rw [List.all_append, List.all_append, hleft, hright, Bool.true_and, Bool.and_true, allBlank]

theorem allBlank_map_toUpper (cs : List Char) : allBlank (cs.map Char.toUpper) = allBlank cs := by
  rw [allBlank, List.all_map, isBlank_comp_toUpper, allBlank]

theorem IsTrimmed.eq_nil {cs : List Char} (h : IsTrimmed cs) (hblank : allBlank cs = true) :
    cs = [] := by
  rw [← trimStart_of_head? h.1]
  exact (trimStart_eq_nil_iff cs).2 hblank

theorem allBlank_trim (cs : List Char) : allBlank (trim cs) = allBlank cs := by
  obtain ⟨left, right, hleft, hright, hsplit⟩ := exists_append_trim_append cs
  conv_rhs => rw [hsplit, allBlank_padded hleft hright]

theorem uppercase_eq_nil_iff {cs : List Char} : uppercase cs = [] ↔ cs = [] := by
  cases cs with
  | nil => simp
  | cons c cs => simp [upperChar_ne_nil]

theorem allBlank_normal (cs : List Char) : allBlank (normal cs) = allBlank cs := by
  rw [← allBlank_trim cs, Bool.eq_iff_iff]
  constructor
  · intro h
    have hnil := (isTrimmed_uppercase (isTrimmed_trim cs)).eq_nil h
    rw [uppercase_eq_nil_iff.1 hnil]
    rfl
  · intro h
    rw [normal, (isTrimmed_trim cs).eq_nil h]
    rfl

theorem mem_normal_iff {x : Char} (hx : x.toNat < 65) (hblank : isBlank x = false)
    {cs : List Char} : x ∈ normal cs ↔ x ∈ cs := by
  rw [normal, mem_uppercase_iff hx, mem_trim_iff hblank]

end CurrencyWallet.Text

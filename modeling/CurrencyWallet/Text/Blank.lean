/-!
White space as the Unicode property `White_Space` lists it, and trimming. The information
separators, the zero-width space and the byte order mark are not in the list.
-/
namespace CurrencyWallet.Text

def blankRuns : List (Nat × Nat) :=
  [(0x9, 0xd), (0x20, 0x20), (0x85, 0x85), (0xa0, 0xa0), (0x1680, 0x1680), (0x2000, 0x200a),
   (0x2028, 0x2029), (0x202f, 0x202f), (0x205f, 0x205f), (0x3000, 0x3000)]

def isBlank (c : Char) : Bool := blankRuns.any fun run => run.1 ≤ c.toNat && c.toNat ≤ run.2

theorem isBlank_of_graphic {c : Char} (hlow : 32 < c.toNat) (hhigh : c.toNat < 127) :
    isBlank c = false := by
  simp only [isBlank, blankRuns, List.any_cons, List.any_nil, Bool.or_false, Bool.or_eq_false_iff,
    Bool.and_eq_false_iff, decide_eq_false_iff_not]
  omega

def trimStart (cs : List Char) : List Char := cs.dropWhile isBlank

def trim (cs : List Char) : List Char := (trimStart (trimStart cs).reverse).reverse

@[simp] theorem trim_nil : trim [] = [] := rfl

def allBlank (cs : List Char) : Bool := cs.all isBlank

theorem trimStart_eq_nil_iff (cs : List Char) : trimStart cs = [] ↔ allBlank cs = true := by
  induction cs with
  | nil => simp [trimStart, allBlank]
  | cons c cs ih => cases h : isBlank c <;> simp_all [trimStart, allBlank]

def trimEnd (cs : List Char) : List Char := (trimStart cs.reverse).reverse

theorem trim_eq (cs : List Char) : trim cs = trimEnd (trimStart cs) := rfl

theorem allBlank_reverse (cs : List Char) : allBlank cs.reverse = allBlank cs := List.all_reverse

theorem trimStart_append_of_allBlank {cs : List Char} (h : allBlank cs = true) (rest : List Char) :
    trimStart (cs ++ rest) = trimStart rest := by
  rw [trimStart, List.dropWhile_append]
  have hnil := (trimStart_eq_nil_iff cs).2 h
  rw [trimStart] at hnil
  rw [hnil, List.isEmpty_nil, if_pos rfl, trimStart]

theorem trimStart_append_of_not_allBlank {cs : List Char} (h : allBlank cs = false)
    (rest : List Char) : trimStart (cs ++ rest) = trimStart cs ++ rest := by
  have hne : trimStart cs ≠ [] := fun hnil => by
    rw [trimStart_eq_nil_iff, h] at hnil
    cases hnil
  rw [trimStart, List.dropWhile_append, ← trimStart, if_neg (by simpa using hne)]

theorem trimEnd_append_of_allBlank {rest : List Char} (h : allBlank rest = true) (cs : List Char) :
    trimEnd (cs ++ rest) = trimEnd cs := by
  rw [← allBlank_reverse] at h
  rw [trimEnd, List.reverse_append, trimStart_append_of_allBlank h, trimEnd]

theorem trim_padded {left right : List Char} (hleft : allBlank left = true)
    (hright : allBlank right = true) (cs : List Char) : trim (left ++ cs ++ right) = trim cs := by
  rw [trim_eq, trim_eq, List.append_assoc, trimStart_append_of_allBlank hleft]
  cases hcs : allBlank cs with
  | true =>
    rw [trimStart_append_of_allBlank hcs, (trimStart_eq_nil_iff right).2 hright,
      (trimStart_eq_nil_iff cs).2 hcs]
  | false => rw [trimStart_append_of_not_allBlank hcs, trimEnd_append_of_allBlank hright]

theorem trimStart_of_head {c : Char} (h : isBlank c = false) (cs : List Char) :
    trimStart (c :: cs) = c :: cs := by
  simp [trimStart, h]

theorem not_mem_of_allBlank {cs : List Char} (h : allBlank cs = true) {c : Char}
    (hc : isBlank c = false) : c ∉ cs := fun hmem => by
  rw [List.all_eq_true.1 h c hmem] at hc
  cases hc

theorem trimStart_append_of_not_isBlank {cs : List Char} (hne : cs ≠ [])
    (h : ∀ c ∈ cs, isBlank c = false) (rest : List Char) :
    trimStart (cs ++ rest) = cs ++ rest := by
  obtain ⟨c, cs, rfl⟩ := List.exists_cons_of_ne_nil hne
  exact trimStart_of_head (h c List.mem_cons_self) (cs ++ rest)

theorem trimEnd_append_of_not_isBlank {cs : List Char} (hne : cs ≠ [])
    (h : ∀ c ∈ cs, isBlank c = false) (rest : List Char) :
    trimEnd (rest ++ cs) = rest ++ cs := by
  have hne : cs.reverse ≠ [] := by simpa using hne
  rw [trimEnd, List.reverse_append,
    trimStart_append_of_not_isBlank hne fun c hc => h c (List.mem_reverse.1 hc)]
  simp

theorem trim_of_not_isBlank {cs : List Char} (h : ∀ c ∈ cs, isBlank c = false) : trim cs = cs := by
  by_cases hne : cs = []
  · rw [hne, trim_nil]
  have hstart := trimStart_append_of_not_isBlank hne h []
  have hend := trimEnd_append_of_not_isBlank hne h []
  rw [List.append_nil] at hstart
  rw [trim_eq, hstart]
  exact hend

theorem trim_append_cons {c : Char} (hc : isBlank c = false) (left right : List Char) :
    trim (left ++ c :: right) = trimStart left ++ c :: trimEnd right := by
  have hstart (cs rest : List Char) : trimStart (cs ++ c :: rest) = trimStart cs ++ c :: rest := by
    cases hcs : allBlank cs with
    | true =>
      rw [trimStart_append_of_allBlank hcs, (trimStart_eq_nil_iff cs).2 hcs, trimStart_of_head hc]
      rfl
    | false => exact trimStart_append_of_not_allBlank hcs _
  rw [trim_eq, hstart, trimEnd, List.reverse_append, List.reverse_cons, List.append_assoc,
    List.singleton_append, hstart]
  simp [trimEnd]

end CurrencyWallet.Text

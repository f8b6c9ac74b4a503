import TpQemu.Lib.Numeral

/-!
# Splitting at runs

`splitRuns p s` cuts a text at the runs of characters with `p`, as `re.split` does with a pattern
`[...]+`: a run at either end leaves an empty piece there. On a stripped text and with white space
for `p` the pieces are its words.
-/

namespace TpQemu.Text

section Runs

variable {α : Type*} (p : α → Bool)

/-- The pieces of a text behind the begin of a piece, or inside a run. -/
def splitRunsFrom : Option (List α) → List α → List (List α)
  | piece, [] => [piece.getD []]
  | none, c :: s => if p c then splitRunsFrom none s else splitRunsFrom (some [c]) s
  | some piece, c :: s =>
      if p c then piece :: splitRunsFrom none s else splitRunsFrom (some (piece ++ [c])) s

def splitRuns (s : List α) : List (List α) := splitRunsFrom p (some []) s

variable {p}

theorem infix_of_mem_splitRunsFrom {piece : Option (List α)} {s l : List α}
    (h : l ∈ splitRunsFrom p piece s) : l <:+: piece.getD [] ++ s := by
  induction s generalizing piece with
  | nil =>
      rw [splitRunsFrom, List.mem_singleton] at h
      rw [h, List.append_nil]
  | cons c s ih =>
      have hskip : ∀ before : List α, l ∈ splitRunsFrom p none s → l <:+: before ++ c :: s :=
        fun before hl => (ih hl).trans ⟨before ++ [c], [], by simp⟩
      cases piece with
      | none =>
          rw [splitRunsFrom] at h
          split_ifs at h with hc
          · exact hskip [] h
          · exact ih h
      | some piece =>
          rw [splitRunsFrom] at h
          split_ifs at h with hc
          · rcases List.mem_cons.mp h with rfl | h
            · exact ⟨[], c :: s, rfl⟩
            · exact hskip piece h
          · have hinfix := ih h
            rwa [Option.getD_some, List.append_assoc] at hinfix

theorem splitRunsFrom_ne_nil (piece : Option (List α)) (s : List α) :
    splitRunsFrom p piece s ≠ [] := by
  induction s generalizing piece with
  | nil =>
      rw [splitRunsFrom]
      exact List.cons_ne_nil _ _
  | cons c s ih =>
      cases piece with
      | none =>
          rw [splitRunsFrom]
          split_ifs with hc
          · exact ih none
          · exact ih (some [c])
      | some piece =>
          rw [splitRunsFrom]
          split_ifs with hc
          · exact List.cons_ne_nil _ _
          · exact ih _

theorem infix_of_mem_splitRuns {s l : List α} (h : l ∈ splitRuns p s) : l <:+: s :=
  infix_of_mem_splitRunsFrom h

end Runs

/-! ## What blank pieces do not change

A function that finds nothing in an empty piece, and the same in a piece with characters of `q`
around it, does not see where a text is stripped. -/

section Blank

variable {α β : Type*} {p q : α → Bool} {f : List α → Option β}

/-- The runs may be cut at every character instead. -/
theorem filterMap_splitRunsFrom [DecidableEq α] (hnil : f [] = none) (sep : α)
    (piece : Option (List α)) (s : List α) :
    (splitRunsFrom (fun c => decide (c = sep)) piece s).filterMap f =
      ((s.splitOn sep).modifyHead (piece.getD [] ++ ·)).filterMap f := by
  induction s generalizing piece with
  | nil => simp [splitRunsFrom]
  | cons c s ih =>
      obtain ⟨first, rest, hsplit⟩ := List.exists_cons_of_ne_nil (List.splitOn_ne_nil sep s)
      have hrest := ih none
      rw [hsplit, List.modifyHead_cons, Option.getD_none, List.nil_append] at hrest
      rw [List.splitOn_cons_eq_if_modifyHead, hsplit]
      by_cases hc : c = sep
      · subst hc
        cases piece with
        | none => simp [splitRunsFrom, hrest, List.filterMap_cons, hnil]
        | some piece => simp [splitRunsFrom, hrest, List.filterMap_cons]
      · cases piece with
        | none => simp [splitRunsFrom, hc, ih, hsplit]
        | some piece => simp [splitRunsFrom, hc, ih, hsplit]

variable (hnil : f [] = none) (hbegin : ∀ c l, q c = true → f (c :: l) = f l)
  (hend : ∀ c l, q c = true → f (l ++ [c]) = f l)

include hbegin in
/-- A blank at the begin of the first piece. -/
theorem filterMap_splitRunsFrom_cons {c : α} (hc : q c = true) (piece s : List α) :
    (splitRunsFrom p (some (c :: piece)) s).filterMap f =
      (splitRunsFrom p (some piece) s).filterMap f := by
  induction s generalizing piece with
  | nil => simp [splitRunsFrom, List.filterMap_cons, hbegin c piece hc]
  | cons d s ih =>
      rw [splitRunsFrom, splitRunsFrom]
      split_ifs with hd
      · rw [List.filterMap_cons, List.filterMap_cons, hbegin c piece hc]
      · exact ih (piece ++ [d])

include hnil in
theorem filterMap_splitRunsFrom_none (s : List α) :
    (splitRunsFrom p none s).filterMap f = (splitRuns p s).filterMap f := by
  cases s with
  | nil => rfl
  | cons c s =>
      rw [splitRuns, splitRunsFrom, splitRunsFrom]
      split_ifs with hc
      · rw [List.filterMap_cons, hnil]
      · rfl

include hnil hbegin in
theorem filterMap_splitRuns_dropWhile (s : List α) :
    (splitRuns p (s.dropWhile q)).filterMap f = (splitRuns p s).filterMap f := by
  induction s with
  | nil => rfl
  | cons c s ih =>
      by_cases hc : q c = true
      · rw [List.dropWhile_cons_of_pos hc, ih]
        rw [splitRuns, splitRuns, splitRunsFrom]
        split_ifs with hp
        · rw [List.filterMap_cons, hnil, filterMap_splitRunsFrom_none hnil]
          rfl
        · exact (filterMap_splitRunsFrom_cons hbegin hc [] s).symm
      · rw [List.dropWhile_cons_of_neg hc]

include hnil hend in
/-- A blank at the end of the last piece. -/
theorem filterMap_splitRunsFrom_append {c : α} (hc : q c = true) (piece : Option (List α))
    (s : List α) :
    (splitRunsFrom p piece (s ++ [c])).filterMap f = (splitRunsFrom p piece s).filterMap f := by
  induction s generalizing piece with
  | nil =>
      have hone := hend c [] hc
      rw [List.nil_append, hnil] at hone
      cases piece with
      | none =>
          by_cases hp : p c = true
          · simp [splitRunsFrom, hp]
          · simp [splitRunsFrom, hp, hone, hnil]
      | some piece =>
          by_cases hp : p c = true
          · simp [splitRunsFrom, hp, List.filterMap_cons, hnil]
          · simp [splitRunsFrom, hp, List.filterMap_cons, hend c piece hc]
  | cons d s ih =>
      cases piece with
      | none =>
          rw [List.cons_append, splitRunsFrom, splitRunsFrom]
          split_ifs with hd
          · exact ih none
          · exact ih (some [d])
      | some piece =>
          rw [List.cons_append, splitRunsFrom, splitRunsFrom]
          split_ifs with hd
          · rw [List.filterMap_cons, List.filterMap_cons, ih]
          · exact ih _

include hnil hend in
theorem filterMap_splitRuns_rdropWhile (s : List α) :
    (splitRuns p (s.reverse.dropWhile q).reverse).filterMap f = (splitRuns p s).filterMap f := by
  induction s using List.reverseRecOn with
  | nil => rfl
  | append_singleton s c ih =>
      rw [List.reverse_append, List.reverse_singleton, List.singleton_append]
      by_cases hc : q c = true
      · rw [List.dropWhile_cons_of_pos hc, ih]
        exact (filterMap_splitRunsFrom_append hnil hend hc _ s).symm
      · rw [List.dropWhile_cons_of_neg hc, List.reverse_cons, List.reverse_reverse]

end Blank

/-! ## Words -/

section Words

open Numeral

theorem wordsFrom_append_space {c : Char} (hc : isSpace c = true) (word s : List Char) :
    wordsFrom word (s ++ [c]) = wordsFrom word s := by
  induction s generalizing word with
  | nil => simp [wordsFrom, hc]
  | cons d s ih => simp [wordsFrom, ih]

theorem words_cons_space {c : Char} (hc : isSpace c = true) (s : List Char) :
    words (c :: s) = words s := by
  simp [words, wordsFrom, hc]

theorem infix_of_mem_wordsFrom {word s w : List Char} (h : w ∈ wordsFrom word s) :
    w <:+: word ++ s := by
  induction s generalizing word with
  | nil =>
      rw [wordsFrom] at h
      split_ifs at h with hword
      · exact absurd h List.not_mem_nil
      · rw [List.mem_singleton.mp h, List.append_nil]
  | cons c s ih =>
      have hskip : w ∈ wordsFrom [] s → w <:+: word ++ c :: s :=
        fun hw => (ih hw).trans ⟨word ++ [c], [], by simp⟩
      rw [wordsFrom] at h
      split_ifs at h with hc hword
      · exact hskip h
      · rcases List.mem_cons.mp h with rfl | h
        · exact ⟨[], c :: s, rfl⟩
        · exact hskip h
      · have hinfix := ih h
        rwa [List.append_assoc] at hinfix

theorem infix_of_mem_words {s w : List Char} (h : w ∈ words s) : w <:+: s :=
  infix_of_mem_wordsFrom h

theorem words_dropWhile (s : List Char) : words (s.dropWhile isSpace) = words s := by
  induction s with
  | nil => rfl
  | cons c s ih =>
      by_cases hc : isSpace c = true
      · rw [List.dropWhile_cons_of_pos hc, ih, words_cons_space hc]
      · rw [List.dropWhile_cons_of_neg hc]

theorem words_rdropWhile (s : List Char) :
    words (s.reverse.dropWhile isSpace).reverse = words s := by
  induction s using List.reverseRecOn with
  | nil => rfl
  | append_singleton s c ih =>
      rw [List.reverse_append, List.reverse_singleton, List.singleton_append]
      by_cases hc : isSpace c = true
      · rw [List.dropWhile_cons_of_pos hc, ih]
        exact (wordsFrom_append_space hc [] s).symm
      · rw [List.dropWhile_cons_of_neg hc, List.reverse_cons, List.reverse_reverse]

@[simp] theorem words_strip (s : List Char) : words (strip s) = words s := by
  rw [strip, words_rdropWhile, words_dropWhile]

theorem isPrefix_strip (s : List Char) : strip s <+: s.dropWhile isSpace := by
  rw [strip, ← List.reverse_suffix, List.reverse_reverse]
  exact List.dropWhile_suffix isSpace

theorem isInfix_strip (s : List Char) : strip s <:+: s :=
  (isPrefix_strip s).isInfix.trans (List.dropWhile_suffix isSpace).isInfix

theorem isSpace_eq_false_of_head?_dropWhile {c : Char} {s : List Char}
    (h : (s.dropWhile isSpace).head? = some c) : isSpace c = false := by
  have hnot := List.head?_dropWhile_not isSpace s
  rw [h] at hnot
  exact hnot

/-- Where no white space is at the end, every piece behind a letter is a word. -/
theorem splitRunsFrom_eq_wordsFrom {s : List Char}
    (hlast : ∀ c, s.getLast? = some c → isSpace c = false) :
    (∀ word ≠ [], splitRunsFrom isSpace (some word) s = wordsFrom word s) ∧
      (s ≠ [] → splitRunsFrom isSpace none s = wordsFrom [] s) := by
  induction s with
  | nil =>
      refine ⟨fun word hword => ?_, fun h => absurd rfl h⟩
      simp [splitRunsFrom, wordsFrom, hword]
  | cons c s ih =>
      have hmore : isSpace c = true → s ≠ [] := by
        rintro hc rfl
        rw [hlast c rfl] at hc
        cases hc
      obtain ⟨hsome, hnone⟩ := ih fun d hd => hlast d (by rw [List.getLast?_cons, hd]; rfl)
      constructor
      · intro word hword
        rw [splitRunsFrom, wordsFrom]
        split_ifs with hc hempty
        · exact absurd (List.isEmpty_iff.mp hempty) hword
        · rw [hnone (hmore hc)]
        · exact hsome _ (List.append_ne_nil_of_right_ne_nil _ (List.cons_ne_nil _ _))
      · intro _
        rw [splitRunsFrom, wordsFrom]
        split_ifs with hc hempty
        · exact hnone (hmore hc)
        · exact absurd rfl hempty
        · exact hsome [c] (List.cons_ne_nil _ _)

/-- `re.split(r"\s+", s.strip())` -/
theorem splitRuns_strip (s : List Char) :
    splitRuns isSpace (strip s) = if words s = [] then [[]] else words s := by
  have hlast : ∀ c, (strip s).getLast? = some c → isSpace c = false := by
    intro c hc
    rw [strip, List.getLast?_reverse] at hc
    exact isSpace_eq_false_of_head?_dropWhile hc
  rw [← words_strip s]
  cases hstrip : strip s with
  | nil => rfl
  | cons c t =>
      obtain ⟨rest, hrest⟩ := isPrefix_strip s
      have hc : isSpace c = false :=
        isSpace_eq_false_of_head?_dropWhile (s := s) (by rw [← hrest, hstrip]; rfl)
      rw [hstrip] at hlast
      have hpieces := (splitRunsFrom_eq_wordsFrom fun d hd =>
        hlast d (by rw [List.getLast?_cons, hd]; rfl)).1 [c] (List.cons_ne_nil _ _)
      have hwords : words (c :: t) = wordsFrom [c] t := by simp [words, wordsFrom, hc]
      rw [splitRuns, splitRunsFrom, hc, if_neg Bool.false_ne_true, List.nil_append, hwords,
        ← hpieces, if_neg (splitRunsFrom_ne_nil _ _)]

end Words

end TpQemu.Text

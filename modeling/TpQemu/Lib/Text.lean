import Mathlib.Data.List.Infix
import Mathlib.Data.List.Basic

/-!
# Searching and cutting texts

Texts are lists of characters. `afterFirst` and `beforeLast` are the two halves
of a greedy search for a text between two markers: the leftmost occurrence of the
first marker and the rightmost one of the second. `splitlines` cuts a text at
line boundaries, where carriage return and line feed together are one boundary
and a final boundary opens no further line. `words` cuts it at white space.

A pattern that does not contain a character `c` cannot lie across an occurrence
of `c`; this is what confines a search to one side of a line boundary.
-/

namespace TpQemu.Text

section Search

variable {α : Type*}

/-- A pattern without the separator lies on one side of it. -/
theorem infix_append_cons_iff {pat a b : List α} {c : α} (hc : c ∉ pat) :
    pat <:+: a ++ c :: b ↔ pat <:+: a ∨ pat <:+: b := by
  constructor
  · rintro ⟨l, r, h⟩
    rw [List.append_assoc] at h
    rcases List.append_eq_append_iff.mp h with ⟨m, ha, hm⟩ | ⟨m, hl, hm⟩
    · -- The pattern starts inside `a`; it must end there, since `c` is not in it.
      rcases List.append_eq_append_iff.mp hm with ⟨n, hn, -⟩ | ⟨n, hn, hr⟩
      · exact .inl ⟨l, n, by rw [ha, hn, List.append_assoc]⟩
      · cases n with
        | nil => exact .inl ⟨l, [], by simpa [ha] using hn⟩
        | cons x n =>
            obtain ⟨rfl, -⟩ := List.cons_eq_cons.mp hr
            exact absurd (hn ▸ List.mem_append_right _ List.mem_cons_self) hc
    · cases m with
      | nil =>
          cases pat with
          | nil => exact .inl (List.nil_infix)
          | cons p pat =>
              obtain ⟨rfl, -⟩ := List.cons_eq_cons.mp hm
              exact absurd List.mem_cons_self hc
      | cons x m =>
          obtain ⟨-, hb⟩ := List.cons_eq_cons.mp hm
          exact .inr ⟨m, r, by rw [List.append_assoc]; exact hb.symm⟩
  · rintro (h | h)
    · exact List.infix_append_of_infix_left h
    · exact List.infix_append_of_infix_right (List.infix_cons h)

variable [DecidableEq α]

/-- What follows the leftmost occurrence of the pattern. -/
def afterFirst (pat : List α) : List α → Option (List α)
  | [] => if pat = [] then some [] else none
  | c :: s =>
      if pat <+: c :: s then some ((c :: s).drop pat.length) else afterFirst pat s

/-- What precedes the rightmost occurrence of the pattern. -/
def beforeLast (pat : List α) : List α → Option (List α)
  | [] => if pat = [] then some [] else none
  | c :: s =>
      match beforeLast pat s with
      | some t => some (c :: t)
      | none => if pat <+: c :: s then some [] else none

theorem beforeLast_eq_none {pat s : List α} (h : ¬pat <:+: s) : beforeLast pat s = none := by
  induction s with
  | nil =>
      have hne : pat ≠ [] := fun he => h (he ▸ List.nil_infix)
      simp [beforeLast, hne]
  | cons c s ih =>
      rw [List.infix_cons_iff, not_or] at h
      simp [beforeLast, ih h.2, h.1]

/-- The leftmost occurrence is the stated one when the text before it ends in a
character foreign to the pattern and does not contain the pattern. -/
theorem afterFirst_append {pat before rest : List α} {c : α} (hpat : pat ≠ []) (hc : c ∉ pat)
    (ends : before = [] ∨ ∃ b, before = b ++ [c]) (absent : ¬pat <:+: before) :
    afterFirst pat (before ++ (pat ++ rest)) = some rest := by
  induction before with
  | nil =>
      cases pat with
      | nil => exact absurd rfl hpat
      | cons p pat => simp [afterFirst]
  | cons x before ih =>
      rcases ends with h | ⟨b, hb⟩
      · cases h
      · have outside : ¬pat <+: x :: (before ++ (pat ++ rest)) := by
          -- Everything up to the last `c` before the occurrence is free of the pattern.
          intro hp
          have hlen : pat.length ≤ (x :: before).length := by
            by_contra hlt
            have hx : x :: before <+: pat :=
              List.prefix_of_prefix_length_le (List.prefix_append (x :: before) (pat ++ rest))
                (by simpa using hp) (by omega)
            exact hc (hx.subset (by rw [hb]; simp))
          have hx : pat <+: x :: before :=
            List.prefix_of_prefix_length_le (by simpa using hp)
              (List.prefix_append (x :: before) (pat ++ rest)) hlen
          exact absent hx.isInfix
        have ends' : before = [] ∨ ∃ b, before = b ++ [c] := by
          cases b with
          | nil => exact .inl (List.cons_eq_cons.mp hb).2
          | cons y b => exact .inr ⟨b, (List.cons_eq_cons.mp hb).2⟩
        have absent' : ¬pat <:+: before := fun h => absent (List.infix_cons h)
        rw [List.cons_append, afterFirst, if_neg outside]
        exact ih ends' absent'

/-- The rightmost occurrence is the stated one when the text after it starts with
a character foreign to the pattern and does not contain the pattern. -/
theorem beforeLast_append {pat mid after : List α} {c : α} (hpat : pat ≠ []) (hc : c ∉ pat)
    (absent : ¬pat <:+: after) :
    beforeLast pat (mid ++ (pat ++ c :: after)) = some mid := by
  induction mid with
  | nil =>
      cases pat with
      | nil => exact absurd rfl hpat
      | cons p pat =>
          have hshort : ¬p :: pat <:+: pat := fun h => by
            have hlen := h.length_le
            rw [List.length_cons] at hlen
            omega
          have hnone : beforeLast (p :: pat) (pat ++ c :: after) = none :=
            beforeLast_eq_none (by
              rw [infix_append_cons_iff hc, not_or]
              exact ⟨hshort, absent⟩)
          simp [beforeLast, hnone]
  | cons x mid ih => simp [beforeLast, ih]

end Search

section Split

variable {α : Type*} [BEq α] [LawfulBEq α]

/-- The pieces of a text cut at a separator are free of it, and are made of the
letters of the text. -/
theorem of_mem_splitOn {sep : α} {s piece : List α} (h : piece ∈ s.splitOn sep) :
    sep ∉ piece ∧ piece ⊆ s := by
  induction s generalizing piece with
  | nil => simp_all
  | cons c s ih =>
      rw [List.splitOn_cons_eq_if_modifyHead] at h
      split at h
      · rcases List.mem_cons.mp h with rfl | h
        · simp
        · exact ⟨(ih h).1, List.subset_cons_of_subset c (ih h).2⟩
      · rename_i hc
        obtain ⟨first, rest, hsplit⟩ := List.exists_cons_of_ne_nil (List.splitOn_ne_nil sep s)
        rw [hsplit, List.modifyHead_cons] at h
        rcases List.mem_cons.mp h with rfl | h
        · obtain ⟨hfree, hsub⟩ := ih (hsplit ▸ List.mem_cons_self)
          refine ⟨?_, List.cons_subset_cons c hsub⟩
          rw [List.mem_cons, not_or]
          exact ⟨fun he => hc (by simp [he]), hfree⟩
        · obtain ⟨hfree, hsub⟩ := ih (hsplit ▸ List.mem_cons_of_mem first h)
          exact ⟨hfree, List.subset_cons_of_subset c hsub⟩

end Split

section Lines

/-- The characters at which `splitlines` ends a line. -/
def isLineBreak (c : Char) : Bool :=
  c.toNat ∈ [0x0A, 0x0B, 0x0C, 0x0D, 0x1C, 0x1D, 0x1E, 0x85, 0x2028, 0x2029]

/-- The lines of a text behind the characters `line` of an open line, in reverse.
`cr` records that the last boundary was a carriage return, so that a line feed
right after it belongs to the same boundary. -/
def splitlinesFrom (line : List Char) (cr : Bool) : List Char → List (List Char)
  | [] => if line = [] then [] else [line.reverse]
  | c :: s =>
      if cr ∧ c = '\n' then splitlinesFrom line false s
      else if isLineBreak c then line.reverse :: splitlinesFrom [] (c = '\r') s
      else splitlinesFrom (c :: line) false s

/-- Python's `str.splitlines()`. -/
def splitlines (s : List Char) : List (List Char) := splitlinesFrom [] false s

/-- A text that stays on one line. -/
def OneLine (l : List Char) : Prop := ∀ c ∈ l, isLineBreak c = false

instance (l : List Char) : Decidable (OneLine l) :=
  List.decidableBAll (fun c => isLineBreak c = false) l

theorem oneLine_append {a b : List Char} : OneLine (a ++ b) ↔ OneLine a ∧ OneLine b := by
  simp only [OneLine, List.mem_append, or_imp, forall_and]

private theorem splitlinesFrom_append {l : List Char} (hl : OneLine l) (line s : List Char) :
    splitlinesFrom line false (l ++ s) = splitlinesFrom (l.reverse ++ line) false s := by
  induction l generalizing line with
  | nil => rfl
  | cons c l ih =>
      have hc : isLineBreak c = false := hl c List.mem_cons_self
      have rest : OneLine l := fun x hx => hl x (List.mem_cons_of_mem c hx)
      rw [List.cons_append, splitlinesFrom, hc]
      simp only [Bool.false_eq_true, false_and, if_false]
      rw [ih rest]
      simp

/-- A line ended by a line feed is the first line. -/
theorem splitlines_line {l : List Char} (hl : OneLine l) (s : List Char) :
    splitlines (l ++ '\n' :: s) = l :: splitlines s := by
  rw [splitlines, splitlinesFrom_append hl, splitlinesFrom]
  simp [isLineBreak, splitlines]

/-- A non-empty text without a boundary is its only line. -/
theorem splitlines_last {l : List Char} (hl : OneLine l) (hne : l ≠ []) :
    splitlines l = [l] := by
  have h := splitlinesFrom_append hl [] []
  rw [List.append_nil] at h
  rw [splitlines, h, splitlinesFrom]
  simp [hne]

/-- Lines, each ended by a line feed, followed by an open last line. -/
theorem splitlines_flatMap {ls : List (List Char)} {last : List Char}
    (hls : ∀ l ∈ ls, OneLine l) (hlast : OneLine last) (hne : last ≠ []) :
    splitlines (ls.flatMap (· ++ ['\n']) ++ last) = ls ++ [last] := by
  induction ls with
  | nil => exact splitlines_last hlast hne
  | cons l ls ih =>
      have hl : OneLine l := hls l List.mem_cons_self
      have rest : ∀ l ∈ ls, OneLine l := fun x hx => hls x (List.mem_cons_of_mem l hx)
      rw [List.flatMap_cons, List.append_assoc, List.append_assoc, List.singleton_append,
        splitlines_line hl, ih rest, List.cons_append]

/-- Lines, each with its line feed. -/
def unlines (ls : List (List Char)) : List Char := ls.flatMap (· ++ ['\n'])

@[simp] theorem unlines_nil : unlines [] = [] := rfl

@[simp] theorem unlines_cons (l : List Char) (ls : List (List Char)) :
    unlines (l :: ls) = l ++ '\n' :: unlines ls := by
  simp [unlines]

@[simp] theorem unlines_append (ls ls' : List (List Char)) :
    unlines (ls ++ ls') = unlines ls ++ unlines ls' := List.flatMap_append

end Lines

section Words

/-- `str.isspace` -/
def isSpace (c : Char) : Bool :=
  (0x9 ≤ c.toNat && c.toNat ≤ 0xd) || (0x1c ≤ c.toNat && c.toNat ≤ 0x20) || c.toNat = 0x85 ||
    c.toNat = 0xa0 || c.toNat = 0x1680 || (0x2000 ≤ c.toNat && c.toNat ≤ 0x200a) ||
    c.toNat = 0x2028 || c.toNat = 0x2029 || c.toNat = 0x202f || c.toNat = 0x205f ||
    c.toNat = 0x3000

/-- The words of a text behind the letters of the current word. -/
def wordsFrom (word : List Char) : List Char → List (List Char)
  | [] => if word.isEmpty then [] else [word]
  | c :: cs =>
      if isSpace c then
        if word.isEmpty then wordsFrom [] cs else word :: wordsFrom [] cs
      else wordsFrom (word ++ [c]) cs

/-- `str.split()` without arguments, also `str.rsplit()`. -/
def words (s : List Char) : List (List Char) := wordsFrom [] s

theorem ne_nil_of_mem_wordsFrom {word s w : List Char} (h : w ∈ wordsFrom word s) : w ≠ [] := by
  induction s generalizing word with
  | nil =>
      rw [wordsFrom] at h
      split at h
      · cases h
      · rename_i hne
        rw [List.mem_singleton] at h
        rintro rfl
        exact hne (by rw [← h]; rfl)
  | cons c s ih =>
      rw [wordsFrom] at h
      split at h
      · split at h
        · exact ih h
        · rename_i hne
          rcases List.mem_cons.mp h with rfl | h
          · rintro rfl
            exact hne rfl
          · exact ih h
      · exact ih h

end Words

end TpQemu.Text

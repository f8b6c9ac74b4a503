import Mathlib.Data.List.Basic
import TpQemu.Lib.Numeral

/-!
# Digits in groups

`chunks n l` cuts a list into pieces of `n` elements and a last one of at most `n`, as `re.findall`
does with a pattern `\w{n}|\w+` on a word. `groups n ds` does the same from the right, as digits
are grouped, and `groupsValue` reads groups of hexadecimal digits.
-/

namespace TpQemu

section Chunks

variable {α : Type*} (n : Nat)

/-- The pieces of a list behind the begin of a piece. -/
def chunksFrom : List α → List α → List (List α)
  | piece, [] => if piece.isEmpty then [] else [piece]
  | piece, a :: l =>
      if piece.length + 1 = n then (piece ++ [a]) :: chunksFrom [] l
      else chunksFrom (piece ++ [a]) l

def chunks (l : List α) : List (List α) := chunksFrom n [] l

variable {n}

@[simp] theorem chunks_nil : chunks n ([] : List α) = [] := rfl

theorem chunksFrom_eq {piece l : List α} (hpiece : piece.length < n) (hne : piece ++ l ≠ []) :
    chunksFrom n piece l = (piece ++ l).take n :: chunks n ((piece ++ l).drop n) := by
  induction l generalizing piece with
  | nil =>
      rw [List.append_nil] at hne ⊢
      rw [chunksFrom, if_neg (by simpa using hne), List.take_of_length_le hpiece.le,
        List.drop_eq_nil_of_le hpiece.le, chunks_nil]
  | cons a l ih =>
      have happend : piece ++ a :: l = piece ++ [a] ++ l := by rw [List.append_assoc]; rfl
      have hlength : (piece ++ [a]).length = piece.length + 1 := by simp
      rw [chunksFrom]
      split_ifs with hfull
      · rw [happend, List.take_left' (hlength.trans hfull), List.drop_left' (hlength.trans hfull),
          chunks]
      · rw [ih (by omega) (by simp), happend]

theorem chunks_eq {l : List α} (hn : 0 < n) (hne : l ≠ []) :
    chunks n l = l.take n :: chunks n (l.drop n) := chunksFrom_eq hn hne

theorem chunks_of_length_le {l : List α} (hn : 0 < n) (hne : l ≠ []) (h : l.length ≤ n) :
    chunks n l = [l] := by
  rw [chunks_eq hn hne, List.take_of_length_le h, List.drop_eq_nil_of_le h, chunks_nil]

/-- The first piece is cut off, and the rest is shorter. -/
theorem chunks_induction {motive : List α → Prop} (hn : 0 < n) (nil : motive [])
    (cut : ∀ l, l ≠ [] → motive (l.drop n) → motive l) (l : List α) : motive l := by
  induction hl : l.length using Nat.strongRecOn generalizing l with
  | ind len ih =>
      by_cases hne : l = []
      · rw [hne]
        exact nil
      · have hpos := List.length_pos_of_ne_nil hne
        refine cut l hne (ih (l.drop n).length ?_ _ rfl)
        rw [List.length_drop]
        omega

theorem flatten_chunks (hn : 0 < n) (l : List α) : (chunks n l).flatten = l := by
  induction l using chunks_induction hn with
  | nil => rfl
  | cut l hne ih => rw [chunks_eq hn hne, List.flatten_cons, ih, List.take_append_drop]

theorem ne_nil_of_mem_chunks (hn : 0 < n) {l piece : List α} (h : piece ∈ chunks n l) :
    piece ≠ [] := by
  induction l using chunks_induction hn with
  | nil => exact absurd h List.not_mem_nil
  | cut l hne ih =>
      rw [chunks_eq hn hne] at h
      rcases List.mem_cons.mp h with rfl | h
      · rw [Ne, List.take_eq_nil_iff, not_or]
        exact ⟨hn.ne', hne⟩
      · exact ih h

end Chunks

section Groups

open Numeral

/-- The groups of `n` digits, from the right. -/
def groups (n : Nat) (ds : List Char) : List (List Char) :=
  ((chunks n ds.reverse).map List.reverse).reverse

/-- The value of groups of 8 hexadecimal digits. -/
def groupsValue (gs : List (List Char)) : Nat := gs.foldl (fun v g => v * 2 ^ 32 + hexValue g) 0

theorem hexValue_append (a b : List Char) :
    hexValue (a ++ b) = hexValue a * 16 ^ b.length + hexValue b := by
  induction b using List.reverseRecOn with
  | nil => simp [hexValue]
  | append_singleton b c ih =>
      rw [← List.append_assoc, hexValue_append_singleton, ih, hexValue_append_singleton,
        List.length_append, List.length_singleton, Nat.pow_succ, Nat.add_mul, Nat.mul_assoc,
        Nat.add_assoc]

theorem flatten_groups {n : Nat} (hn : 0 < n) (ds : List Char) : (groups n ds).flatten = ds := by
  rw [groups, ← List.reverse_reverse ds, ← List.reverse_flatten, flatten_chunks hn]
  simp

theorem groups_of_length_le {n : Nat} {ds : List Char} (hn : 0 < n) (hne : ds ≠ [])
    (h : ds.length ≤ n) : groups n ds = [ds] := by
  rw [groups, chunks_of_length_le hn (by simpa using hne) (by simpa using h)]
  simp

theorem two_le_length_groups {n : Nat} {ds : List Char} (hn : 0 < n) (h : n < ds.length) :
    2 ≤ (groups n ds).length := by
  have hne : ds.reverse ≠ [] := List.ne_nil_of_length_pos (by rw [List.length_reverse]; omega)
  have hrest : ds.reverse.drop n ≠ [] :=
    List.ne_nil_of_length_pos (by rw [List.length_drop, List.length_reverse]; omega)
  rw [groups, List.length_reverse, List.length_map, chunks_eq hn hne, chunks_eq hn hrest]
  simp

theorem of_mem_groups {n : Nat} (hn : 0 < n) {ds g : List Char} (h : g ∈ groups n ds) :
    g ≠ [] ∧ g ⊆ ds := by
  constructor
  · rw [groups, List.mem_reverse, List.mem_map] at h
    obtain ⟨piece, hpiece, rfl⟩ := h
    exact mt List.reverse_eq_nil_iff.mp (ne_nil_of_mem_chunks hn hpiece)
  · have hflatten := (List.sublist_flatten_of_mem h).subset
    rwa [flatten_groups hn] at hflatten

/-- Grouping does not change the value. -/
theorem groupsValue_groups (ds : List Char) : groupsValue (groups 8 ds) = hexValue ds := by
  have hreverse : ∀ l : List Char,
      ((chunks 8 l).map List.reverse).foldr (fun g v => v * 2 ^ 32 + hexValue g) 0 =
        hexValue l.reverse := by
    intro l
    induction l using chunks_induction (n := 8) (by decide) with
    | nil => rfl
    | cut l hne ih =>
        have hl : l.reverse = (l.drop 8).reverse ++ (l.take 8).reverse := by
          rw [← List.reverse_append, List.take_append_drop]
        rw [chunks_eq (by decide) hne, List.map_cons, List.foldr_cons, ih, hl, hexValue_append,
          List.length_reverse, List.length_take]
        by_cases hlength : 8 ≤ l.length
        · rw [min_eq_left hlength]
          rfl
        · rw [List.drop_eq_nil_of_le (by omega)]
          simp [hexValue]
  rw [groupsValue, groups, List.foldl_reverse, hreverse, List.reverse_reverse]

end Groups

end TpQemu

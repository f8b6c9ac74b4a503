import Mathlib.Algebra.GroupWithZero.Nat
import Mathlib.Data.List.Infix
import Mathlib.Data.List.Basic

/-!
# Replacing parts of a text

`replace` is Python's `str.replace`: the occurrences of a text are replaced from left to
right, and the search goes on behind each of them. A text without the separator has its
occurrences inside the pieces of a separated text, so that the replacement works piece by
piece. `occurrences` counts the same places.
-/

namespace TpQemu.Text

variable {α : Type*}

/-- A prefix without the separator lies before it. -/
theorem prefix_append_cons_iff {old a b : List α} {c : α} (hc : c ∉ old) :
    old <+: a ++ c :: b ↔ old <+: a := by
  constructor
  · intro h
    obtain ⟨t, ht⟩ := h
    obtain ⟨m, ha, -⟩ | ⟨m, hm, hb⟩ := List.append_eq_append_iff.mp ht
    · exact ⟨m, ha.symm⟩
    · cases m with
      | nil => exact ⟨[], by rw [hm, List.append_nil, List.append_nil]⟩
      | cons x m =>
          obtain ⟨rfl, -⟩ := List.cons_eq_cons.mp hb
          exact absurd (hm ▸ List.mem_append_right _ List.mem_cons_self) hc
  · intro h
    exact h.trans (List.prefix_append _ _)

variable [DecidableEq α]

/-- The replacement when this many characters belong to the last occurrence. -/
def replaceFrom (old new : List α) : Nat → List α → List α
  | _, [] => []
  | k + 1, _ :: s => replaceFrom old new k s
  | 0, c :: s =>
      if old <+: c :: s then new ++ replaceFrom old new (old.length - 1) s
      else c :: replaceFrom old new 0 s

/-- `s.replace(old, new)`; the empty text occurs between any two characters. -/
def replace (old new s : List α) : List α :=
  if old = [] then new ++ s.flatMap (· :: new) else replaceFrom old new 0 s

theorem replaceFrom_eq_drop (old new : List α) (k : Nat) (s : List α) :
    replaceFrom old new k s = replaceFrom old new 0 (s.drop k) := by
  induction k generalizing s with
  | zero => rfl
  | succ k ih =>
      cases s with
      | nil => rfl
      | cons c s => exact ih s

section Replace

variable {old new : List α} (hold : old ≠ [])

include hold

theorem replace_nil : replace old new [] = [] := by
  rw [replace, if_neg hold, replaceFrom]

/-- An occurrence in front. -/
theorem replace_append_self (s : List α) :
    replace old new (old ++ s) = new ++ replace old new s := by
  obtain ⟨c, cs, rfl⟩ := List.exists_cons_of_ne_nil hold
  rw [replace, replace, if_neg hold, if_neg hold, List.cons_append, replaceFrom,
    if_pos (by simp), replaceFrom_eq_drop, List.length_cons, Nat.add_sub_cancel, List.drop_left]

theorem replace_cons {c : α} {s : List α} (h : ¬old <+: c :: s) :
    replace old new (c :: s) = c :: replace old new s := by
  rw [replace, replace, if_neg hold, if_neg hold, replaceFrom, if_neg h]

theorem replace_self : replace old new old = new := by
  have h : replace old new (old ++ []) = new ++ replace old new [] := replace_append_self hold []
  rwa [replace_nil hold, List.append_nil, List.append_nil] at h

/-- Induction along the replacement. -/
theorem replace_induction {motive : List α → Prop} (nil : motive [])
    (found : ∀ s, motive s → motive (old ++ s))
    (skip : ∀ c s, ¬old <+: c :: s → motive s → motive (c :: s)) (s : List α) : motive s := by
  induction hn : s.length using Nat.strongRecOn generalizing s with
  | _ n ih =>
      cases s with
      | nil => exact nil
      | cons c s =>
          by_cases h : old <+: c :: s
          · obtain ⟨t, ht⟩ := h
            have hpos := List.length_pos_of_ne_nil hold
            have hlen := congrArg List.length ht
            rw [List.length_append] at hlen
            rw [← ht]
            exact found t (ih t.length (by omega) t rfl)
          · refine skip c s h (ih s.length ?_ s rfl)
            rw [← hn, List.length_cons]
            exact Nat.lt_succ_self _

theorem replace_of_absent {s : List α} (h : ¬old <:+: s) : replace old new s = s := by
  induction s with
  | nil => exact replace_nil hold
  | cons c s ih =>
      rw [List.infix_cons_iff, not_or] at h
      rw [replace_cons hold h.1, ih h.2]

/-- With `n` occurrences the length changes `n` times. -/
theorem length_replace (new s : List α) :
    ∃ n, (old <:+: s → 0 < n) ∧
      (replace old new s).length + n * old.length = s.length + n * new.length := by
  induction s using replace_induction hold with
  | nil =>
      refine ⟨0, fun h => absurd (List.infix_nil.mp h) hold, ?_⟩
      rw [replace_nil hold, Nat.zero_mul, Nat.zero_mul]
  | found s ih =>
      obtain ⟨n, -, hlen⟩ := ih
      refine ⟨n + 1, fun _ => Nat.succ_pos n, ?_⟩
      rw [replace_append_self hold, List.length_append, List.length_append, Nat.add_mul,
        Nat.add_mul, Nat.one_mul, Nat.one_mul]
      omega
  | skip c s h ih =>
      obtain ⟨n, hpos, hlen⟩ := ih
      refine ⟨n, fun hin => hpos ((List.infix_cons_iff.mp hin).resolve_left h), ?_⟩
      rw [replace_cons hold h, List.length_cons, List.length_cons]
      omega

/-- A replacement is seen in the text unless there is nothing to replace. -/
theorem replace_eq_self_iff {s : List α} :
    replace old new s = s ↔ new = old ∨ ¬old <:+: s := by
  constructor
  · intro heq
    by_cases hin : old <:+: s
    swap
    · exact .inr hin
    refine .inl ?_
    have hsame : new.length = old.length := by
      obtain ⟨n, hpos, hlen⟩ := length_replace hold new s
      rw [heq] at hlen
      exact (Nat.eq_of_mul_eq_mul_left (hpos hin) (Nat.add_left_cancel hlen)).symm
    induction s using replace_induction hold with
    | nil => exact absurd (List.infix_nil.mp hin) hold
    | found s ih =>
        rw [replace_append_self hold] at heq
        exact List.append_inj_left heq hsame
    | skip c s h ih =>
        rw [replace_cons hold h, List.cons_inj_right] at heq
        exact ih heq ((List.infix_cons_iff.mp hin).resolve_left h)
  · rintro (rfl | h)
    · induction s using replace_induction hold with
      | nil => exact replace_nil hold
      | found s ih => rw [replace_append_self hold, ih]
      | skip c s h ih => rw [replace_cons hold h, ih]
    · exact replace_of_absent hold h

theorem replace_eq_nil_iff (hnew : new ≠ []) {s : List α} : replace old new s = [] ↔ s = [] := by
  induction s using replace_induction hold with
  | nil => rw [replace_nil hold]
  | found s ih =>
      rw [replace_append_self hold]
      exact iff_of_false (fun h => hnew (List.append_eq_nil_iff.mp h).1)
        fun h => hold (List.append_eq_nil_iff.mp h).1
  | skip c s h ih =>
      rw [replace_cons hold h]
      exact iff_of_false (List.cons_ne_nil _ _) (List.cons_ne_nil _ _)

/-- The replacement works on both sides of a separator. -/
theorem replace_append_cons {c : α} (hc : c ∉ old) (a b : List α) :
    replace old new (a ++ c :: b) = replace old new a ++ c :: replace old new b := by
  induction a using replace_induction hold with
  | nil =>
      have hnot : ¬old <+: [] ++ c :: b := by
        rw [prefix_append_cons_iff hc, List.prefix_nil]
        exact hold
      rw [replace_nil hold, List.nil_append, List.nil_append, replace_cons hold hnot]
  | found a ih =>
      rw [List.append_assoc, replace_append_self hold, replace_append_self hold, ih,
        List.append_assoc]
  | skip x a h ih =>
      have hnot : ¬old <+: x :: (a ++ c :: b) := by
        rw [← List.cons_append, prefix_append_cons_iff hc]
        exact h
      rw [List.cons_append, replace_cons hold hnot, replace_cons hold h, ih, List.cons_append]

/-- The replacement works on the parts of a separated text. -/
theorem replace_intercalate {sep : α} (hsep : sep ∉ old) (parts : List (List α)) :
    replace old new ([sep].intercalate parts) =
      [sep].intercalate (parts.map (replace old new)) := by
  induction parts with
  | nil => exact replace_nil hold
  | cons a parts ih =>
      cases parts with
      | nil =>
          rw [List.map_cons, List.map_nil, List.intercalate_singleton, List.intercalate_singleton]
      | cons b parts =>
          rw [List.map_cons] at ih
          rw [List.intercalate_cons_cons, List.map_cons, List.map_cons, List.intercalate_cons_cons,
            List.append_assoc, List.append_assoc, List.singleton_append, List.singleton_append,
            replace_append_cons hold hsep, ih]

theorem notMem_replace {c : α} (hc : c ∉ new) {s : List α} (hs : c ∉ s) :
    c ∉ replace old new s := by
  induction s using replace_induction hold with
  | nil => rwa [replace_nil hold]
  | found s ih =>
      rw [List.mem_append, not_or] at hs
      rw [replace_append_self hold, List.mem_append, not_or]
      exact ⟨hc, ih hs.2⟩
  | skip x s h ih =>
      rw [List.mem_cons, not_or] at hs
      rw [replace_cons hold h, List.mem_cons, not_or]
      exact ⟨hs.1, ih hs.2⟩

/-- Piece by piece. -/
theorem splitOn_replace {sep : α} (hsep : sep ∉ old) (hsep' : sep ∉ new) (s : List α) :
    (replace old new s).splitOn sep = (s.splitOn sep).map (replace old new) := by
  induction hn : s.length using Nat.strongRecOn generalizing s with
  | _ n ih =>
      by_cases hmem : sep ∈ s
      · obtain ⟨a, b, rfl, ha⟩ := List.eq_append_cons_of_mem hmem
        have hb : b.length < n := by
          rw [← hn, List.length_append, List.length_cons]
          omega
        rw [replace_append_cons hold hsep,
          List.splitOn_append_cons_self_of_not_mem (notMem_replace hold hsep' ha),
          List.splitOn_append_cons_self_of_not_mem ha, List.map_cons, ih b.length hb b rfl]
      · rw [List.splitOn_eq_singleton hmem,
          List.splitOn_eq_singleton (notMem_replace hold hsep' hmem)]
        rfl

end Replace

/-! ## Counting -/

section Count

/-- The occurrences when this many characters belong to the last one. -/
def occurrencesFrom (old : List α) : Nat → List α → Nat
  | _, [] => 0
  | k + 1, _ :: s => occurrencesFrom old k s
  | 0, c :: s =>
      if old <+: c :: s then occurrencesFrom old (old.length - 1) s + 1
      else occurrencesFrom old 0 s

/-- `s.count(old)` -/
def occurrences (old s : List α) : Nat :=
  if old = [] then s.length + 1 else occurrencesFrom old 0 s

theorem occurrencesFrom_eq_drop (old : List α) (k : Nat) (s : List α) :
    occurrencesFrom old k s = occurrencesFrom old 0 (s.drop k) := by
  induction k generalizing s with
  | zero => rfl
  | succ k ih =>
      cases s with
      | nil => rfl
      | cons c s => exact ih s

variable {old : List α} (hold : old ≠ [])

include hold

theorem occurrences_nil : occurrences old [] = 0 := by
  rw [occurrences, if_neg hold, occurrencesFrom]

theorem occurrences_append_self (s : List α) :
    occurrences old (old ++ s) = occurrences old s + 1 := by
  obtain ⟨c, cs, rfl⟩ := List.exists_cons_of_ne_nil hold
  rw [occurrences, occurrences, if_neg hold, if_neg hold, List.cons_append, occurrencesFrom,
    if_pos (by simp), occurrencesFrom_eq_drop, List.length_cons, Nat.add_sub_cancel,
    List.drop_left]

theorem occurrences_cons {c : α} {s : List α} (h : ¬old <+: c :: s) :
    occurrences old (c :: s) = occurrences old s := by
  rw [occurrences, occurrences, if_neg hold, if_neg hold, occurrencesFrom, if_neg h]

theorem occurrences_of_absent {s : List α} (h : ¬old <:+: s) : occurrences old s = 0 := by
  induction s with
  | nil => exact occurrences_nil hold
  | cons c s ih =>
      rw [List.infix_cons_iff, not_or] at h
      rw [occurrences_cons hold h.1, ih h.2]

/-- The occurrences are on one side of a separator or the other. -/
theorem occurrences_append_cons {c : α} (hc : c ∉ old) (a b : List α) :
    occurrences old (a ++ c :: b) = occurrences old a + occurrences old b := by
  induction a using replace_induction hold with
  | nil =>
      have hnot : ¬old <+: [] ++ c :: b := by
        rw [prefix_append_cons_iff hc, List.prefix_nil]
        exact hold
      rw [occurrences_nil hold, Nat.zero_add]
      exact occurrences_cons hold hnot
  | found a ih =>
      rw [List.append_assoc, occurrences_append_self hold, occurrences_append_self hold, ih]
      omega
  | skip x a h ih =>
      have hnot : ¬old <+: x :: (a ++ c :: b) := by
        rw [← List.cons_append, prefix_append_cons_iff hc]
        exact h
      rw [List.cons_append, occurrences_cons hold hnot, occurrences_cons hold h, ih]

theorem occurrences_intercalate {sep : α} (hsep : sep ∉ old) (parts : List (List α)) :
    occurrences old ([sep].intercalate parts) = (parts.map (occurrences old)).sum := by
  induction parts with
  | nil => exact occurrences_nil hold
  | cons a parts ih =>
      cases parts with
      | nil => simp
      | cons b parts =>
          rw [List.intercalate_cons_cons, List.append_assoc, List.singleton_append,
            occurrences_append_cons hold hsep, ih]
          rfl

end Count

end TpQemu.Text

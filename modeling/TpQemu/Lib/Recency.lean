import Mathlib.Data.List.Dedup
import Mathlib.Data.Finset.Card

/-!
# The values seen last

The distinct values of a history, the one seen last in front. A list that is cut after each step
is as good as the whole order: a value that falls out of the front can come back only by being
seen again.
-/

namespace TpQemu

variable {α : Type} [DecidableEq α]

/-- The values of a history in the order of their last appearance, the latest first. -/
def recency (seen : List α) : List α := seen.dedup.reverse

theorem nodup_recency (seen : List α) : (recency seen).Nodup :=
  List.nodup_reverse.mpr (List.nodup_dedup seen)

theorem length_recency (seen : List α) : (recency seen).length = seen.toFinset.card := by
  rw [recency, List.length_reverse, List.card_toFinset]

theorem dedup_concat (seen : List α) (x : α) :
    (seen ++ [x]).dedup = seen.dedup.erase x ++ [x] := by
  induction seen with
  | nil => rfl
  | cons a seen ih =>
      rw [List.cons_append]
      by_cases ha : a ∈ seen
      · rw [List.dedup_cons_of_mem ha, List.dedup_cons_of_mem (List.mem_append_left _ ha), ih]
      · rw [List.dedup_cons_of_notMem ha]
        by_cases hx : a = x
        · subst hx
          have hmem : a ∈ seen ++ [a] := List.mem_append_right _ List.mem_cons_self
          have hdedup : a ∉ seen.dedup := fun h => ha (List.mem_dedup.mp h)
          rw [List.dedup_cons_of_mem hmem, ih, List.erase_cons_head, List.erase_of_not_mem hdedup]
        · have hnot : a ∉ seen ++ [x] := by
            rw [List.mem_append, List.mem_singleton]
            exact not_or.mpr ⟨ha, hx⟩
          rw [List.dedup_cons_of_notMem hnot, ih,
            List.erase_cons_tail (by simpa using hx), List.cons_append]

/-- The value that is seen moves to the front. -/
theorem recency_concat (seen : List α) (x : α) :
    recency (seen ++ [x]) = x :: (recency seen).erase x := by
  have hnodup := List.nodup_dedup seen
  rw [recency, dedup_concat, List.reverse_append, List.reverse_singleton, List.singleton_append,
    recency, hnodup.erase_eq_filter, (List.nodup_reverse.mpr hnodup).erase_eq_filter,
    List.filter_reverse]

theorem take_erase_take (l : List α) (n : Nat) (x : α) :
    ((l.take (n + 1)).erase x).take n = (l.erase x).take n := by
  induction l generalizing n with
  | nil => rfl
  | cons a l ih =>
      rw [List.take_succ_cons]
      by_cases hx : a = x
      · rw [hx, List.erase_cons_head, List.erase_cons_head, List.take_take, Nat.min_self]
      · have hne : ¬(a == x) = true := by simpa using hx
        rw [List.erase_cons_tail hne, List.erase_cons_tail hne]
        cases n with
        | zero => rfl
        | succ n => rw [List.take_succ_cons, List.take_succ_cons, ih]

/-- Cutting the list before a value moves to the front makes no difference to its front. -/
theorem take_cons_erase_take (l : List α) (n : Nat) (x : α) :
    (x :: (l.take n).erase x).take n = (x :: l.erase x).take n := by
  cases n with
  | zero => rfl
  | succ n => rw [List.take_succ_cons, List.take_succ_cons, take_erase_take]

end TpQemu

import Mathlib.Data.List.Basic
import Mathlib.Data.List.Sort
import Mathlib.Tactic.SplitIfs

/-!
# Slices

Python's `xs[start:stop:step]` on lists. A bound that is not given stands for the
end of the list it is at, which depends on the sign of the step; a given one
counts from the end of the list when it is negative and is clipped to the list.
-/

namespace TpQemu.Slice

variable {α : Type*}

/-- A given bound, clipped to a list of length `len`. -/
def clip (len : Nat) (step i : Int) : Int :=
  if i < 0 then
    if i + len < 0 then (if step < 0 then -1 else 0) else i + len
  else if len ≤ i then (if step < 0 then len - 1 else len)
  else i

/-- The index a slice starts at. -/
def first (len : Nat) (step : Int) : Option Int → Int
  | none => if step < 0 then len - 1 else 0
  | some i => clip len step i

/-- The index a slice stops before. -/
def limit (len : Nat) (step : Int) : Option Int → Int
  | none => if step < 0 then -1 else len
  | some i => clip len step i

/-- The number of steps from `a` that stay before `b`. -/
def count (a b step : Int) : Nat :=
  if step < 0 then (if b < a then ((a - b - 1) / -step + 1).toNat else 0)
  else if a < b then ((b - a - 1) / step + 1).toNat
  else 0

/-- `xs[start:stop:step]`, for a step other than zero. -/
def slice (xs : List α) (start stop : Option Int) (step : Int) : List α :=
  let a := first xs.length step start
  let b := limit xs.length step stop
  (List.range (count a b step)).filterMap fun (i : Nat) => xs[(a + step * i).toNat]?

example : slice [5, 6, 7, 8, 9] (some (-1)) none (-2) = [9, 7, 5] := by decide

theorem slice_subset (xs : List α) (start stop : Option Int) (step : Int) :
    slice xs start stop step ⊆ xs := by
  intro x hx
  obtain ⟨i, -, hi⟩ := List.mem_filterMap.mp hx
  exact List.mem_of_getElem? hi

/-- With a positive step an open end is the length of the list. -/
theorem slice_length {xs : List α} {start : Option Int} {step : Int} (h : 0 < step) :
    slice xs start (some xs.length) step = slice xs start none step := by
  have hclip : clip xs.length step xs.length = xs.length := by
    simp only [clip]
    split_ifs <;> omega
  have hlimit : limit xs.length step (some xs.length) = limit xs.length step none := by
    show clip xs.length step xs.length = if step < 0 then -1 else (xs.length : Int)
    rw [hclip, if_neg (by omega)]
  simp only [slice, hlimit]

/-- With a negative step nothing lies before the length of the list. -/
theorem slice_length_of_neg {xs : List α} {start : Option Int} {step : Int} (h : step < 0) :
    slice xs start (some xs.length) step = [] := by
  have hfirst : first xs.length step start ≤ xs.length - 1 := by
    cases start with
    | none => simp [first, h]
    | some i =>
        simp only [first, clip]
        split_ifs <;> omega
  have hlimit : limit xs.length step (some xs.length) = xs.length - 1 := by
    simp only [limit, clip]
    split_ifs <;> omega
  have hcount : count (first xs.length step start)
      (limit xs.length step (some xs.length)) step = 0 := by
    rw [hlimit, count, if_pos h, if_neg (by omega)]
  simp only [slice, hcount]
  rfl

/-- A forward slice between two indices of the list has the element at the first
of them. -/
theorem slice_ne_nil {xs : List α} {a b : Nat} {step : Int} (h : 0 < step) (hab : a < b)
    (ha : a < xs.length) : slice xs (some a) (some b) step ≠ [] := by
  have hfirst : first xs.length step (some (a : Int)) = a := by
    simp only [first, clip]
    split_ifs <;> omega
  have hlimit : (a : Int) < limit xs.length step (some (b : Int)) := by
    simp only [limit, clip]
    split_ifs <;> omega
  have hcount : 0 < count a (limit xs.length step (some (b : Int))) step := by
    rw [count, if_neg (by omega), if_pos hlimit]
    have hdiv := Int.ediv_nonneg (a := limit xs.length step (some (b : Int)) - a - 1) (b := step)
      (by omega) (by omega)
    omega
  have hmem : xs[a] ∈ slice xs (some (a : Int)) (some (b : Int)) step := by
    simp only [slice, hfirst]
    refine List.mem_filterMap.mpr ⟨0, List.mem_range.mpr hcount, ?_⟩
    simp
  exact List.ne_nil_of_mem hmem

theorem filterMap_range_getElem? (xs : List α) (a k : Nat) :
    (List.range k).filterMap (fun (i : Nat) => xs[((a : Int) + 1 * i).toNat]?) =
      (xs.drop a).take k := by
  have hindex : ∀ i : Nat, ((a : Int) + 1 * i).toNat = a + i := fun i => by omega
  simp only [hindex]
  induction k with
  | zero => rfl
  | succ k ih =>
      rw [List.range_succ, List.filterMap_append, ih, List.take_add_one, List.getElem?_drop]
      cases h : xs[a + k]? <;> simp [h]

/-- `xs[:n]` -/
theorem slice_upTo (xs : List α) (n : Nat) : slice xs none (some n) 1 = xs.take n := by
  have hcount : count ((0 : Nat) : Int) (limit xs.length 1 (some (n : Int))) 1 =
      min n xs.length := by
    simp only [count, limit, clip]
    split_ifs <;> omega
  have hfirst : first xs.length 1 none = ((0 : Nat) : Int) := rfl
  have hslice := filterMap_range_getElem? xs 0 (min n xs.length)
  rw [List.drop_zero, List.take_eq_take_min.symm] at hslice
  simpa only [slice, hfirst, hcount] using hslice

/-- `xs[n:]` -/
theorem slice_from (xs : List α) (n : Nat) : slice xs (some n) none 1 = xs.drop n := by
  have hfirst : first xs.length 1 (some (n : Int)) = ((min n xs.length : Nat) : Int) := by
    simp only [first, clip]
    split_ifs <;> omega
  have hcount : count ((min n xs.length : Nat) : Int) (limit xs.length 1 none) 1 =
      xs.length - min n xs.length := by
    simp only [count, limit]
    split_ifs <;> omega
  have hslice := filterMap_range_getElem? xs (min n xs.length) (xs.length - min n xs.length)
  simp only [slice, hfirst, hcount, hslice]
  rcases Nat.le_total n xs.length with h | h
  · rw [Nat.min_eq_left h, List.take_of_length_le (by simp)]
  · rw [Nat.min_eq_right h, List.drop_of_length_le (Nat.le_refl _), List.drop_of_length_le h,
      List.take_nil]

/-! ## Strides -/

/-- The positions of `xs[a::step]` in a list of length `n`. -/
def positions (n a step : Nat) : List Nat :=
  (List.range n).filter fun p => a ≤ p ∧ (p - a) % step = 0

theorem mem_positions {n a step p : Nat} :
    p ∈ positions n a step ↔ p < n ∧ a ≤ p ∧ (p - a) % step = 0 := by
  simp [positions]

/-- A stride that begins before its first step runs through a residue class. -/
theorem mem_positions_of_lt {n a step p : Nat} (h : a < step) :
    p ∈ positions n a step ↔ p < n ∧ p % step = a := by
  rw [mem_positions]
  refine and_congr_right fun _ => ⟨?_, ?_⟩
  · rintro ⟨hle, hmod⟩
    obtain ⟨q, hq⟩ := Nat.dvd_of_mod_eq_zero hmod
    rw [show p = a + step * q by omega, Nat.add_mul_mod_self_left, Nat.mod_eq_of_lt h]
  · rintro rfl
    refine ⟨Nat.mod_le p step, ?_⟩
    rw [← Nat.dvd_iff_mod_eq_zero]
    exact Nat.dvd_sub_mod p

theorem pairwise_positions (n a step : Nat) : (positions n a step).Pairwise (· < ·) :=
  List.Pairwise.filter _ List.pairwise_lt_range

theorem count_natCast (a n : Nat) {step : Nat} (hstep : 0 < step) :
    count (a : Int) (n : Int) step = if a < n then (n - a - 1) / step + 1 else 0 := by
  rw [count, if_neg (by omega)]
  by_cases h : a < n
  · have hcast : ((n : Int) - a - 1) / step = ((n - a - 1) / step : Nat) := by
      rw [Int.natCast_ediv]
      congr 1
      omega
    rw [if_pos (by omega), if_pos h, hcast]
    exact Int.toNat_natCast ((n - a - 1) / step + 1)
  · rw [if_neg (by omega), if_neg h]

/-- The indices that a stride runs through. -/
theorem map_range_count {n a step : Nat} (hstep : 0 < step) :
    (List.range (count (a : Int) (n : Int) step)).map (fun i => a + step * i) =
      positions n a step := by
  have hsorted : ((List.range (count (a : Int) (n : Int) step)).map
      fun i => a + step * i).Pairwise (· < ·) := by
    refine List.pairwise_map.mpr (List.pairwise_lt_range.imp fun {i j} hij => ?_)
    exact Nat.add_lt_add_left (Nat.mul_lt_mul_of_pos_left hij hstep) a
  refine hsorted.eq_of_mem_iff (pairwise_positions n a step) fun p => ?_
  rw [List.mem_map, mem_positions, count_natCast a n hstep]
  constructor
  · rintro ⟨i, hi, rfl⟩
    rw [List.mem_range] at hi
    split at hi
    · rename_i h
      have hle : step * i ≤ n - a - 1 := by
        calc step * i ≤ step * ((n - a - 1) / step) := Nat.mul_le_mul_left _ (by omega)
          _ ≤ n - a - 1 := Nat.mul_div_le _ _
      refine ⟨by omega, Nat.le_add_right _ _, ?_⟩
      rw [Nat.add_sub_cancel_left, Nat.mul_mod_right]
    · exact absurd hi (Nat.not_lt_zero i)
  · rintro ⟨hp, ha, hmod⟩
    have hmul := Nat.mul_div_cancel' (Nat.dvd_of_mod_eq_zero hmod)
    refine ⟨(p - a) / step, ?_, by omega⟩
    rw [List.mem_range, if_pos (by omega)]
    exact Nat.lt_succ_of_le (Nat.div_le_div_right (by omega))

theorem length_positions {n a step : Nat} (hstep : 0 < step) (ha : a < n) :
    (positions n a step).length = (n - a - 1) / step + 1 := by
  rw [← map_range_count hstep, List.length_map, List.length_range, count_natCast a n hstep,
    if_pos ha]

/-- The strides that begin before the first step have every position once. -/
theorem flatMap_positions_perm {n step : Nat} (hstep : 0 < step) :
    ((List.range step).flatMap (positions n · step)).Perm (List.range n) := by
  have hnodup : ((List.range step).flatMap (positions n · step)).Nodup := by
    refine List.nodup_flatMap.mpr ⟨fun a _ => (pairwise_positions n a step).imp ne_of_lt, ?_⟩
    refine List.nodup_range.imp_of_mem fun {a b} ha hb hne p hpa hpb => ?_
    have hmod := (mem_positions_of_lt (List.mem_range.mp ha)).mp hpa
    have hmod' := (mem_positions_of_lt (List.mem_range.mp hb)).mp hpb
    exact hne (hmod.2.symm.trans hmod'.2)
  refine (List.perm_ext_iff_of_nodup hnodup List.nodup_range).mpr fun p => ?_
  rw [List.mem_flatMap, List.mem_range]
  constructor
  · rintro ⟨a, -, hp⟩
    exact (mem_positions.mp hp).1
  · intro hp
    have hlt := Nat.mod_lt p hstep
    exact ⟨p % step, List.mem_range.mpr hlt, (mem_positions_of_lt hlt).mpr ⟨hp, rfl⟩⟩

/-- `xs[a::step]` -/
theorem slice_stride (xs : List α) {a step : Nat} (hstep : 0 < step) :
    slice xs (some a) none step = (positions xs.length a step).filterMap (xs[·]?) := by
  have hlimit : limit xs.length step none = xs.length := by
    rw [limit, if_neg (by omega)]
  by_cases ha : a < xs.length
  · have hfirst : first xs.length step (some (a : Int)) = a := by
      simp only [first, clip]
      split_ifs <;> omega
    have hindex : ∀ i : Nat, ((a : Int) + step * i).toNat = a + step * i := fun i => by
      rw [← Int.natCast_mul, ← Int.natCast_add, Int.toNat_natCast]
    simp only [slice, hfirst, hlimit, hindex]
    rw [← map_range_count hstep, List.filterMap_map]
    rfl
  · have hfirst : first xs.length step (some (a : Int)) = xs.length := by
      simp only [first, clip]
      split_ifs <;> omega
    have hempty : positions xs.length a step = [] := by
      refine List.eq_nil_iff_forall_not_mem.mpr fun p hp => ?_
      obtain ⟨hlt, hle, -⟩ := mem_positions.mp hp
      omega
    simp only [slice, hfirst, hlimit, hempty, count, lt_irrefl, if_false, ite_self]
    rfl

end TpQemu.Slice

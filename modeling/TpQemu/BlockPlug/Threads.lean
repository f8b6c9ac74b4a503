import TpQemu.BlockPlug.System
import TpQemu.Lib.Slice

/-!
# The work of the plug threads

`_initial_threads` in `provider/block_devices_plug.py` hands `imgs[i::max_threads]` to its `i`-th
thread. The slices are compared by the positions of the images, as an image may be listed twice.
-/

namespace TpQemu.BlockPlug

open Slice

/-- `max_threads` -/
def Call.maxThreads (c : Call) : Nat := min c.requested.length (2 * c.cpuCount)

/-- The positions of the images of a thread: the same slice of the list of all positions. -/
def Call.share (c : Call) (i : Nat) : List Nat :=
  slice (List.range c.requested.length) (some i) none c.maxThreads

theorem everyNth_eq_positions (imgs : List String) {i step : Nat} (hi : i < step) :
    everyNth imgs i step = (positions imgs.length i step).filterMap (imgs[·]?) := by
  have hpositions : positions imgs.length i step =
      (List.range imgs.length).filter fun p => p % step = i :=
    (pairwise_positions _ _ _).eq_of_mem_iff (List.pairwise_lt_range.filter _) fun p => by
      rw [mem_positions_of_lt hi, List.mem_filter, List.mem_range, decide_eq_true_eq]
  rw [hpositions, everyNth]
  clear hpositions
  induction imgs using List.reverseRecOn with
  | nil => rfl
  | append_singleton imgs img ih =>
      have hold : ((List.range imgs.length).filter fun p => p % step = i).filterMap
          ((imgs ++ [img])[·]?) =
            ((List.range imgs.length).filter fun p => p % step = i).filterMap (imgs[·]?) := by
        refine List.filterMap_congr fun p hp => ?_
        exact List.getElem?_append_left (List.mem_range.mp (List.mem_filter.mp hp).1)
      rw [List.zipIdx_append, List.filter_append, List.map_append, ih, List.length_append,
        List.length_singleton, List.range_succ, List.filter_append, List.filterMap_append, hold]
      congr 1
      by_cases h : imgs.length % step = i
      · simp [h]
      · simp [h]

/-- The threads get the slices of the source. -/
theorem everyNth_eq_slice (imgs : List String) {i step : Nat} (hi : i < step) :
    everyNth imgs i step = slice imgs (some i) none step := by
  rw [everyNth_eq_positions imgs hi, slice_stride imgs (Nat.zero_lt_of_lt hi)]

section Call

variable (c : Call)

theorem Call.maxThreads_pos (hcpu : 1 ≤ c.cpuCount) (hne : c.requested ≠ []) :
    0 < c.maxThreads := by
  have hlength := List.length_pos_iff.mpr hne
  rw [Call.maxThreads]
  omega

theorem Call.share_eq {i : Nat} (hi : i < c.maxThreads) :
    c.share i = positions c.requested.length i c.maxThreads := by
  have hrange : ∀ p ∈ positions c.requested.length i c.maxThreads,
      (List.range c.requested.length)[p]? = some p := by
    intro p hp
    exact List.getElem?_range (mem_positions.mp hp).1
  rw [Call.share, slice_stride _ (Nat.zero_lt_of_lt hi), List.length_range,
    List.filterMap_congr hrange, List.filterMap_some]

theorem Call.length_share {i : Nat} (hi : i < c.maxThreads) :
    (c.share i).length = (c.requested.length - i - 1) / c.maxThreads + 1 := by
  have hle : c.maxThreads ≤ c.requested.length := Nat.min_le_left _ _
  rw [c.share_eq hi, length_positions (Nat.zero_lt_of_lt hi) (by omega)]

/-- The images of a thread are those at its positions. -/
theorem Call.slice_eq_share {i : Nat} (hi : i < c.maxThreads) :
    slice c.requested (some i) none c.maxThreads = (c.share i).filterMap (c.requested[·]?) := by
  rw [c.share_eq hi, slice_stride c.requested (Nat.zero_lt_of_lt hi)]

theorem Call.images_threads : c.threads.map Worker.images =
    (List.range c.maxThreads).map fun i : Nat => slice c.requested (some i) none c.maxThreads := by
  rw [Call.threads, List.map_map]
  refine List.map_congr_left fun i hi => ?_
  exact everyNth_eq_slice c.requested (List.mem_range.mp hi)

theorem Call.length_slice {i : Nat} (hi : i < c.maxThreads) :
    (slice c.requested (some i) none c.maxThreads).length = (c.share i).length := by
  rw [c.slice_eq_share hi, List.length_filterMap_eq_countP, List.countP_eq_length]
  intro p hp
  rw [c.share_eq hi, mem_positions] at hp
  rw [List.getElem?_eq_getElem hp.1]
  rfl

theorem Call.length_of_mem_threads {w : Worker} (hw : w ∈ c.threads) :
    ∃ i < c.maxThreads, w.images.length = (c.requested.length - i - 1) / c.maxThreads + 1 := by
  have himages := List.mem_map_of_mem (f := Worker.images) hw
  rw [c.images_threads] at himages
  obtain ⟨i, hi, heq⟩ := List.mem_map.mp himages
  have hi := List.mem_range.mp hi
  refine ⟨i, hi, ?_⟩
  rw [← heq, c.length_slice hi, c.length_share hi]

/-- The threads have the slices of the images. No slice is empty, their sizes differ by one at
most, and together they have every position once. -/
theorem Call.threads_share (hcpu : 1 ≤ c.cpuCount) :
    c.threads.map Worker.images =
      (List.range c.maxThreads).map
        (fun i : Nat => slice c.requested (some i) none c.maxThreads) ∧
    (∀ i : Nat, i < c.maxThreads →
      slice c.requested (some i) none c.maxThreads = (c.share i).filterMap (c.requested[·]?)) ∧
    (∀ w ∈ c.threads, w.images ≠ []) ∧
    (∀ w ∈ c.threads, ∀ w' ∈ c.threads, w.images.length ≤ w'.images.length + 1) ∧
    ((List.range c.maxThreads).flatMap c.share).Perm (List.range c.requested.length) ∧
    (c.requested = [] → c.threads = []) := by
  refine ⟨c.images_threads, fun i hi => c.slice_eq_share hi, ?_, ?_, ?_, ?_⟩
  · intro w hw hnil
    obtain ⟨i, -, hlength⟩ := c.length_of_mem_threads hw
    rw [hnil] at hlength
    exact absurd hlength (Nat.succ_ne_zero _).symm
  · intro w hw w' hw'
    obtain ⟨i, hi, hlength⟩ := c.length_of_mem_threads hw
    obtain ⟨j, hj, hlength'⟩ := c.length_of_mem_threads hw'
    have hpos := Nat.zero_lt_of_lt hi
    have hdiv := Nat.div_le_div_right (c := c.maxThreads)
      (show c.requested.length - i - 1 ≤ c.requested.length - j - 1 + c.maxThreads by omega)
    rw [Nat.add_div_right _ hpos] at hdiv
    omega
  · by_cases hne : c.requested = []
    · rw [Call.maxThreads, hne]
      exact List.Perm.refl _
    · have hpos := c.maxThreads_pos hcpu hne
      have hshare : (List.range c.maxThreads).flatMap c.share =
          (List.range c.maxThreads).flatMap (positions c.requested.length · c.maxThreads) :=
        List.flatMap_congr fun i hi => c.share_eq (List.mem_range.mp hi)
      rw [hshare]
      exact flatMap_positions_perm hpos
  · intro hnil
    rw [Call.threads, hnil]
    rfl

end Call

/-- Five images for one CPU. -/
def fiveImages : Call :=
  ⟨.threaded, .hotplug, newPlug [], some ["stg0", "stg1", "stg2", "stg3", "stg4"], [], 1⟩

/-- The first thread has three of the images, the second one two. -/
theorem threads_fiveImages :
    fiveImages.threads.map Worker.images = [["stg0", "stg2", "stg4"], ["stg1", "stg3"]] ∧
      ((List.range fiveImages.maxThreads).flatMap fiveImages.share).Perm
        (List.range fiveImages.requested.length) := by
  have hsplit := fiveImages.threads_share (by decide)
  exact ⟨by decide, hsplit.2.2.2.2.1⟩

end TpQemu.BlockPlug

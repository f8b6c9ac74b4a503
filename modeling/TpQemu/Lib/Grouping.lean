import TpQemu.Lib.Dict
import Mathlib.Data.List.Pairwise
import Mathlib.Data.List.Sort

/-!
# Lists grouped by a key

The idiom `tmp[k] += l` or `tmp[k] = l`: what is collected under a key is all that came with it,
in order. Sorting the items of the dictionary sorts the keys.
-/

namespace TpQemu.Dict

variable {κ α : Type} [DecidableEq κ]

/-- The list behind a key is extended, or begun. -/
def extend (d : Dict κ (List α)) (k : κ) (l : List α) : Dict κ (List α) :=
  match d.get? k with
  | some old => d.set k (old ++ l)
  | none => d.set k l

/-- All that comes with a key. -/
def collected (es : List (κ × List α)) (k : κ) : List α :=
  (es.filter (·.1 = k)).flatMap Prod.snd

theorem collected_cons_self (k : κ) (l : List α) (es : List (κ × List α)) :
    collected ((k, l) :: es) k = l ++ collected es k := by
  simp [collected]

theorem collected_cons_ne {k k' : κ} (h : k ≠ k') (l : List α) (es : List (κ × List α)) :
    collected ((k, l) :: es) k' = collected es k' := by
  simp [collected, h]

theorem mem_collected {es : List (κ × List α)} {k : κ} {a : α} :
    a ∈ collected es k ↔ ∃ l, (k, l) ∈ es ∧ a ∈ l := by
  simp only [collected, List.mem_flatMap, List.mem_filter, decide_eq_true_eq]
  constructor
  · rintro ⟨⟨k', l⟩, ⟨hmem, rfl⟩, ha⟩
    exact ⟨l, hmem, ha⟩
  · rintro ⟨l, hmem, ha⟩
    exact ⟨(k, l), ⟨hmem, rfl⟩, ha⟩

/-- Nothing of a list gets lost if every key is asked for once. -/
theorem flatMap_collected_perm {es : List (κ × List α)} {ks : List κ} (hks : ks.Nodup)
    (hmem : ∀ e ∈ es, e.1 ∈ ks) : (ks.flatMap (collected es)).Perm (es.flatMap Prod.snd) := by
  induction es with
  | nil =>
      simp [collected]
  | cons e es ih =>
      obtain ⟨k, l⟩ := e
      obtain ⟨hk, hes⟩ := List.forall_mem_cons.mp hmem
      obtain ⟨as, bs, rfl⟩ := List.append_of_mem hk
      have hne : ∀ k' ∈ as ++ bs, k ≠ k' := by
        rintro k' hk' rfl
        rw [List.nodup_middle, List.nodup_cons] at hks
        exact hks.1 hk'
      have hother : ∀ ks' ⊆ as ++ bs,
          ks'.flatMap (collected ((k, l) :: es)) = ks'.flatMap (collected es) := by
        intro ks' hks'
        exact List.flatMap_congr fun k' hk' => collected_cons_ne (hne k' (hks' hk')) l es
      have ih := ih hes
      rw [List.flatMap_append, List.flatMap_cons] at ih ⊢
      rw [hother as (List.subset_append_left _ _), hother bs (List.subset_append_right _ _),
        collected_cons_self, List.flatMap_cons, List.append_assoc]
      exact (List.perm_append_comm_assoc _ _ _).trans (ih.append_left l)

theorem get?_extend_self (d : Dict κ (List α)) (k : κ) (l : List α) :
    (d.extend k l).get? k = some ((d.get? k).getD [] ++ l) := by
  rw [extend]
  cases d.get? k with
  | none => rw [get?_set_self, Option.getD_none, List.nil_append]
  | some old => rw [get?_set_self, Option.getD_some]

theorem get?_extend_ne (d : Dict κ (List α)) {k k' : κ} (h : k' ≠ k) (l : List α) :
    (d.extend k l).get? k' = d.get? k' := by
  rw [extend]
  cases d.get? k with
  | none => exact get?_set_ne d h l
  | some old => exact get?_set_ne d h (old ++ l)

/-- What a loop has collected. -/
def grouped (es : List (κ × List α)) : Dict κ (List α) := es.foldl (fun d e => d.extend e.1 e.2) ∅

theorem get?_foldl_extend (es : List (κ × List α)) (d : Dict κ (List α)) (k : κ) :
    (es.foldl (fun d e => d.extend e.1 e.2) d).get? k =
      if k ∈ es.map Prod.fst then some ((d.get? k).getD [] ++ collected es k) else d.get? k := by
  induction es generalizing d with
  | nil => simp
  | cons e es ih =>
      obtain ⟨k', l⟩ := e
      rw [List.foldl_cons, ih]
      by_cases hk : k = k'
      · subst hk
        rw [get?_extend_self, collected_cons_self, List.map_cons, if_pos List.mem_cons_self,
          Option.getD_some, List.append_assoc]
        split
        · rfl
        · rename_i hnot
          have hnil : collected es k = [] := by
            refine List.eq_nil_iff_forall_not_mem.mpr fun a ha => hnot ?_
            obtain ⟨l', hl', -⟩ := mem_collected.mp ha
            exact List.mem_map_of_mem hl'
          rw [hnil, List.append_nil]
      · rw [get?_extend_ne d hk, collected_cons_ne (Ne.symm hk), List.map_cons]
        simp only [List.mem_cons, hk, false_or]

theorem mem_keys_grouped {es : List (κ × List α)} {k : κ} :
    k ∈ (grouped es).keys ↔ k ∈ es.map Prod.fst := by
  rw [mem_keys_iff, grouped, get?_foldl_extend, get?_empty]
  split
  · rename_i h
    exact iff_of_true ⟨_, rfl⟩ h
  · rename_i h
    exact iff_of_false (fun ⟨v, hv⟩ => nomatch hv) h

theorem collected_of_mem_entries {es : List (κ × List α)} {k : κ} {l : List α}
    (h : (k, l) ∈ (grouped es).entries) : l = collected es k := by
  have hget := get?_eq_some_iff.mpr h
  have hkey := mem_keys_grouped.mp (mem_keys_of_mem h)
  rw [grouped, get?_foldl_extend, if_pos hkey, get?_empty, Option.getD_none,
    List.nil_append] at hget
  exact (Option.some.inj hget).symm

/-- `sorted(d.items(), key=lambda item: item[0])` -/
def sortedItems {ν : Type} (le : κ → κ → Prop) [DecidableRel le] (d : Dict κ ν) : List (κ × ν) :=
  d.entries.insertionSort fun a b => le a.1 b.1

/-- The groups in the order of their keys. -/
theorem map_sortedItems_grouped {β : Type} (le : κ → κ → Prop) [DecidableRel le]
    (f : List α → β) (es : List (κ × List α)) :
    ((grouped es).sortedItems le).map (fun e => f e.2) =
      ((grouped es).keys.insertionSort le).map fun k => f (collected es k) := by
  rw [keys, sortedItems, ← List.map_insertionSort (fun a b => le a.1 b.1) le Prod.fst _
    fun _ _ _ _ => Iff.rfl, List.map_map]
  refine List.map_congr_left fun e he => ?_
  rw [Function.comp_apply, collected_of_mem_entries ((List.mem_insertionSort _).mp he)]

/-- Two lists of the same elements, each element once, are sorted to the same list. -/
theorem insertionSort_eq_of_nodup {α : Type} [LinearOrder α] {l l' : List α} (h : l.Nodup)
    (h' : l'.Nodup) (hmem : ∀ a, a ∈ l ↔ a ∈ l') :
    l.insertionSort (· ≤ ·) = l'.insertionSort (· ≤ ·) := by
  have hperm : l.Perm l' := (List.perm_ext_iff_of_nodup h h').mpr hmem
  apply List.Perm.eq_of_pairwise' (List.pairwise_insertionSort _ _)
    (List.pairwise_insertionSort _ _)
  exact (List.perm_insertionSort _ _).trans (hperm.trans (List.perm_insertionSort _ _).symm)

/-- Sorting by a key keeps the order of the elements themselves exactly if the key is monotone. -/
theorem insertionSort_eq_iff {α κ : Type} [LinearOrder α] [LinearOrder κ] {f : α → κ}
    (hf : Function.Injective f) (l : List α) :
    l.insertionSort (fun a b => f a ≤ f b) = l.insertionSort (· ≤ ·) ↔
      ∀ a ∈ l, ∀ b ∈ l, a < b → f a < f b := by
  constructor
  · intro heq
    have htotal : Std.Total fun a b : α => f a ≤ f b := ⟨fun a b => le_total (f a) (f b)⟩
    have htrans : IsTrans α fun a b => f a ≤ f b := ⟨fun _ _ _ => le_trans⟩
    have hkeys := List.pairwise_insertionSort (fun a b : α => f a ≤ f b) l
    rw [heq] at hkeys
    -- elements are in the same order by either relation
    have hboth := ((List.pairwise_insertionSort (· ≤ ·) l).and hkeys).imp
      (S := fun a b => (a ≤ b ∧ f a ≤ f b) ∨ (b ≤ a ∧ f b ≤ f a)) .inl
    have hsymm : Std.Symm fun a b : α => (a ≤ b ∧ f a ≤ f b) ∨ (b ≤ a ∧ f b ≤ f a) :=
      ⟨fun _ _ => Or.symm⟩
    intro a ha b hb hab
    have hmem : ∀ c, c ∈ l → c ∈ l.insertionSort (· ≤ ·) := fun c => (List.mem_insertionSort _).mpr
    rcases hboth.forall (hmem a ha) (hmem b hb) hab.ne with h | h
    · exact lt_of_le_of_ne h.2 (hf.ne hab.ne)
    · exact absurd h.1 (not_le.mpr hab)
  · intro h
    have hiff : ∀ a ∈ l, ∀ b ∈ l, f a ≤ f b ↔ a ≤ b := by
      intro a ha b hb
      rcases lt_trichotomy a b with hab | rfl | hab
      · exact iff_of_true (h a ha b hb hab).le hab.le
      · exact iff_of_true le_rfl le_rfl
      · exact iff_of_false (not_le.mpr (h b hb a ha hab)) (not_le.mpr hab)
    have hsort := List.map_insertionSort (fun a b => f a ≤ f b) (· ≤ ·) id l hiff
    rwa [List.map_id, List.map_id] at hsort

end TpQemu.Dict

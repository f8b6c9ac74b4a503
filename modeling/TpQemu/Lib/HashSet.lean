import Mathlib.Data.Finset.Dedup
import Mathlib.Data.List.Find
import Mathlib.Data.List.Nodup

/-!
# Hash sets of mutable objects

A set files an element under the hash it had when it was added, and a look-up for a hash
compares only with the elements filed under it. Nothing is filed again when the hash or
the equality of an element changes, so both are arguments of the operations. The entries
stand in the order in which a look-up meets them.
-/

namespace TpQemu

universe u

/-- The order in which a loop goes through a set. -/
structure SetOrder (α : Type u) where
  list : Finset α → List α
  nodup : ∀ s, (list s).Nodup
  mem_iff : ∀ s x, x ∈ list s ↔ x ∈ s

/-- An element and the hash it is filed under. -/
structure Entry (α : Type u) where
  hash : Int
  elem : α

namespace HashSet

variable {α : Type u}

/-- The look-up stops at this entry: the hash is the same and the element is equal. -/
def hit (h : Int) (same : α → Bool) (e : Entry α) : Bool := e.hash = h && same e.elem

def add (h : Int) (same : α → Bool) (x : α) (es : List (Entry α)) : List (Entry α) :=
  if es.any (hit h same) then es else es ++ [⟨h, x⟩]

def discard (h : Int) (same : α → Bool) (es : List (Entry α)) : List (Entry α) :=
  es.eraseP (hit h same)

/-- The elements a look-up compares with. -/
def compared (h : Int) (same : α → Bool) : List (Entry α) → List α
  | [] => []
  | e :: es =>
      if e.hash = h then e.elem :: (if same e.elem then [] else compared h same es)
      else compared h same es

theorem mem_add {h : Int} {same : α → Bool} {x : α} {es : List (Entry α)} {e : Entry α}
    (he : e ∈ add h same x es) : e ∈ es ∨ e = ⟨h, x⟩ := by
  rw [add] at he
  split at he
  · exact .inl he
  · rcases List.mem_append.mp he with he | he
    · exact .inl he
    · exact .inr (List.mem_singleton.mp he)

theorem nodup_add {h : Int} {same : α → Bool} {x : α} {es : List (Entry α)}
    (hes : (es.map Entry.elem).Nodup) (hx : ∀ e ∈ es, e.elem ≠ x) :
    ((add h same x es).map Entry.elem).Nodup := by
  rw [add]
  split
  · exact hes
  · rw [List.map_append]
    refine hes.append (List.nodup_singleton _) ?_
    intro y hy hmem
    obtain ⟨e, he, rfl⟩ := List.mem_map.mp hy
    exact hx e he (List.mem_singleton.mp hmem)

theorem mem_of_mem_discard {h : Int} {same : α → Bool} {es : List (Entry α)} {e : Entry α}
    (he : e ∈ discard h same es) : e ∈ es := List.mem_of_mem_eraseP he

theorem nodup_discard {h : Int} {same : α → Bool} {es : List (Entry α)}
    (hes : (es.map Entry.elem).Nodup) : ((discard h same es).map Entry.elem).Nodup :=
  hes.sublist (List.eraseP_sublist.map _)

/-- An element is gone after a look-up that stops at its own entry, and only then. -/
theorem notMem_discard_iff {h : Int} {same : α → Bool} {es : List (Entry α)} {e : Entry α}
    (hes : (es.map Entry.elem).Nodup) (he : e ∈ es) :
    e ∉ discard h same es ↔ es.find? (hit h same) = some e := by
  induction es with
  | nil => cases he
  | cons d es ih =>
      rw [List.map_cons, List.nodup_cons] at hes
      rw [discard, List.eraseP_cons, List.find?_cons]
      cases hhit : hit h same d with
      | true =>
          simp only [cond_true, Option.some.injEq]
          rcases List.mem_cons.mp he with rfl | he
          · refine ⟨fun _ => rfl, fun _ hmem => hes.1 (List.mem_map.mpr ⟨e, hmem, rfl⟩)⟩
          · refine ⟨fun hnot => absurd he hnot, ?_⟩
            rintro rfl
            exact absurd (List.mem_map.mpr ⟨d, he, rfl⟩) hes.1
      | false =>
          simp only [cond_false, List.mem_cons, not_or]
          rcases List.mem_cons.mp he with rfl | hmem
          · refine ⟨fun hnot => absurd rfl hnot.1, fun hfind => ?_⟩
            rw [List.find?_some hfind] at hhit
            cases hhit
          · rw [← ih hes.2 hmem]
            refine ⟨fun hnot => hnot.2, fun hnot => ⟨?_, hnot⟩⟩
            rintro rfl
            exact hes.1 (List.mem_map.mpr ⟨e, hmem, rfl⟩)

/-- A look-up in a set whose elements are all filed under one hash. -/
theorem find?_hit_iff {es : List (Entry α)} {hash h : Int} {same : α → Bool} {e : Entry α}
    (hes : ∀ d ∈ es, d.hash = hash) (hnodup : (es.map Entry.elem).Nodup) (he : e ∈ es) :
    es.find? (hit h same) = some e ↔
      h = hash ∧ (es.map Entry.elem).find? same = some e.elem := by
  by_cases hh : h = hash
  · have hhit : es.find? (hit h same) = es.find? (same ∘ Entry.elem) := by
      apply List.find?_congr
      intro d hd
      simp [hit, hes d hd, hh]
    rw [hhit, List.find?_map]
    refine ⟨fun hfind => ⟨hh, by rw [hfind]; rfl⟩, fun ⟨_, hfind⟩ => ?_⟩
    obtain ⟨d, hd, helem⟩ := Option.map_eq_some_iff.mp hfind
    rw [hd, List.inj_on_of_nodup_map hnodup (List.mem_of_find?_eq_some hd) he helem]
  · refine ⟨fun hfind => ?_, fun h => absurd h.1 hh⟩
    have hhit := List.find?_some hfind
    simp [hit, hes e he, Ne.symm hh] at hhit

end HashSet

end TpQemu

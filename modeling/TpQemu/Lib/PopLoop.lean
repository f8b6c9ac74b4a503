import Mathlib.Data.List.Range
import TpQemu.Lib.Python

/-!
# Loops that may raise

`foldlM_raises_iff` is for loops whose rounds raise or not whatever the state is.
`PopLoop` is for `for i in range(len(xs))` over a list that the body pops elements
from: the range is fixed before the first round, so a list that has become too short
makes a later round raise.
-/

namespace TpQemu

/-- The computation ends with an exception. -/
def Raises {α : Type} (x : Except PyError α) : Prop := ∃ e, x = .error e

theorem raises_error {α : Type} (e : PyError) : Raises (.error e : Except PyError α) := ⟨e, rfl⟩

theorem not_raises_ok {α : Type} (a : α) : ¬Raises (.ok a : Except PyError α) := by
  rintro ⟨e, h⟩
  cases h

theorem raises_bind {α β : Type} {x : Except PyError α} (h : Raises x)
    (f : α → Except PyError β) : Raises (x >>= f) := by
  obtain ⟨e, rfl⟩ := h
  exact raises_error e

theorem raises_map_iff {α β : Type} (f : α → β) (x : Except PyError α) :
    Raises (f <$> x) ↔ Raises x := by
  cases x with
  | error e => exact iff_of_true (raises_error e) (raises_error e)
  | ok a => exact iff_of_false (not_raises_ok _) (not_raises_ok a)

theorem foldlM_raises_iff {σ α : Type} {f : σ → α → Except PyError σ} {bad : α → Prop}
    {l : List α} (h : ∀ a ∈ l, ∀ s, Raises (f s a) ↔ bad a) (s : σ) :
    Raises (l.foldlM f s) ↔ ∃ a ∈ l, bad a := by
  induction l generalizing s with
  | nil => exact iff_of_false (not_raises_ok s) (by simp)
  | cons a l ih =>
      have hrest := ih fun b hb => h b (List.mem_cons_of_mem a hb)
      rw [List.foldlM_cons]
      simp only [List.mem_cons, exists_eq_or_imp]
      by_cases hbad : bad a
      · exact iff_of_true (raises_bind ((h a List.mem_cons_self s).mpr hbad) _) (.inl hbad)
      · have hok : ¬Raises (f s a) := fun hr => hbad ((h a List.mem_cons_self s).mp hr)
        cases hstep : f s a with
        | error e =>
            rw [hstep] at hok
            exact absurd (raises_error e) hok
        | ok s' =>
            rw [or_iff_right hbad]
            exact hrest s'

/-- A loop body over the positions of a list kept in the state. A clean element updates
the state and leaves the list alone; a round for another element raises or pops the
element behind it. -/
structure PopLoop {σ α : Type} (f : σ → Nat → Except PyError σ) (items : σ → List α)
    (clean : α → Prop) (upd : σ → α → σ) : Prop where
  behind : ∀ s i, (items s).length ≤ i → Raises (f s i)
  shrinks : ∀ s i s', f s i = .ok s' → (items s').length ≤ (items s).length
  items_upd : ∀ s a, items (upd s a) = items s
  clean_step : ∀ s i a, (items s)[i]? = some a → clean a → f s i = .ok (upd s a)
  pops : ∀ s i a s', (items s)[i]? = some a → ¬clean a → f s i = .ok s' →
    (items s').length < (items s).length ∧ i + 1 < (items s).length

namespace PopLoop

variable {σ α : Type} {f : σ → Nat → Except PyError σ} {items : σ → List α}
  {clean : α → Prop} {upd : σ → α → σ}

/-- A list shorter than the range makes a later round raise. -/
theorem raises_of_short (h : PopLoop f items clean upd) {i m : Nat} {s : σ} (hm : 0 < m)
    (hlen : (items s).length < i + m) : Raises ((List.range' i m).foldlM f s) := by
  induction m generalizing i s with
  | zero => exact absurd hm (Nat.lt_irrefl 0)
  | succ m ih =>
      rw [List.range'_succ, List.foldlM_cons]
      cases hstep : f s i with
      | error e => exact raises_error e
      | ok s' =>
          have hle := h.shrinks s i s' hstep
          have hpos : 0 < m := by
            by_contra hzero
            have hraise := h.behind s i (by omega)
            rw [hstep] at hraise
            exact not_raises_ok s' hraise
          exact ih hpos (by omega)

/-- The rounds from position `i` on, as long as nothing has been popped. -/
theorem run_from (h : PopLoop f items clean upd) (rest : List α) (i : Nat) (s : σ)
    (hrest : (items s).drop i = rest) (hlen : i + rest.length = (items s).length) :
    ((∀ a ∈ rest, clean a) →
        (List.range' i rest.length).foldlM f s = .ok (rest.foldl upd s)) ∧
      ((∃ a ∈ rest, ¬clean a) → Raises ((List.range' i rest.length).foldlM f s)) := by
  induction rest generalizing i s with
  | nil => exact ⟨fun _ => rfl, fun hbad => by simp at hbad⟩
  | cons a rest ih =>
      have hget : (items s)[i]? = some a := by
        rw [← List.head?_drop, hrest, List.head?_cons]
      have htail : (items s).drop (i + 1) = rest := by
        rw [← List.tail_drop, hrest, List.tail_cons]
      rw [List.length_cons] at hlen
      rw [List.length_cons, List.range'_succ, List.foldlM_cons]
      by_cases hclean : clean a
      · rw [h.clean_step s i a hget hclean]
        obtain ⟨hall, hbad⟩ := ih (i + 1) (upd s a) (by rw [h.items_upd, htail])
          (by rw [h.items_upd]; omega)
        refine ⟨fun hrest => hall fun b hb => hrest b (List.mem_cons_of_mem a hb), ?_⟩
        rintro ⟨b, hb, hb'⟩
        obtain rfl | hb := List.mem_cons.mp hb
        · exact absurd hclean hb'
        · exact hbad ⟨b, hb, hb'⟩
      · refine ⟨fun hrest => absurd (hrest a List.mem_cons_self) hclean, fun _ => ?_⟩
        cases hstep : f s i with
        | error e => exact raises_error e
        | ok s' =>
            obtain ⟨hshort, hnext⟩ := h.pops s i a s' hget hclean hstep
            exact h.raises_of_short (by omega) (by omega)

/-- The loop updates the state for every element if all are clean, and raises otherwise. -/
theorem run (h : PopLoop f items clean upd) (s : σ) :
    ((∀ a ∈ items s, clean a) →
        (List.range (items s).length).foldlM f s = .ok ((items s).foldl upd s)) ∧
      ((∃ a ∈ items s, ¬clean a) → Raises ((List.range (items s).length).foldlM f s)) := by
  rw [List.range_eq_range']
  exact h.run_from (items s) 0 s rfl (Nat.zero_add _)

end PopLoop

end TpQemu

import Mathlib.Data.List.Basic
import Mathlib.Data.List.TakeWhile

/-!
# Left-to-right scanning

The pieces of a deterministic pattern: a fixed text, and a greedy run of
characters of one class. A run that is followed by a character outside of its
class is consumed exactly, which is the only fact a printed text has to provide.
-/

namespace TpQemu.Scan

/-- Consume a fixed text. -/
def literal (pat s : List Char) : Option (List Char) :=
  if pat <+: s then some (s.drop pat.length) else none

/-- Consume a non-empty run of characters of a class: the run and the rest. -/
def run1 (p : Char → Bool) (s : List Char) : Option (List Char × List Char) :=
  if s.takeWhile p = [] then none else some (s.takeWhile p, s.dropWhile p)

@[simp] theorem literal_append (pat s : List Char) : literal pat (pat ++ s) = some s := by
  simp [literal]

/-- The rest of a scan does not continue a run of the class. -/
def Stops (p : Char → Bool) (s : List Char) : Prop := ∀ c, s.head? = some c → p c = false

theorem stops_nil (p : Char → Bool) : Stops p [] := by
  intro c h
  cases h

theorem stops_cons {p : Char → Bool} {c : Char} (h : p c = false) (s : List Char) :
    Stops p (c :: s) := by
  intro x hx
  cases hx
  exact h

theorem takeWhile_append_of_stops {p : Char → Bool} {ds s : List Char} (hds : ∀ c ∈ ds, p c = true)
    (hs : Stops p s) : (ds ++ s).takeWhile p = ds ∧ (ds ++ s).dropWhile p = s := by
  rw [List.takeWhile_append_of_pos hds, List.dropWhile_append_of_pos hds]
  cases s with
  | nil => simp
  | cons c s => simp [hs c rfl]

theorem run1_append {p : Char → Bool} (ds s : List Char) (hne : ds ≠ [])
    (hds : ∀ c ∈ ds, p c = true) (hs : Stops p s) : run1 p (ds ++ s) = some (ds, s) := by
  obtain ⟨htake, hdrop⟩ := takeWhile_append_of_stops hds hs
  rw [run1, htake, hdrop, if_neg hne]

end TpQemu.Scan

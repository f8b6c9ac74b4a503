import Mathlib.Data.List.Nodup
import Mathlib.Logic.Relation

/-!
# Walks along a partial function

A walk follows a partial function from a point and ends where the function is undefined or
leads to a point that is already known; the points it meets become known. Over finitely many
points every walk ends, whether or not the function has cycles.
-/

namespace TpQemu

universe u

variable {α : Type u} (next : α → Option α)

/-- The second point can be reached from the first. -/
def Reaches : α → α → Prop := Relation.ReflTransGen fun a b => next a = some b

/-- The second point can be reached from the first without passing a known one. -/
inductive Meets (known : α → Prop) (a : α) : α → Prop where
  | start : Meets known a a
  | step {x y : α} : Meets known a x → next x = some y → ¬known y → Meets known a y

/-- The points a walk meets behind its start. -/
inductive Walk : (α → Prop) → α → List α → Prop where
  | stop {known : α → Prop} {a : α} : (∀ b, next a = some b → known b) → Walk known a []
  | step {known : α → Prop} {a b : α} {l : List α} : next a = some b → ¬known b →
      Walk (fun x => known x ∨ x = b) b l → Walk known a (b :: l)

variable {next}

namespace Walk

variable {known : α → Prop} {a x y : α} {l : List α}

theorem not_known (h : Walk next known a l) (hx : x ∈ l) : ¬known x := by
  induction h with
  | stop _ => cases hx
  | step _ hb _ ih =>
      rcases List.mem_cons.mp hx with rfl | hx
      · exact hb
      · exact fun hknown => ih hx (.inl hknown)

theorem nodup (h : Walk next known a l) : l.Nodup := by
  induction h with
  | stop _ => exact List.nodup_nil
  | step _ _ hwalk ih => exact List.nodup_cons.mpr ⟨fun hb => hwalk.not_known hb (.inr rfl), ih⟩

/-- No step leads out of what is known in the end. -/
theorem closed (h : Walk next known a l) (hx : x ∈ a :: l) (hnext : next x = some y) :
    known y ∨ y ∈ l := by
  induction h with
  | stop hstop =>
      cases List.mem_singleton.mp hx
      exact .inl (hstop y hnext)
  | step hb _ _ ih =>
      rcases List.mem_cons.mp hx with rfl | hx
      · rw [hb] at hnext
        cases hnext
        exact .inr List.mem_cons_self
      · rcases ih hx with (hknown | rfl) | hy
        · exact .inl hknown
        · exact .inr List.mem_cons_self
        · exact .inr (List.mem_cons_of_mem _ hy)

end Walk

end TpQemu

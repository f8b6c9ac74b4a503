import Mathlib.Logic.Basic

/-!
# Loops

A loop is given by its body: a round goes on with another state or leaves the loop
with a result. `loop` runs a bounded number of rounds. The loop ends when some bound
is large enough, and then every larger one gives the same result; a measure that each
round takes down makes it end, an invariant under which every round goes on keeps it
running.
-/

namespace TpQemu

variable {σ α : Type} (body : σ → σ ⊕ α)

/-- The result of the loop, if it is left within this many rounds. -/
def loop : Nat → σ → Option α
  | 0, _ => none
  | n + 1, s =>
      match body s with
      | .inl s' => loop n s'
      | .inr a => some a

/-- The loop is left with this result. -/
def LeavesWith (s : σ) (a : α) : Prop := ∃ n, loop body n s = some a

variable {body}

theorem loop_goesOn {s s' : σ} (h : body s = .inl s') (n : Nat) :
    loop body (n + 1) s = loop body n s' := by
  rw [loop, h]

theorem loop_leaves {s : σ} {a : α} (h : body s = .inr a) (n : Nat) :
    loop body (n + 1) s = some a := by
  rw [loop, h]

/-- More rounds do not change the result. -/
theorem loop_eq_of_le {n m : Nat} {s : σ} {a : α} (h : loop body n s = some a) (hle : n ≤ m) :
    loop body m s = some a := by
  induction n generalizing m s with
  | zero => cases h
  | succ n ih =>
      obtain ⟨m, rfl⟩ : ∃ k, m = k + 1 := ⟨m - 1, by omega⟩
      cases hbody : body s with
      | inl s' =>
          rw [loop_goesOn hbody] at h
          rw [loop_goesOn hbody]
          exact ih h (Nat.le_of_succ_le_succ hle)
      | inr b =>
          rw [loop_leaves hbody] at h
          rw [loop_leaves hbody]
          exact h

theorem leavesWith_of_inr {s : σ} {a : α} (h : body s = .inr a) : LeavesWith body s a :=
  ⟨1, loop_leaves h 0⟩

theorem leavesWith_of_inl {s s' : σ} {a : α} (h : body s = .inl s')
    (hrest : LeavesWith body s' a) : LeavesWith body s a := by
  obtain ⟨n, hn⟩ := hrest
  exact ⟨n + 1, (loop_goesOn h n).trans hn⟩

/-- The rule for loops that end. -/
theorem leavesWith_of_measure {inv : σ → Prop} {post : α → Prop} (measure : σ → Nat)
    (round : ∀ s, inv s → (∃ s', body s = .inl s' ∧ inv s' ∧ measure s' < measure s) ∨
      ∃ a, body s = .inr a ∧ post a) {s : σ} (hs : inv s) :
    ∃ a, LeavesWith body s a ∧ post a := by
  induction hm : measure s using Nat.strongRecOn generalizing s with
  | _ m ih =>
      obtain ⟨s', hbody, hs', hlt⟩ | ⟨a, hbody, ha⟩ := round s hs
      · obtain ⟨a, hleaves, ha⟩ := ih (measure s') (hm ▸ hlt) hs' rfl
        exact ⟨a, leavesWith_of_inl hbody hleaves, ha⟩
      · exact ⟨a, leavesWith_of_inr hbody, ha⟩

/-- The rule for the results of a loop, whether it ends or not. -/
theorem post_of_leavesWith {inv : σ → Prop} {post : α → Prop}
    (round : ∀ s, inv s → (∃ s', body s = .inl s' ∧ inv s') ∨ ∃ a, body s = .inr a ∧ post a)
    {s : σ} (hs : inv s) {a : α} (h : LeavesWith body s a) : post a := by
  obtain ⟨n, hn⟩ := h
  induction n generalizing s with
  | zero => cases hn
  | succ n ih =>
      obtain ⟨s', hbody, hs'⟩ | ⟨b, hbody, hb⟩ := round s hs
      · rw [loop_goesOn hbody] at hn
        exact ih hs' hn
      · rw [loop_leaves hbody] at hn
        cases hn
        exact hb

/-- The rule for loops that run forever. -/
theorem loop_eq_none_of_invariant {inv : σ → Prop}
    (round : ∀ s, inv s → ∃ s', body s = .inl s' ∧ inv s') {s : σ} (hs : inv s) (n : Nat) :
    loop body n s = none := by
  induction n generalizing s with
  | zero => rfl
  | succ n ih =>
      obtain ⟨s', hbody, hs'⟩ := round s hs
      rw [loop_goesOn hbody]
      exact ih hs'

end TpQemu

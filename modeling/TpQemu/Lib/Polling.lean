import Mathlib.Logic.Basic

/-!
# Polling loops

`waitFor` polls a state until a poll succeeds or the time is up; between two polls
the environment acts on the state. `stateAt` is the state the `i`-th poll finds if
all polls before it failed, so that a loop is described by the polls of `stateAt`
without reference to where it stopped.
-/

namespace TpQemu

variable {σ : Type} (act : Nat → σ → σ) (poll : σ → Bool × σ)

/-- At most `n` polls, numbered from `i`. -/
def waitFor : Nat → Nat → σ → Bool × σ
  | 0, _, s => (false, s)
  | n + 1, i, s =>
      let r := poll (act i s)
      if r.1 then r else waitFor n (i + 1) r.2

/-- The state at poll `i`, after the action before it. -/
def stateAt (s : σ) : Nat → σ
  | 0 => act 0 s
  | i + 1 => act (i + 1) (poll (stateAt s i)).2

variable {act poll}

theorem waitFor_stateAt (n i : Nat) (s t : σ) (h : act i t = stateAt act poll s i) :
    (waitFor act poll n i t).1 = true ↔
      ∃ j, i ≤ j ∧ j < i + n ∧ (poll (stateAt act poll s j)).1 = true := by
  induction n generalizing i t with
  | zero =>
      constructor
      · intro hfalse
        cases hfalse
      · rintro ⟨j, hij, hj, -⟩
        omega
  | succ n ih =>
      rw [waitFor, h]
      by_cases hpoll : (poll (stateAt act poll s i)).1 = true
      · rw [if_pos hpoll]
        exact ⟨fun _ => ⟨i, Nat.le_refl i, by omega, hpoll⟩, fun _ => hpoll⟩
      · rw [if_neg hpoll, ih (i + 1) _ rfl]
        constructor
        · rintro ⟨j, hij, hj, hsome⟩
          exact ⟨j, by omega, by omega, hsome⟩
        · rintro ⟨j, hij, hj, hsome⟩
          have hne : i ≠ j := by
            rintro rfl
            exact hpoll hsome
          exact ⟨j, by omega, by omega, hsome⟩

/-- The loop succeeds exactly when one of its polls would. -/
theorem waitFor_iff (n : Nat) (s : σ) :
    (waitFor act poll n 0 s).1 = true ↔ ∃ i < n, (poll (stateAt act poll s i)).1 = true := by
  rw [waitFor_stateAt n 0 s s rfl]
  simp

end TpQemu

import Mathlib.Logic.Basic

/-!
# Code with state and exceptions

An exception leaves the state as it was when it was raised. `Moves` says of a piece of
code what it does to the state whether it returns or raises: the states before and after
are in a relation. For a reflexive and transitive relation it is enough to look at the
single assignments.
-/

namespace TpQemu

variable {ε σ α β : Type}

/-- The state in which the code returns or raises. -/
def after : EStateM.Result ε σ α → σ
  | .ok _ s => s
  | .error _ s => s

@[simp] theorem after_ok (a : α) (s : σ) : after (.ok a s : EStateM.Result ε σ α) = s := rfl

@[simp] theorem after_error (e : ε) (s : σ) : after (.error e s : EStateM.Result ε σ α) = s := rfl

/-- The value of pure fallible code, or its exception. -/
def liftExcept (x : Except ε α) : EStateM ε σ α := fun s =>
  match x with
  | .ok a => .ok a s
  | .error e => .error e s

/-- The code takes every state to a related one. -/
def Moves (R : σ → σ → Prop) (m : EStateM ε σ α) : Prop := ∀ s, R s (after (m s))

/-- Code that returns has returned from each of its parts. -/
theorem ok_of_bind {m : EStateM ε σ α} {f : α → EStateM ε σ β} {b : β} {s s'' : σ}
    (h : (m >>= f) s = .ok b s'') : ∃ a s', m s = .ok a s' ∧ f a s' = .ok b s'' := by
  change EStateM.bind m f s = _ at h
  rw [EStateM.bind] at h
  split at h
  · rename_i a s' hm
    exact ⟨a, s', hm, h⟩
  · cases h

theorem bind_of_ok {m : EStateM ε σ α} {a : α} {s s' : σ} (h : m s = .ok a s')
    (f : α → EStateM ε σ β) : (m >>= f) s = f a s' := by
  change EStateM.bind m f s = _
  rw [EStateM.bind, h]

theorem bind_of_error {m : EStateM ε σ α} {e : ε} {s s' : σ} (h : m s = .error e s')
    (f : α → EStateM ε σ β) : (m >>= f) s = .error e s' := by
  change EStateM.bind m f s = _
  rw [EStateM.bind, h]

theorem get_bind (f : σ → EStateM ε σ α) (s : σ) : (get >>= f : EStateM ε σ α) s = f s s := rfl

theorem modify_bind (f : σ → σ) (g : PUnit → EStateM ε σ α) (s : σ) :
    (modify f >>= g : EStateM ε σ α) s = g ⟨⟩ (f s) := rfl

theorem liftExcept_eq_ok_iff {x : Except ε α} {a : α} {s s' : σ} :
    liftExcept x s = .ok a s' ↔ x = .ok a ∧ s' = s := by
  cases x with
  | error e => exact iff_of_false nofun fun h => nomatch h.1
  | ok a' =>
      constructor
      · intro h
        cases h
        exact ⟨rfl, rfl⟩
      · rintro ⟨h, rfl⟩
        cases h
        rfl

theorem liftExcept_bind_eq_ok_iff {x : Except ε α} {f : α → EStateM ε σ β} {b : β} {s s' : σ} :
    (liftExcept x >>= f) s = .ok b s' ↔ ∃ a, x = .ok a ∧ f a s = .ok b s' := by
  cases x with
  | error e => exact iff_of_false nofun fun ⟨_, h, _⟩ => nomatch h
  | ok a =>
      constructor
      · exact fun h => ⟨a, rfl, h⟩
      · rintro ⟨_, h, hf⟩
        cases h
        exact hf

/-- What is returned does not matter to the state. -/
theorem after_bind_pure (m : EStateM ε σ α) (f : α → β) (s : σ) :
    after ((m >>= fun a => pure (f a)) s) = after (m s) := by
  cases hm : m s with
  | ok a s' => rw [bind_of_ok hm]; rfl
  | error e s' => rw [bind_of_error hm]; rfl

section Rules

variable {R : σ → σ → Prop}

theorem moves_bind (trans : ∀ a b c, R a b → R b c → R a c) {m : EStateM ε σ α}
    {f : α → EStateM ε σ β} (hm : Moves R m) (hf : ∀ a, Moves R (f a)) : Moves R (m >>= f) := by
  intro s
  have hs := hm s
  cases hr : m s with
  | ok a s' =>
      rw [hr] at hs
      rw [bind_of_ok hr]
      exact trans _ _ _ hs (hf a s')
  | error e s' =>
      rw [hr] at hs
      rw [bind_of_error hr]
      exact hs

theorem moves_pure (refl : ∀ a, R a a) (a : α) : Moves R (pure a : EStateM ε σ α) :=
  fun s => refl s

theorem moves_throw (refl : ∀ a, R a a) (e : ε) : Moves R (throw e : EStateM ε σ α) :=
  fun s => refl s

theorem moves_get (refl : ∀ a, R a a) : Moves R (get : EStateM ε σ σ) := fun s => refl s

/-- Code that looks at the state it starts in. -/
theorem moves_get_bind {f : σ → EStateM ε σ α} (h : ∀ s, R s (after (f s s))) :
    Moves R (get >>= f : EStateM ε σ α) := fun s => h s

theorem moves_modify {f : σ → σ} (h : ∀ s, R s (f s)) : Moves R (modify f : EStateM ε σ PUnit) :=
  fun s => h s

theorem moves_liftExcept (refl : ∀ a, R a a) (x : Except ε α) :
    Moves R (liftExcept x : EStateM ε σ α) := by
  intro s
  cases x with
  | ok a => exact refl s
  | error e => exact refl s

theorem moves_ite {c : Prop} [Decidable c] {m n : EStateM ε σ α} (hm : Moves R m)
    (hn : Moves R n) : Moves R (if c then m else n) := by
  split
  · exact hm
  · exact hn

theorem moves_forM (refl : ∀ a, R a a) (trans : ∀ a b c, R a b → R b c → R a c) {l : List α}
    {f : α → EStateM ε σ PUnit} (hf : ∀ a, Moves R (f a)) : Moves R (l.forM f) := by
  induction l with
  | nil => exact moves_pure refl PUnit.unit
  | cons a l ih => exact moves_bind trans (hf a) fun _ => ih

end Rules

end TpQemu

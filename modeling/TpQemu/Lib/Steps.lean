import Mathlib.Logic.Basic

/-!
# Runs of a step function

A system is a step function on states and labels that is undefined where a label is
not enabled. A run is a list of labels. `AllSteps` holds of a run whose steps all
meet a condition on the state before the step and its label; an invariant that the
steps so conditioned preserve holds at the end of the run.
-/

namespace TpQemu

variable {σ ℓ : Type} (step : σ → ℓ → Option σ)

/-- The state after a run, if every label was enabled. -/
def runSteps : σ → List ℓ → Option σ
  | s, [] => some s
  | s, l :: ls => (step s l).bind fun s' => runSteps s' ls

/-- Every step of the run meets the condition. -/
def AllSteps (cond : σ → ℓ → Prop) : σ → List ℓ → Prop
  | _, [] => True
  | s, l :: ls => cond s l ∧ ∀ s', step s l = some s' → AllSteps cond s' ls

variable {step}

theorem runSteps_cons {s s' : σ} {l : ℓ} (h : step s l = some s') (ls : List ℓ) :
    runSteps step s (l :: ls) = runSteps step s' ls := by
  rw [runSteps, h, Option.bind_some]

theorem runSteps_append (s : σ) (ls ms : List ℓ) :
    runSteps step s (ls ++ ms) = (runSteps step s ls).bind fun s' => runSteps step s' ms := by
  induction ls generalizing s with
  | nil => rfl
  | cons l ls ih =>
      rw [List.cons_append, runSteps, runSteps, Option.bind_assoc]
      exact congrArg _ (funext fun s' => ih s')

/-- A condition on the labels alone. -/
theorem allSteps_of_forall {p : ℓ → Prop} {ls : List ℓ} (h : ∀ l ∈ ls, p l) (s : σ) :
    AllSteps step (fun _ l => p l) s ls := by
  induction ls generalizing s with
  | nil => trivial
  | cons l ls ih =>
      refine ⟨h l List.mem_cons_self, fun s' _ => ?_⟩
      exact ih (fun m hm => h m (List.mem_cons_of_mem l hm)) s'

/-- A condition on the labels, with an invariant of the steps that meet it. -/
theorem allSteps_of_invariant {inv : σ → Prop} {p : ℓ → Prop}
    (preserved : ∀ s l s', inv s → p l → step s l = some s' → inv s') {s : σ} {ls : List ℓ}
    (hinv : inv s) (h : ∀ l ∈ ls, p l) : AllSteps step (fun s l => inv s ∧ p l) s ls := by
  induction ls generalizing s with
  | nil => trivial
  | cons l ls ih =>
      refine ⟨⟨hinv, h l List.mem_cons_self⟩, fun s' hs' => ?_⟩
      exact ih (preserved s l s' hinv (h l List.mem_cons_self) hs') fun m hm =>
        h m (List.mem_cons_of_mem l hm)

/-- The run rule under a condition on the steps. -/
theorem runSteps_invariant_of {inv : σ → Prop} {cond : σ → ℓ → Prop}
    (preserved : ∀ s l s', inv s → cond s l → step s l = some s' → inv s') {s s' : σ}
    {ls : List ℓ} (hinv : inv s) (hcond : AllSteps step cond s ls)
    (hrun : runSteps step s ls = some s') : inv s' := by
  induction ls generalizing s with
  | nil =>
      cases hrun
      exact hinv
  | cons l ls ih =>
      obtain ⟨t, ht, hrest⟩ := Option.bind_eq_some_iff.mp hrun
      exact ih (preserved s l t hinv hcond.1 ht) (hcond.2 t ht) hrest

/-- The run rule. -/
theorem runSteps_invariant {inv : σ → Prop}
    (preserved : ∀ s l s', inv s → step s l = some s' → inv s') {s s' : σ} {ls : List ℓ}
    (hinv : inv s) (hrun : runSteps step s ls = some s') : inv s' :=
  runSteps_invariant_of (fun s l s' hs _ => preserved s l s' hs) hinv
    (allSteps_of_forall (p := fun _ => True) (fun _ _ => trivial) s) hrun

/-- A label that uses up a measure, which no other label refills, can occur only as often as
the measure allows. -/
theorem runSteps_count_le [BEq ℓ] [LawfulBEq ℓ] {measure : σ → Nat} {l₀ : ℓ}
    (hlt : ∀ s s', step s l₀ = some s' → measure s' < measure s)
    (hle : ∀ s l s', l ≠ l₀ → step s l = some s' → measure s' ≤ measure s) {s s' : σ}
    {ls : List ℓ} (hrun : runSteps step s ls = some s') :
    ls.count l₀ + measure s' ≤ measure s := by
  induction ls generalizing s with
  | nil =>
      cases hrun
      simp
  | cons l ls ih =>
      obtain ⟨t, ht, hrest⟩ := Option.bind_eq_some_iff.mp hrun
      have htail := ih hrest
      by_cases hl : l = l₀
      · subst hl
        have hless := hlt s t ht
        rw [List.count_cons_self]
        omega
      · have hmost := hle s l t hl ht
        rw [List.count_cons_of_ne hl]
        omega

/-- The steps of a run, each with the state before it. -/
def visited (step : σ → ℓ → Option σ) : σ → List ℓ → List (σ × ℓ)
  | _, [] => []
  | s, l :: ls =>
      (s, l) ::
        match step s l with
        | none => []
        | some s' => visited step s' ls

/-- What is seen of the steps of a run, in their order. -/
def observe {β : Type} (step : σ → ℓ → Option σ) (see : σ → ℓ → Option β) (s : σ)
    (ls : List ℓ) : List β :=
  (visited step s ls).filterMap fun p => see p.1 p.2

/-- What is seen of one more step, of observations that are lists. -/
theorem flatten_filterMap_concat {α β : Type} (f : α → Option (List β)) (l : List α) (a : α) :
    ((l ++ [a]).filterMap f).flatten = (l.filterMap f).flatten ++ (f a).getD [] := by
  rw [List.filterMap_append, List.flatten_append, List.filterMap_cons]
  cases f a <;> simp

/-- The run rule for an invariant on the state and on the steps made so far. -/
theorem visited_invariant {inv : σ → List (σ × ℓ) → Prop}
    (preserved : ∀ s past l s', inv s past → step s l = some s' → inv s' (past ++ [(s, l)]))
    {s s' : σ} {past : List (σ × ℓ)} {ls : List ℓ} (hinv : inv s past)
    (hrun : runSteps step s ls = some s') : inv s' (past ++ visited step s ls) := by
  induction ls generalizing s past with
  | nil =>
      cases hrun
      rw [visited, List.append_nil]
      exact hinv
  | cons l ls ih =>
      obtain ⟨t, ht, hrest⟩ := Option.bind_eq_some_iff.mp hrun
      rw [visited, ht, List.append_cons]
      exact ih (preserved s past l t hinv ht) hrest

/-- If every step that is seen uses up a measure and no other step refills it, no more steps are
seen than the measure allows. -/
theorem length_observe_le {β : Type} (see : σ → ℓ → Option β) (measure : σ → Nat)
    {cond : σ → ℓ → Prop}
    (hle : ∀ s l s', cond s l → step s l = some s' →
      (see s l).toList.length + measure s' ≤ measure s) {s s' : σ} {ls : List ℓ}
    (hcond : AllSteps step cond s ls) (hrun : runSteps step s ls = some s') :
    (observe step see s ls).length + measure s' ≤ measure s := by
  induction ls generalizing s with
  | nil =>
      cases hrun
      simp [observe, visited]
  | cons l ls ih =>
      obtain ⟨t, ht, hrest⟩ := Option.bind_eq_some_iff.mp hrun
      have htail := ih (hcond.2 t ht) hrest
      have hhead := hle s l t hcond.1 ht
      have hsplit : (observe step see s (l :: ls)).length =
          (see s l).toList.length + (observe step see t ls).length := by
        rw [observe, visited, ht, List.filterMap_cons]
        cases see s l
        · exact (Nat.zero_add _).symm
        · exact Nat.add_comm _ 1
      omega

/-- A run whose steps all use up a measure is no longer than the measure. -/
theorem runSteps_length_le (measure : σ → Nat) {cond : σ → ℓ → Prop}
    (hlt : ∀ s l s', cond s l → step s l = some s' → measure s' < measure s) {s s' : σ}
    {ls : List ℓ} (hcond : AllSteps step cond s ls) (hrun : runSteps step s ls = some s') :
    ls.length + measure s' ≤ measure s := by
  induction ls generalizing s with
  | nil =>
      cases hrun
      simp
  | cons l ls ih =>
      obtain ⟨t, ht, hrest⟩ := Option.bind_eq_some_iff.mp hrun
      have htail := ih (hcond.2 t ht) hrest
      have hless := hlt s l t hcond.1 ht
      rw [List.length_cons]
      omega

end TpQemu

import TpQemu.TscCheck.Accuracy

/-!
# The verdict on the counters

`check_tsc` goes through all the pairs and counts those whose difference exceeds the threshold.
-/

namespace TpQemu.TscCheck

variable {c : Config} {s s' : State} {pairs : List (Nat × Nat)}

def Outcome.cpus (o : Outcome) : Nat × Nat := (o.cpuA, o.cpuB)

/-- In `tsc_delta`. -/
def Main.atPair : Main → Bool
  | .next | .stop | .join | .returned => false
  | _ => true

/-- The pair that is being measured. -/
def State.current (s : State) : List (Nat × Nat) :=
  if s.main.atPair then [(s.cpuA, s.cpuB)] else []

/-- The pairs are measured in their order, and those that exceed the threshold are counted. -/
structure Counted (c : Config) (pairs : List (Nat × Nat)) (s : State) : Prop where
  pairs : s.outcomes.map Outcome.cpus ++ s.current ++ s.pairs = pairs
  finishing : s.main.finishing = true → s.pairs = []
  err : s.err = s.outcomes.countP c.exceeds

theorem current_of_atPair (h : s.main.atPair = true) : s.current = [(s.cpuA, s.cpuB)] := if_pos h

theorem counted_record {delta : BitVec 64} {roundtrips : List (BitVec 64)}
    (h : Counted c pairs s) (hmain : s.main.atPair = true) :
    Counted c pairs (s.record c ⟨s.cpuA, s.cpuB, delta, roundtrips⟩) where
  pairs := by
    have hpairs := h.pairs
    rw [current_of_atPair hmain] at hpairs
    have hcurrent : (s.record c ⟨s.cpuA, s.cpuB, delta, roundtrips⟩).current = [] := rfl
    rw [hcurrent, List.append_nil, State.record]
    dsimp only
    rw [List.map_append]
    exact hpairs
  finishing := fun hend => absurd hend Bool.false_ne_true
  err := by
    have herr := h.err
    rw [State.record]
    dsimp only
    rw [List.countP_append, List.countP_singleton, ← herr]
    split <;> rfl

/-- A step within `tsc_delta`. -/
theorem counted_within (h : Counted c pairs s) (hmain : s.main.atPair = true)
    (hmain' : s'.main.atPair = true) (hsame : s'.outcomes = s.outcomes ∧ s'.err = s.err ∧
      s'.cpuA = s.cpuA ∧ s'.cpuB = s.cpuB ∧ s'.pairs = s.pairs) : Counted c pairs s' := by
  obtain ⟨houtcomes, herr, hcpuA, hcpuB, hpairs⟩ := hsame
  refine ⟨?_, fun hend => ?_, ?_⟩
  · rw [current_of_atPair hmain', houtcomes, hcpuA, hcpuB, hpairs, ← current_of_atPair hmain]
    exact h.pairs
  · cases hat : s'.main <;> rw [hat] at hmain' hend <;> cases hmain' <;> cases hend
  · rw [houtcomes, herr]
    exact h.err

theorem counted_main {ok : Bool} (h : Counted c pairs s) (hstep : mainStep c s ok = some s') :
    Counted c pairs s' := by
  revert hstep
  fun_cases mainStep c s ok <;> intro hstep <;> cases hstep
  case case1.refl hmain hpairs =>
    refine ⟨?_, fun _ => hpairs, h.err⟩
    have hall := h.pairs
    rw [State.current, hmain] at hall
    exact hall
  case case2.refl hmain a b rest hpairs =>
    refine ⟨?_, fun hend => absurd hend Bool.false_ne_true, h.err⟩
    have hall := h.pairs
    rw [State.current, hmain, hpairs] at hall
    rw [← hall, State.current]
    simp [Main.atPair]
  case case4.refl hmain _ => exact counted_record h (by rw [hmain]; rfl)
  case case15.refl hmain => exact counted_record h (by rw [hmain]; rfl)
  case case16.refl hmain =>
    refine ⟨?_, fun _ => h.finishing (by rw [hmain]; rfl), h.err⟩
    have hall := h.pairs
    rw [State.current, hmain] at hall
    exact hall
  case case17.refl hmain _ =>
    refine ⟨?_, fun _ => h.finishing (by rw [hmain]; rfl), h.err⟩
    have hall := h.pairs
    rw [State.current, hmain] at hall
    exact hall
  case case14.refl hmain =>
    refine counted_within h (by rw [hmain]; rfl) ?_ ⟨rfl, rfl, rfl, rfl, rfl⟩
    obtain hmain' | hmain' := accept_main s <;> rw [hmain'] <;> rfl
  all_goals
    rename_i hmain
    exact counted_within h (by first | rw [hmain]; rfl | rw [‹s.main = _›]; rfl) rfl
      ⟨rfl, rfl, rfl, rfl, rfl⟩

theorem counted_step {l : Label} (h : Counted c pairs s) (hstep : step c s l = some s') :
    Counted c pairs s' := by
  cases l with
  | main elapsed ok =>
      exact counted_main (s := { s with now := s.now + elapsed })
        ⟨h.pairs, h.finishing, h.err⟩ hstep
  | slave elapsed ok =>
      have hslave : slaveStep c { s with now := s.now + elapsed } ok = some s' := hstep
      revert hslave
      fun_cases slaveStep c { s with now := s.now + elapsed } ok <;> intro hslave <;> cases hslave
      all_goals exact ⟨h.pairs, h.finishing, h.err⟩

theorem counted_start (pairs : List (Nat × Nat)) : Counted c pairs (start pairs) where
  pairs := rfl
  finishing := fun hend => absurd hend Bool.false_ne_true
  err := rfl

theorem counted_run {run : List Label}
    (hrun : runSteps (step c) (start pairs) run = some s) : Counted c pairs s :=
  runSteps_invariant (fun _ _ _ h hstep => counted_step h hstep) (counted_start pairs) hrun

/-- When `check_tsc` returns, every pair has its outcome. -/
theorem outcomes_of_returned {run : List Label}
    (hrun : runSteps (step c) (start pairs) run = some s) (hmain : s.main = .returned) :
    s.outcomes.map Outcome.cpus = pairs := by
  have hcounted := counted_run hrun
  have hpairs := hcounted.pairs
  rw [State.current, hmain, hcounted.finishing (by rw [hmain]; rfl)] at hpairs
  simpa [Main.atPair] using hpairs

/-- The pairs of which it has outcomes are those of two different CPUs of the set. -/
theorem exists_outcome_iff {cpus : Nat → Bool} {run : List Label}
    (hrun : runSteps (step c) (start (TscCheck.pairs cpus)) run = some s)
    (hmain : s.main = .returned) (a b : Nat) :
    (∃ o ∈ s.outcomes, o.cpus = (a, b)) ↔
      (a < 32 ∧ cpus a = true) ∧ (b < 32 ∧ cpus b = true) ∧ a ≠ b := by
  rw [← mem_pairs, ← outcomes_of_returned hrun hmain, List.mem_map]

variable {offset : Nat → Nat}

end TpQemu.TscCheck

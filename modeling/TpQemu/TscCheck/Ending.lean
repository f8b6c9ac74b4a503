import TpQemu.TscCheck.Check

/-!
# How the check of the counters ends

Each step of either thread brings the check closer to its end. Where the slave thread cannot run
on its CPU it reports an error that the main thread does not look for: the main thread waits for
another value of the word, and `check_tsc` never returns. Otherwise it always can.
-/

namespace TpQemu.TscCheck

variable {c : Config} {s s' : State}

/-- The steps left to the main thread before it looks for the next pair. -/
def Main.left (rounds : Nat) : Main → Nat
  | .next => 3
  | .pin => 76
  | .assign => 75
  | .setReady => 4 + 7 * (10 - rounds)
  | .waitReady => 3 + 7 * (10 - rounds)
  | .readStart => 2 + 7 * (10 - rounds)
  | .setDone => 1 + 7 * (10 - rounds)
  | .waitDone => 7 * (10 - rounds)
  | .readEnd => 7 * (10 - rounds) - 1
  | .accept => 7 * (10 - rounds) - 2
  | .compare => 4
  | .stop => 2
  | .join => 1
  | .returned => 0

/-- How often the main thread still calls the slave thread, after the pairs that follow. -/
def Main.calls (rounds : Nat) : Main → Nat
  | .next | .compare | .stop => 1
  | .pin | .assign => 11
  | .setReady => 11 - rounds
  | .waitReady | .readStart | .setDone | .waitDone | .readEnd | .accept => 10 - rounds
  | .join | .returned => 0

/-- The steps of the slave thread before it waits to be called. -/
def Slave.left (called : Bool) : Slave → Nat
  | .waitReady => if called then 7 else 0
  | .look => 6
  | .pin => 5
  | .setReady => 4
  | .waitDone => 3
  | .readTsc => 2
  | .setDone => 1
  | .ended => 0

def left (s : State) : Nat :=
  74 * s.pairs.length + s.main.left s.roundtrips.length +
    7 * (10 * s.pairs.length + s.main.calls s.roundtrips.length) +
    s.slaveAt.left (s.master = .ready)

theorem slave_left_le (a : Slave) (called called' : Bool) :
    a.left called' ≤ a.left called + 7 := by
  cases a <;> cases called <;> cases called' <;> decide

theorem slave_left_false_le (a : Slave) (called : Bool) : a.left false ≤ a.left called := by
  cases a <;> cases called <;> decide

theorem left_record (o : Outcome) :
    left (s.record c o) = 74 * s.pairs.length + 3 + 7 * (10 * s.pairs.length + 1) +
      s.slaveAt.left (s.master = .ready) := rfl

theorem left_accept (h : s.roundtrips.length < numIters) :
    left s.accept + 3 ≤ 74 * s.pairs.length + 7 * (10 - s.roundtrips.length) +
      7 * (10 * s.pairs.length + (10 - s.roundtrips.length)) +
      s.slaveAt.left (s.master = .ready) := by
  rw [numIters] at h
  have hlength : s.accept.roundtrips.length = s.roundtrips.length + 1 := List.length_append
  have hleft : left s.accept = 74 * s.pairs.length + s.accept.main.left (s.roundtrips.length + 1) +
      7 * (10 * s.pairs.length + s.accept.main.calls (s.roundtrips.length + 1)) +
      s.slaveAt.left (s.master = .ready) := by
    rw [left, hlength]
    rfl
  rw [hleft, State.accept, numIters]
  dsimp only
  split
  · simp only [Main.left, Main.calls]
    omega
  · simp only [Main.left, Main.calls]
    omega

/-- A step of the main thread brings it closer to the end. A call of the slave thread gives it
seven more steps, which the call stood for before. -/
theorem left_main {ok : Bool} (h : Turns s) (hstep : mainStep c s ok = some s') :
    left s' < left s := by
  have hround := h.round
  have hcalled := slave_left_le s.slaveAt (s.master = .ready) true
  have hdone := slave_left_false_le s.slaveAt (s.master = .ready)
  revert hstep
  fun_cases mainStep c s ok <;> intro hstep <;> cases hstep
  case case1.refl hmain hpairs =>
    simp only [left, hmain, hpairs, Main.left, Main.calls]
    omega
  case case2.refl hmain _ _ _ hpairs =>
    simp only [left, hmain, hpairs, Main.left, Main.calls, List.length_cons]
    omega
  case case3.refl hmain _ =>
    simp only [left, hmain, Main.left, Main.calls]
    omega
  case case4.refl hmain _ =>
    rw [left_record]
    simp only [left, hmain, Main.left, Main.calls]
    omega
  case case5.refl hmain =>
    simp only [left, hmain, Main.left, Main.calls, List.length_nil]
    omega
  case case6.refl hmain =>
    have hlt : s.roundtrips.length < 10 := hround (by rw [hmain]; rfl)
    simp only [left, hmain, Main.left, Main.calls, decide_true]
    omega
  case case7.refl hmain _ =>
    simp only [left, hmain, Main.left, Main.calls]
    omega
  case case9.refl hmain =>
    simp only [left, hmain, Main.left, Main.calls]
    omega
  case case10.refl hmain =>
    simp only [left, hmain, Main.left, Main.calls, reduceCtorEq, decide_false]
    omega
  case case11.refl hmain _ =>
    have hlt : s.roundtrips.length < 10 := hround (by rw [hmain]; rfl)
    simp only [left, hmain, Main.left, Main.calls]
    omega
  case case13.refl hmain =>
    have hlt : s.roundtrips.length < 10 := hround (by rw [hmain]; rfl)
    simp only [left, hmain, Main.left, Main.calls]
    omega
  case case14.refl hmain =>
    have hlt : s.roundtrips.length < 10 := hround (by rw [hmain]; rfl)
    have hmost := left_accept hlt
    simp only [left, hmain, Main.left, Main.calls] at hmost ⊢
    omega
  case case15.refl hmain =>
    rw [left_record]
    simp only [left, hmain, Main.left, Main.calls]
    omega
  case case16.refl hmain =>
    simp only [left, hmain, Main.left, Main.calls, decide_true]
    omega
  case case17.refl hmain _ =>
    simp only [left, hmain, Main.left, Main.calls]
    omega

theorem left_slave {ok : Bool} (h : Turns s) (hstep : slaveStep c s ok = some s') :
    left s' < left s := by
  have hturn := h.turn
  revert hstep
  fun_cases slaveStep c s ok <;> intro hstep <;> cases hstep
  all_goals
    simp only [left]
    grind [Slave.left, Turn]

theorem left_step {l : Label} (h : Turns s) (hstep : step c s l = some s') : left s' < left s := by
  cases l with
  | main elapsed ok =>
      have hless := left_main (h.elapse elapsed) hstep
      exact hless
  | slave elapsed ok =>
      have hless := left_slave (h.elapse elapsed) hstep
      exact hless

/-! ## The error of the slave thread -/

/-- After the error nobody goes on. -/
theorem stuck_of_error (h : Turns s) (herror : s.slave = .error) :
    s.main = .waitReady ∧ ∀ l, step c s l = none := by
  have hturn := h.turn
  have hmain : s.main = .waitReady ∧ s.slaveAt = .ended := by
    grind [Turn]
  refine ⟨hmain.1, fun l => ?_⟩
  cases l with
  | main elapsed ok =>
      show mainStep c { s with now := s.now + elapsed } ok = none
      simp only [mainStep, hmain.1, herror, reduceCtorEq, if_false]
  | slave elapsed ok =>
      show slaveStep c { s with now := s.now + elapsed } ok = none
      simp only [slaveStep, hmain.2]

/-- Without it there is always a next step until `check_tsc` returns. -/
theorem exists_step (h : Turns s) (hmain : s.main ≠ .returned) (herror : s.slave ≠ .error) :
    ∃ l s', step c s l = some s' := by
  have hturn := h.turn
  have hslave : (∃ s', mainStep c s true = some s') ∨ ∃ s', slaveStep c s true = some s' := by
    fun_cases mainStep c s true
    all_goals try exact .inl ⟨_, rfl⟩
    all_goals
      refine .inr ?_
      fun_cases slaveStep c s true
      all_goals first
        | exact ⟨_, rfl⟩
        | grind [Turn]
  obtain ⟨s', hs'⟩ | ⟨s', hs'⟩ := hslave
  · exact ⟨.main 0 true, s', hs'⟩
  · exact ⟨.slave 0 true, s', hs'⟩

/-- The slave thread cannot run on its CPU. -/
def Fails (p : State × Label) : Prop :=
  p.1.slaveAt = .pin ∧ ∃ elapsed, p.2 = .slave elapsed false

theorem slave_main {ok : Bool} (hstep : mainStep c s ok = some s') : s'.slave = s.slave := by
  revert hstep
  fun_cases mainStep c s ok <;> intro hstep <;> cases hstep
  all_goals rfl

theorem error_slave {ok : Bool} (herror : s.slave ≠ .error)
    (hstep : slaveStep c s ok = some s') :
    s'.slave = .error ↔ s.slaveAt = .pin ∧ ok = false := by
  revert hstep
  fun_cases slaveStep c s ok <;> intro hstep <;> cases hstep
  all_goals simp_all

theorem error_step {l : Label} (h : Turns s) (hstep : step c s l = some s') :
    s'.slave = .error ↔ Fails (s, l) := by
  have herror : s.slave ≠ .error := by
    intro herror
    rw [(stuck_of_error h herror).2 l] at hstep
    cases hstep
  cases l with
  | main elapsed ok =>
      rw [slave_main hstep]
      exact iff_of_false herror fun hfails => by
        obtain ⟨-, _, hlabel⟩ := hfails
        cases hlabel
  | slave elapsed ok =>
      rw [error_slave (s := { s with now := s.now + elapsed }) herror hstep]
      constructor
      · rintro ⟨hpin, rfl⟩
        exact ⟨hpin, elapsed, rfl⟩
      · rintro ⟨hpin, _, hlabel⟩
        cases hlabel
        exact ⟨hpin, rfl⟩

theorem turns_run {pairs : List (Nat × Nat)} {run : List Label}
    (hrun : runSteps (step c) (start pairs) run = some s) : Turns s :=
  runSteps_invariant (fun _ _ _ h hstep => turns_step h hstep) (turns_start pairs) hrun

/-- The error stands for a failure among the steps so far. -/
def Recorded (s : State) (past : List (State × Label)) : Prop :=
  Turns s ∧ (s.slave = .error ↔ ∃ p ∈ past, Fails p)

theorem recorded_step {past : List (State × Label)} {l : Label} (h : Recorded s past)
    (hstep : step c s l = some s') : Recorded s' (past ++ [(s, l)]) := by
  refine ⟨turns_step h.1 hstep, ?_⟩
  have hnone : ¬∃ p ∈ past, Fails p := fun hfails => by
    rw [(stuck_of_error h.1 (h.2.mpr hfails)).2 l] at hstep
    cases hstep
  rw [error_step h.1 hstep]
  constructor
  · intro hfails
    exact ⟨(s, l), List.mem_append_right _ List.mem_cons_self, hfails⟩
  · rintro ⟨p, hp, hfails⟩
    obtain hp | hp := List.mem_append.mp hp
    · exact absurd ⟨p, hp, hfails⟩ hnone
    · rwa [← List.mem_singleton.mp hp]

/-- The slave thread reports an error exactly if it could not run on its CPU. -/
theorem error_iff {pairs : List (Nat × Nat)} {run : List Label}
    (hrun : runSteps (step c) (start pairs) run = some s) :
    s.slave = .error ↔ ∃ p ∈ visited (step c) (start pairs) run, Fails p := by
  have hstart : Recorded (start pairs) [] :=
    ⟨turns_start pairs, iff_of_false Word.noConfusion fun ⟨_, hp, _⟩ => by cases hp⟩
  have hend : Recorded s ([] ++ visited (step c) (start pairs) run) :=
    visited_invariant (fun _ _ _ _ h hstep => recorded_step h hstep) hstart hrun
  exact hend.2

/-- Every run is over after a bounded number of steps. Then `check_tsc` has returned, or the slave
thread could not run on a CPU and the main thread waits for it for ever. -/
theorem run_ends {pairs : List (Nat × Nat)} {run : List Label}
    (hrun : runSteps (step c) (start pairs) run = some s) :
    run.length ≤ 144 * pairs.length + 10 ∧
      ((∀ l, step c s l = none) ↔
        s.main = .returned ∨ ∃ p ∈ visited (step c) (start pairs) run, Fails p) ∧
      ((∃ p ∈ visited (step c) (start pairs) run, Fails p) → s.main = .waitReady) := by
  have h := turns_run hrun
  rw [← error_iff hrun]
  refine ⟨?_, ⟨fun hstuck => ?_, ?_⟩, fun herror => (stuck_of_error (c := c) h herror).1⟩
  · have hcond : AllSteps (step c) (fun s _ => Turns s ∧ True) (start pairs) run :=
      allSteps_of_invariant (fun _ _ _ h _ hstep => turns_step h hstep) (turns_start pairs)
        fun _ _ => trivial
    have hlength := runSteps_length_le left (fun _ _ _ h hstep => left_step h.1 hstep) hcond hrun
    have hstart : left (start pairs) = 144 * pairs.length + 10 := by
      simp only [left, start, Main.left, Main.calls, Slave.left, reduceCtorEq, decide_false,
        Bool.false_eq_true, if_false]
      omega
    omega
  · refine Classical.byContradiction fun hnot => ?_
    obtain ⟨l, s', hstep⟩ := exists_step (c := c) h (fun hmain => hnot (.inl hmain))
      fun herror => hnot (.inr herror)
    rw [hstuck l] at hstep
    cases hstep
  · rintro (hmain | herror)
    · have hslave : s.slaveAt = .ended := by
        have hturn := h.turn
        rw [Turn, hmain] at hturn
        exact hturn.1
      rintro (⟨elapsed, ok⟩ | ⟨elapsed, ok⟩)
      · show mainStep c { s with now := s.now + elapsed } ok = none
        simp only [mainStep, hmain]
      · show slaveStep c { s with now := s.now + elapsed } ok = none
        simp only [slaveStep, hslave]
    · exact (stuck_of_error h herror).2

/-- The slave thread cannot run on CPU 1. -/
def failingRun : List Label :=
  [.main 0 true, .main 0 true, .main 0 true, .main 0 true, .slave 0 true, .slave 0 true,
    .slave 0 false]

theorem run_ends_failing :
    ∃ s, runSteps (step ⟨500, fun _ _ => 0⟩) (start [(0, 1)]) failingRun = some s ∧
      (∀ l, step ⟨500, fun _ _ => 0⟩ s l = none) ∧ s.main = .waitReady := by
  obtain ⟨s, hrun, herror⟩ := Option.map_eq_some_iff.mp
    (by decide : (runSteps (step ⟨500, fun _ _ => 0⟩) (start [(0, 1)]) failingRun).map
      State.slave = some .error)
  have hfails := (error_iff hrun).mp herror
  have hends := run_ends hrun
  exact ⟨s, hrun, hends.2.1.mpr (.inr hfails), hends.2.2 hfails⟩

end TpQemu.TscCheck

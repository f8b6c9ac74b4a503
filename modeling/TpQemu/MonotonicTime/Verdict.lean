import Mathlib.Algebra.Order.BigOperators.Group.Finset
import TpQemu.MonotonicTime.Warps

/-!
# The verdict of the time warp test

What `run_test` finds when it has joined the threads, when it reports a warp, and that the threads
can be joined.
-/

namespace TpQemu.MonotonicTime

variable {τ : Type} [DecidableEq τ] [Fintype τ] (threshold : Int)

theorem sequential_concat (its : List Iteration) (it : Iteration) :
    sequential threshold (its ++ [it]) = iterate threshold (sequential threshold its) it := by
  rw [sequential, List.foldl_append]
  rfl

theorem sequential_done (its : List Iteration) : (sequential threshold its).done = false := by
  induction its using List.reverseRecOn with
  | nil => rfl
  | append_singleton its it ih =>
      rw [sequential_concat]
      exact ih

/-- When all threads have returned, the shared fields are those of the iterations made one after
the other. -/
theorem joined_totals {run : List (Lock.Event τ (BitVec 64) Unit)} {s : Lock.State τ Loc TestInfo}
    (hrun : runSteps (Lock.step (system threshold)) created run = some s)
    (hjoined : ∀ t, s.loc t = .returned) :
    { s.mem with done := false } =
      sequential threshold (observe (Lock.step (system threshold)) seeIteration created run) := by
  have haccounts := (recorded_run threshold hrun).1.accounts
  change Accounts threshold s
    (sequential threshold (observe (Lock.step (system threshold)) seeIteration created run))
    at haccounts
  have hbounds : ∀ x t, Bounds threshold x (s.loc t) :=
    fun x t => bounds_none threshold (by rw [hjoined t]; rfl)
  have hloops : ∑ t, owedLoops (s.loc t) = 0 :=
    Finset.sum_eq_zero fun t _ => by rw [hjoined t]; rfl
  have hwarps : ∑ t, owedWarps threshold (s.loc t) = 0 :=
    Finset.sum_eq_zero fun t _ => by rw [hjoined t]; rfl
  refine TestInfo.ext haccounts.last ?_ ?_ ?_ (sequential_done threshold _).symm
  · rw [← haccounts.loops, hloops, Nat.add_zero]
  · rw [← haccounts.warps, hwarps, Nat.add_zero]
  · refine eq_of_forall_le_iff fun x => ?_
    rw [← haccounts.worst x]
    exact (and_iff_left (hbounds x)).symm

/-- Two threads, of which the second finds the clock behind. -/
def behind : List (Lock.Event (Fin 2) (BitVec 64) Unit) :=
  List.replicate 3 (.thread 0 5) ++ List.replicate 7 (.thread 0 9) ++
    List.replicate 10 (.thread 1 7)

/-- The second thread counts the warp, and both return when the main thread has set `done`. -/
def returning : List (Lock.Event (Fin 2) (BitVec 64) Unit) :=
  behind ++ List.replicate 6 (.thread 1 7) ++ [.outside (), .thread 0 0, .thread 1 0]

theorem joined_totals_behind : ∃ s : Lock.State (Fin 2) Loc TestInfo,
    runSteps (Lock.step (system 0)) created returning = some s ∧
    { s.mem with done := false } =
      sequential 0 (observe (Lock.step (system 0)) seeIteration created returning) := by
  obtain ⟨s, hs⟩ := Option.isSome_iff_exists.mp
    (by decide +kernel : (runSteps (Lock.step (system 0)) created returning).isSome = true)
  have hlocs : ∀ t, ((runSteps (Lock.step (system 0)) created returning).map fun s => s.loc t) =
      some .returned := by decide +kernel
  rw [hs] at hlocs
  exact ⟨s, hs, joined_totals 0 hs fun t => Option.some.inj (hlocs t)⟩

/-- Readings that fit in a signed number are subtracted as such. -/
theorem delta_eq {t0 t1 : BitVec 64} (h0 : t0.toNat < 2 ^ 63) (h1 : t1.toNat < 2 ^ 63) :
    delta t0 t1 = (t1.toNat : Int) - t0.toNat := by
  rw [delta, BitVec.toInt_sub, BitVec.toInt_eq_toNat_of_lt (by omega),
    BitVec.toInt_eq_toNat_of_lt (by omega)]
  exact Int.bmod_eq_of_le_mul_two (by omega) (by omega)

/-- A reading that is not behind an earlier one by more than the threshold. -/
def Follows (x y : BitVec 64) : Prop :=
  isWarp threshold ((y.toNat : Int) - x.toNat) = false

instance (x y : BitVec 64) : Decidable (Follows threshold x y) :=
  inferInstanceAs (Decidable (isWarp threshold ((y.toNat : Int) - x.toNat) = false))

theorem sequential_last (its : List Iteration) :
    (sequential threshold its).last = 0 ∨
      (sequential threshold its).last ∈ its.flatMap Iteration.readings := by
  cases its using List.reverseRecOn with
  | nil => exact .inl rfl
  | append_singleton its it =>
      rw [sequential_concat, List.flatMap_append]
      exact .inr (List.mem_append_right _ (by simp [iterate, Iteration.readings]))

/-- No iteration meets a warp where each reading follows the earlier ones. -/
theorem sequential_warps {its : List Iteration}
    (hfit : ∀ x ∈ its.flatMap Iteration.readings, x.toNat < 2 ^ 63)
    (hfollows : (its.flatMap Iteration.readings).Pairwise (Follows threshold)) :
    (sequential threshold its).warps = 0 := by
  induction its using List.reverseRecOn with
  | nil => rfl
  | append_singleton its it ih =>
      rw [List.flatMap_append] at hfit hfollows
      have hearlier := fun x hx => hfit x (List.mem_append_left _ hx)
      obtain ⟨hbefore, -, hcross⟩ := List.pairwise_append.mp hfollows
      have hmem : it.t1 ∈ [it].flatMap Iteration.readings := by simp [Iteration.readings]
      have hone : it.t1.toNat < 2 ^ 63 := hfit _ (List.mem_append_right _ hmem)
      have hnone : isWarp threshold (delta (sequential threshold its).last it.t1) = false := by
        rcases sequential_last threshold its with hlast | hlast
        · -- the first iteration compares with 0
          rw [hlast, delta_eq (by decide) hone, isWarp]
          simp
        · rw [delta_eq (hearlier _ hlast) hone]
          exact hcross _ hlast _ hmem
      rw [sequential_concat, iterate, hnone]
      exact ih hearlier hbefore

/-- No warp is ever counted where no reading is behind an earlier one, on whatever CPU it was
made. -/
theorem warps_eq_zero_of_follows {run : List (Lock.Event τ (BitVec 64) Unit)}
    {s : Lock.State τ Loc TestInfo}
    (hrun : runSteps (Lock.step (system threshold)) created run = some s)
    (hfit : ∀ x ∈ observe (Lock.step (system threshold)) seeReading created run,
      x.toNat < 2 ^ 63)
    (hfollows : (observe (Lock.step (system threshold)) seeReading created run).Pairwise
      (Follows threshold)) : s.mem.warps = 0 := by
  obtain ⟨hsound, hpaired⟩ := recorded_run threshold hrun
  -- the readings start with those of the iterations
  obtain ⟨rest, hrest⟩ : ∃ rest, observe (Lock.step (system threshold)) seeReading created run =
      (observe (Lock.step (system threshold)) seeIteration created run).flatMap
        Iteration.readings ++ rest := by
    by_cases hin : ∃ t, Inside (s.loc t)
    · obtain ⟨t, ht⟩ := hin
      exact ⟨_, hpaired.inside t ht⟩
    · exact ⟨[], (hpaired.idle fun t ht => hin ⟨t, ht⟩).trans (List.append_nil _).symm⟩
  rw [hrest] at hfit hfollows
  have hzero := sequential_warps threshold (fun x hx => hfit x (List.mem_append_left _ hx))
    (List.pairwise_append.mp hfollows).1
  have hwarps := hsound.accounts.warps
  change s.mem.warps + _ = (sequential threshold
    (observe (Lock.step (system threshold)) seeIteration created run)).warps at hwarps
  omega

theorem warps_eq_zero_of_follows_behind : ∃ s : Lock.State (Fin 2) Loc TestInfo,
    runSteps (Lock.step (system 2)) created behind = some s ∧ s.mem.warps = 0 := by
  obtain ⟨s, hs⟩ := Option.isSome_iff_exists.mp
    (by decide +kernel : (runSteps (Lock.step (system 2)) created behind).isSome = true)
  have hread : observe (Lock.step (system 2)) seeReading created behind = [5, 9, 7, 7] := by
    decide +kernel
  exact ⟨s, hs, warps_eq_zero_of_follows 2 hs (by rw [hread]; simp) (by rw [hread]; decide)⟩

/-- The most steps that a thread makes before it returns, once `done` is set. -/
def remaining : Loc → Nat
  | .returned => 0
  | .head => 1
  | .leaveWarp => 2
  | .storeWorst _ => 3
  | .loadWorst _ => 4
  | .storeWarps _ _ => 5
  | .loadWarps _ => 6
  | .enterWarp _ => 7
  | .compare _ _ => 8
  | .leave _ _ => 9
  | .storeLoops _ _ _ => 10
  | .loadLoops _ _ => 11
  | .storeLast _ _ _ => 12
  | .readSecond _ _ => 13
  | .loadLast _ => 14
  | .readFirst => 15
  | .enter => 16

theorem remaining_le (loc : Loc) : remaining loc ≤ 16 := by
  cases loc <;> exact Nat.le_of_ble_eq_true rfl

theorem remaining_move {loc : Loc} {clock : BitVec 64} {test : TestInfo}
    {move : Lock.Move Loc TestInfo} (h : code threshold loc clock test = some move)
    (hdone : test.done = true) : remaining move.next < remaining loc := by
  cases loc <;> cases h <;> try exact Nat.lt_succ_self _
  case head =>
    rw [hdone]
    exact Nat.lt_succ_self _
  case compare t0 t1 =>
    cases isWarp threshold (delta t0 t1) <;> exact Nat.le_of_ble_eq_true rfl
  case loadWorst d =>
    dsimp only [Lock.Move.next]
    split <;> exact Nat.le_of_ble_eq_true rfl

theorem done_move {loc : Loc} {clock : BitVec 64} {test : TestInfo}
    {move : Lock.Move Loc TestInfo} (h : code threshold loc clock test = some move) :
    (move.memory test).done = test.done := by
  cases loc <;> cases h <;> rfl

omit [Fintype τ] in
theorem done_step {s s' : Lock.State τ Loc TestInfo} {ev : Lock.Event τ (BitVec 64) Unit}
    (hdone : s.mem.done = true) (h : Lock.step (system threshold) s ev = some s') :
    s'.mem.done = true := by
  cases ev with
  | outside e =>
      cases h
      rfl
  | thread t clock =>
      obtain ⟨move, hcode, hmem, -⟩ := Lock.step_thread _ h
      rw [hmem, done_move threshold hcode]
      exact hdone

/-- A step of a thread uses up one of the steps that remain. -/
theorem remaining_step {s s' : Lock.State τ Loc TestInfo} {t : τ} {clock : BitVec 64}
    (hdone : s.mem.done = true)
    (h : Lock.step (system threshold) s (.thread t clock) = some s') :
    ∑ u, remaining (s'.loc u) < ∑ u, remaining (s.loc u) := by
  obtain ⟨move, hcode, -, hloc⟩ := Lock.step_thread _ h
  have hmove := remaining_move threshold hcode hdone
  have hsum := Lock.sum_update remaining s.loc t move.next
  rw [hloc]
  omega

theorem code_total {loc : Loc} (test : TestInfo) (h : loc ≠ .returned) :
    ∃ clock move, code threshold loc clock test = some move := by
  refine ⟨0, ?_⟩
  cases loc <;> first | exact ⟨_, rfl⟩ | exact absurd rfl h

/-- The threads can be joined: once `done` is set they make at most 16 steps each, and some thread
can make a step until all have returned. A thread that waits for the lock makes none. -/
theorem threads_return {run : List (Lock.Event τ (BitVec 64) Unit)} {s : Lock.State τ Loc TestInfo}
    (hrun : runSteps (Lock.step (system threshold)) created run = some s)
    (hdone : s.mem.done = true) {rest : List (Lock.Event τ (BitVec 64) Unit)}
    {s' : Lock.State τ Loc TestInfo} (hthreads : ∀ ev ∈ rest, ∃ t clock, ev = .thread t clock)
    (hrest : runSteps (Lock.step (system threshold)) s rest = some s') :
    rest.length ≤ 16 * Fintype.card τ ∧
      ((∀ t clock, Lock.step (system threshold) s' (.thread t clock) = none) →
        ∀ t, s'.loc t = .returned) := by
  constructor
  · have hbound := runSteps_length_le (fun s => ∑ u, remaining (s.loc u)) ?_
      (allSteps_of_invariant (fun _ _ _ hs _ => done_step threshold hs) hdone hthreads) hrest
    · have hmost : ∑ u, remaining (s.loc u) ≤ ∑ _u : τ, 16 :=
        Finset.sum_le_sum fun u _ => remaining_le (s.loc u)
      rw [Finset.sum_const, Finset.card_univ, smul_eq_mul] at hmost
      omega
    · rintro s ev s' ⟨hdone, t, clock, rfl⟩ h
      exact remaining_step threshold hdone h
  · intro hstuck
    have hwhole : runSteps (Lock.step (system threshold)) created (run ++ rest) = some s' := by
      rw [runSteps_append, hrun]
      exact hrest
    by_contra hnot
    obtain ⟨t, ht⟩ := not_forall.mp hnot
    obtain ⟨u, clock, s'', hstep⟩ := Lock.exists_step (fun loc => loc = .returned)
      (disciplined threshold) (recorded_run threshold hwhole).1.exclusive
      (fun loc hin hended => by rw [hended] at hin; exact hin)
      (fun loc test => code_total threshold test) ⟨t, ht⟩
    rw [hstuck u clock] at hstep
    cases hstep

theorem threads_return_stopped : ∃ s s' : Lock.State (Fin 2) Loc TestInfo,
    runSteps (Lock.step (system 0)) created [.thread 0 5, .outside ()] = some s ∧
    runSteps (Lock.step (system 0)) s [.thread 1 7] = some s' ∧
    ((∀ t clock, Lock.step (system 0) s' (.thread t clock) = none) →
      ∀ t, s'.loc t = .returned) := by
  have hthread : ∀ ev ∈ [(.thread 1 7 : Lock.Event (Fin 2) (BitVec 64) Unit)],
      ∃ t clock, ev = .thread t clock := by simp
  have hrun : runSteps (Lock.step (system 0)) created [.thread 0 5, .outside ()] =
      some (_ : Lock.State (Fin 2) Loc TestInfo) := rfl
  exact ⟨_, _, hrun, rfl, (threads_return 0 hrun rfl hthread rfl).2⟩

end TpQemu.MonotonicTime

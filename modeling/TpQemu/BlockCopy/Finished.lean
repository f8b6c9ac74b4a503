import Mathlib.Data.List.Basic
import TpQemu.Lib.Steps

/-!
# Waiting for a block job to finish

`wait_for_finished` of `qemu/tests/block_copy.py` over the jobs that are run, one after
the other, on the device of one `BlockCopy` or `LiveBackup` object. A poll takes the job
for finished when the status of the device is empty and a `BLOCK_JOB_COMPLETED` event is
pending. The status is empty when the device has no job, but also when ten attempts to
read it have failed on the lock of the monitor, and the event stays pending until somebody
clears it: `cancel` and `wait_for_steady` clear the events they wait for,
`wait_for_finished` does not.

The object and the device are one machine. An event carries, as a ghost, the number of
the job that has caused it. A job that completes or fails causes a
`BLOCK_JOB_COMPLETED` event, which is received at any later time; a cancelled one does not.
-/

namespace TpQemu.BlockCopy

/-- What the test is doing. -/
inductive Call where
  /-- No modelled call is in progress. -/
  | idle
  /-- A job has been started, and `get_status` has failed this many times. -/
  | creating (count : Nat)
  /-- `wait_for` sleeps between two polls of `job_finished`. -/
  | sleeping
  /-- `get_status` in a poll, which has failed this many times. -/
  | querying (count : Nat)
  /-- The status was empty; the event is looked up next. -/
  | checking
  /-- `wait_for_finished` has returned normally. -/
  | returned
  /-- `test.fail` -/
  | failed
  deriving DecidableEq

/-- How a job ends. -/
inductive Ending where
  | completed
  | failed
  | cancelled
  deriving DecidableEq

/-- The steps of the test that only move it to another call. -/
inductive TestStep where
  /-- `wait_for_finished()` -/
  | waitForFinished
  /-- The next poll of `wait_for`. -/
  | poll
  /-- The time of `wait_for` is up. -/
  | timeUp
  /-- `get_job_status` answers. -/
  | readStatus
  /-- `get_job_status` raises `MonitorLockError`. -/
  | lockError
  /-- `get_event("BLOCK_JOB_COMPLETED")` -/
  | getEvent
  /-- The test goes on behind `wait_for_finished`. -/
  | proceed
  deriving DecidableEq

inductive Label where
  /-- `create_backup`, `start` of a mirror: the command that starts a job. -/
  | start
  /-- `clear_event("BLOCK_JOB_COMPLETED")`, as in `reopen` of a mirror and `hot_unplug`. -/
  | clearEvent
  | test (t : TestStep)
  | jobEnds (e : Ending)
  /-- The monitor receives the event of a job. -/
  | receive (k : Nat)
  deriving DecidableEq

structure State where
  call : Call
  /-- The number of the job started last. -/
  current : Nat
  /-- The device has a job, which is this one. -/
  running : Bool
  /-- The jobs whose event is still to be received. -/
  coming : List Nat
  /-- The pending events. -/
  pending : List Nat
  /-- The events received so far, cleared or not. -/
  received : List Nat

/-- `while count < 10` -/
def attempts : Nat := 10

/-- The call a step of the test leads to, given whether the device has a job and whether
an event is pending. -/
def callStep (running event : Bool) : Call → TestStep → Option Call
  | .idle, .waitForFinished => some .sleeping
  | .sleeping, .poll => some (.querying 0)
  | .sleeping, .timeUp => some .failed
  -- `if not self.get_status(): self.test.fail(...)`
  | .creating _, .readStatus => some (if running then .idle else .failed)
  | .creating count, .lockError =>
      some (if count + 1 < attempts then .creating (count + 1) else .failed)
  | .querying _, .readStatus => some (if running then .sleeping else .checking)
  | .querying count, .lockError =>
      some (if count + 1 < attempts then .querying (count + 1) else .checking)
  | .checking, .getEvent => some (if event then .returned else .sleeping)
  | .returned, .proceed => some .idle
  | _, _ => none

def step (s : State) : Label → Option State
  | .start =>
      if s.call = .idle ∧ s.running = false then
        some { s with call := .creating 0, current := s.current + 1, running := true }
      else none
  | .clearEvent => if s.call = .idle then some { s with pending := [] } else none
  | .test t =>
      (callStep s.running (!s.pending.isEmpty) s.call t).map fun call => { s with call := call }
  | .jobEnds e =>
      if s.running then
        some { s with
          running := false
          coming := if e = .cancelled then s.coming else s.coming ++ [s.current] }
      else none
  | .receive k =>
      if k ∈ s.coming then
        some { s with
          coming := s.coming.erase k
          pending := s.pending ++ [k]
          received := s.received ++ [k] }
      else none

/-- A new object. -/
def initial : State where
  call := .idle
  current := 0
  running := false
  coming := []
  pending := []
  received := []

/-- If `wait_for_finished` has returned, the event of the current job has been received. -/
def Received (s : State) : Prop := s.call = .returned → s.current ∈ s.received

/-! ## The steps -/

section Steps

variable {s s' : State}

theorem step_start (h : step s .start = some s') :
    s.call = .idle ∧
      s' = { s with call := .creating 0, current := s.current + 1, running := true } := by
  simp only [step] at h
  split at h
  · rename_i hguard
    cases h
    exact ⟨hguard.1, rfl⟩
  · cases h

theorem step_clearEvent (h : step s .clearEvent = some s') :
    s.call = .idle ∧ s' = { s with pending := [] } := by
  simp only [step] at h
  split at h
  · rename_i hidle
    cases h
    exact ⟨hidle, rfl⟩
  · cases h

theorem step_test {t : TestStep} (h : step s (.test t) = some s') :
    ∃ call, callStep s.running (!s.pending.isEmpty) s.call t = some call ∧
      s' = { s with call := call } := by
  obtain ⟨call, hcall, rfl⟩ := Option.map_eq_some_iff.mp h
  exact ⟨call, hcall, rfl⟩

theorem step_jobEnds {e : Ending} (h : step s (.jobEnds e) = some s') :
    s' = { s with
      running := false
      coming := if e = .cancelled then s.coming else s.coming ++ [s.current] } := by
  simp only [step] at h
  split at h
  · cases h
    rfl
  · cases h

theorem step_receive {k : Nat} (h : step s (.receive k) = some s') :
    k ∈ s.coming ∧ s' = { s with
      coming := s.coming.erase k
      pending := s.pending ++ [k]
      received := s.received ++ [k] } := by
  simp only [step] at h
  split at h
  · rename_i hk
    cases h
    exact ⟨hk, rfl⟩
  · cases h

end Steps

/-- A call of `wait_for_finished` is in progress. -/
def Call.waiting : Call → Bool
  | .sleeping => true
  | .querying _ => true
  | .checking => true
  | _ => false

/-- A wait goes on or is called. -/
theorem waiting_of_callStep {running event : Bool} {call call' : Call} {t : TestStep}
    (h : callStep running event call t = some call') (hwaiting : call'.waiting = true) :
    call.waiting = true ∨ t = .waitForFinished := by
  cases call with
  | sleeping => exact .inl rfl
  | querying count => exact .inl rfl
  | checking => exact .inl rfl
  | idle =>
      cases t with
      | waitForFinished => exact .inr rfl
      | _ => cases h
  | creating count =>
      cases t with
      | readStatus => cases running <;> (cases h; cases hwaiting)
      | lockError =>
          rw [callStep] at h
          split at h <;> (cases h; cases hwaiting)
      | _ => cases h
  | returned =>
      cases t with
      | proceed =>
          cases h
          cases hwaiting
      | _ => cases h
  | failed => cases h

/-- A wait returns from a poll that has found an event. -/
theorem returned_of_callStep {running event : Bool} {call : Call} {t : TestStep}
    (h : callStep running event call t = some .returned) : call = .checking ∧ event = true := by
  cases call with
  | checking =>
      cases t with
      | getEvent =>
          cases event with
          | true => exact ⟨rfl, rfl⟩
          | false => cases h
      | _ => cases h
  | creating count =>
      cases t with
      | readStatus => cases running <;> cases h
      | lockError =>
          rw [callStep] at h
          split at h <;> cases h
      | _ => cases h
  | querying count =>
      cases t with
      | readStatus => cases running <;> cases h
      | lockError =>
          rw [callStep] at h
          split at h <;> cases h
      | _ => cases h
  | idle => cases t <;> cases h
  | sleeping => cases t <;> cases h
  | returned => cases t <;> cases h
  | failed => cases h

/-! ## Runs in which nothing is left of an earlier job -/

/-- When the wait for a job is called, the event of this job has been received, or every
event that is pending or still to come is one of this job. -/
def Fresh (s : State) : Label → Prop
  | .test .waitForFinished =>
      s.current ∈ s.received ∨ ∀ k, k ∈ s.pending ∨ k ∈ s.coming → k = s.current
  | _ => True

/-- Whatever a wait can find is the event of its own job. -/
structure Own (s : State) : Prop where
  pending : s.pending ⊆ s.received
  awaited : s.call.waiting = true →
    s.current ∈ s.received ∨ ∀ k, k ∈ s.pending ∨ k ∈ s.coming → k = s.current
  returned : Received s

theorem own_test {s s' : State} {t : TestStep} (hown : Own s) (hfresh : Fresh s (.test t))
    (h : step s (.test t) = some s') : Own s' := by
  obtain ⟨call, hcall, rfl⟩ := step_test h
  refine ⟨hown.pending, ?_, ?_⟩
  · intro hwaiting
    rcases waiting_of_callStep hcall hwaiting with hwaiting | rfl
    · exact hown.awaited hwaiting
    · exact hfresh
  · intro hreturned
    cases hreturned
    obtain ⟨hchecking, hevent⟩ := returned_of_callStep hcall
    rcases hown.awaited (by rw [hchecking]; rfl) with hreceived | hall
    · exact hreceived
    · -- Some event is pending, and it can only be the one of this job.
      obtain ⟨k, hk⟩ : ∃ k, k ∈ s.pending := by
        apply List.exists_mem_of_ne_nil
        simpa using hevent
      rw [← hall k (.inl hk)]
      exact hown.pending hk

theorem own_jobEnds {s s' : State} {e : Ending} (hown : Own s)
    (h : step s (.jobEnds e) = some s') : Own s' := by
  obtain rfl := step_jobEnds h
  refine ⟨hown.pending, ?_, hown.returned⟩
  intro hwaiting
  refine (hown.awaited hwaiting).imp id fun hall k hk => ?_
  rcases hk with hk | hk
  · exact hall k (.inl hk)
  · dsimp only at hk
    split at hk
    · exact hall k (.inr hk)
    · rcases List.mem_append.mp hk with hk | hk
      · exact hall k (.inr hk)
      · exact List.mem_singleton.mp hk

theorem own_receive {s s' : State} {k : Nat} (hown : Own s)
    (h : step s (.receive k) = some s') : Own s' := by
  obtain ⟨hk, rfl⟩ := step_receive h
  refine ⟨?_, ?_, ?_⟩
  · intro j hj
    rcases List.mem_append.mp hj with hj | hj
    · exact List.mem_append_left _ (hown.pending hj)
    · exact List.mem_append_right _ hj
  · intro hwaiting
    refine (hown.awaited hwaiting).imp (List.mem_append_left _) fun hall j hj => ?_
    rcases hj with hj | hj
    · rcases List.mem_append.mp hj with hj | hj
      · exact hall j (.inl hj)
      · rw [List.mem_singleton.mp hj]
        exact hall k (.inr hk)
    · exact hall j (.inr (List.mem_of_mem_erase hj))
  · intro hreturned
    exact List.mem_append_left _ (hown.returned hreturned)

theorem own_step (s : State) (l : Label) (s' : State) (hown : Own s) (hfresh : Fresh s l)
    (h : step s l = some s') : Own s' := by
  cases l with
  | start =>
      obtain ⟨-, rfl⟩ := step_start h
      refine ⟨hown.pending, ?_, ?_⟩
      · intro hwaiting
        cases hwaiting
      · intro hreturned
        cases hreturned
  | clearEvent =>
      obtain ⟨hidle, rfl⟩ := step_clearEvent h
      refine ⟨List.nil_subset _, ?_, ?_⟩
      · intro hwaiting
        cases (congrArg Call.waiting hidle).symm.trans hwaiting
      · intro hreturned
        cases hidle.symm.trans hreturned
  | test t => exact own_test hown hfresh h
  | jobEnds e => exact own_jobEnds hown h
  | receive k => exact own_receive hown h

/-! ## Runs in which something is left -/

/-- Attempts to read the status that all fail. -/
theorem run_lockErrors {s : State} {count : Nat} (hcall : s.call = .querying count) :
    ∀ n, count + n + 1 = attempts →
      runSteps step s (List.replicate (n + 1) (.test .lockError)) =
        some { s with call := .checking } := by
  intro n
  induction n generalizing s count with
  | zero =>
      intro hlast
      have hstep : step s (.test .lockError) = some { s with call := .checking } := by
        simp only [step, hcall, callStep, if_neg (show ¬count + 1 < attempts by omega)]
        rfl
      rw [List.replicate_succ, runSteps_cons hstep]
      rfl
  | succ n ih =>
      intro hlast
      have hstep : step s (.test .lockError) = some { s with call := .querying (count + 1) } := by
        simp only [step, hcall, callStep, if_pos (show count + 1 < attempts by omega)]
        rfl
      rw [List.replicate_succ, runSteps_cons hstep,
        ih (s := { s with call := .querying (count + 1) }) rfl (by omega)]

/-- A poll that cannot read the status and finds an event of another job. -/
theorem returns_early {s : State} (hcall : s.call = .querying 0) (hpending : s.pending ≠ [])
    (hreceived : s.current ∉ s.received) :
    ∃ ls t, runSteps step s ls = some t ∧ ¬Received t := by
  refine ⟨List.replicate 10 (Label.test .lockError) ++ [Label.test .getEvent],
    { s with call := .returned }, ?_, fun h => hreceived (h rfl)⟩
  rw [runSteps_append, run_lockErrors hcall 9 rfl, Option.bind_some]
  have hevent : step { s with call := .checking } (.test .getEvent) =
      some { s with call := .returned } := by
    simp [step, callStep, hpending]
  rw [runSteps_cons hevent]
  rfl

theorem returns_early_of_not_fresh {s : State} (hidle : s.call = .idle)
    (hleft : ¬Fresh s (.test .waitForFinished)) :
    ∃ ls t, runSteps step s (.test .waitForFinished :: ls) = some t ∧ ¬Received t := by
  obtain ⟨hreceived, hother⟩ := not_or.mp hleft
  have hwait : step s (.test .waitForFinished) = some { s with call := .sleeping } := by
    simp [step, hidle, callStep]
  have hpoll : step { s with call := .sleeping } (.test .poll) =
      some { s with call := .querying 0 } := rfl
  by_cases hpending : s.pending = []
  · -- The event of another job arrives during the wait.
    rw [not_forall] at hother
    obtain ⟨k, hk⟩ := hother
    rw [Classical.not_imp] at hk
    obtain ⟨hk, hne⟩ := hk
    rw [hpending] at hk
    have hcoming : k ∈ s.coming := hk.resolve_left List.not_mem_nil
    have hreceive : step { s with call := .querying 0 } (.receive k) =
        some { s with
          call := .querying 0
          coming := s.coming.erase k
          pending := s.pending ++ [k]
          received := s.received ++ [k] } := if_pos hcoming
    obtain ⟨ls, t, hrun, hbad⟩ := returns_early (s := { s with
          call := .querying 0
          coming := s.coming.erase k
          pending := s.pending ++ [k]
          received := s.received ++ [k] }) rfl (by simp) (by simp [hreceived, Ne.symm hne])
    refine ⟨.test .poll :: .receive k :: ls, t, ?_, hbad⟩
    rw [runSteps_cons hwait, runSteps_cons hpoll, runSteps_cons hreceive]
    exact hrun
  · obtain ⟨ls, t, hrun, hbad⟩ :=
      returns_early (s := { s with call := .querying 0 }) rfl hpending hreceived
    refine ⟨.test .poll :: ls, t, ?_, hbad⟩
    rw [runSteps_cons hwait, runSteps_cons hpoll]
    exact hrun

/-- The waits of a run report their own jobs if each of them is called while nothing is left
of an earlier job, or after the event of its own. Where something is left, the wait can
return too early. -/
theorem finished_is_current_of_fresh (ls : List Label) :
    (∀ s, AllSteps step Fresh initial ls → runSteps step initial ls = some s → Received s) ∧
    ∀ s, runSteps step initial ls = some s → s.call = .idle →
      ¬Fresh s (.test .waitForFinished) →
      ∃ ms t, runSteps step initial (ls ++ .test .waitForFinished :: ms) = some t ∧
        ¬Received t := by
  have hinitial : Own initial := by
    refine ⟨List.nil_subset _, ?_, ?_⟩
    · intro hwaiting
      cases hwaiting
    · intro hreturned
      cases hreturned
  constructor
  · intro s hfresh hrun
    exact (runSteps_invariant_of own_step hinitial hfresh hrun).returned
  · intro s hrun hidle hleft
    obtain ⟨ms, t, ht, hbad⟩ := returns_early_of_not_fresh hidle hleft
    refine ⟨ms, t, ?_, hbad⟩
    rw [runSteps_append, hrun]
    exact ht

/-- A full backup that completes, and an incremental one that is cancelled while it is
waited for. -/
def fullThenCancelled : List Label :=
  [.start, .test .readStatus, .jobEnds .completed, .receive 1, .test .waitForFinished,
    .test .poll, .test .readStatus, .test .getEvent, .test .proceed,
    .start, .test .readStatus, .test .waitForFinished, .jobEnds .cancelled,
    .test .poll, .test .readStatus, .test .getEvent]

/-- The second wait returns on the event of the first job. -/
theorem cancelled_job_finished :
    ¬∀ ls s, runSteps step initial ls = some s → Received s := by
  intro h
  have hrun : runSteps step initial fullThenCancelled =
      some ⟨.returned, 2, false, [], [1], [1]⟩ := rfl
  exact absurd (h _ _ hrun rfl) (by decide)

end TpQemu.BlockCopy

import Mathlib.Data.List.Basic
import TpQemu.Lib.Steps

/-!
# Driving a block job to its end

`wait_until_block_job_completed` of `provider/job_utils.py`, with the functions it calls to
finalize and to dismiss the job, over one job of QEMU. Every monitor call of the function is
one step, and between any two of them the job may move on and events may be received.

Of QEMU it is assumed that a job causes its event at the moment it is concluded, that
`job-finalize` concludes a pending job, that a pending job without auto-finalize and a
concluded job without auto-dismiss stay so until they are commanded, and that both lists of
jobs have a job until it is gone. The monitor keeps the events it has received. At least one
poll is made.
-/

namespace TpQemu.JobUtils

/-- The `status` of a job; a job that is gone is in no list. -/
inductive Status where
  | created
  | running
  | ready
  | pending
  | concluded
  | gone
  deriving DecidableEq

/-- The job has not been concluded. -/
def Status.active : Status → Bool
  | .concluded => false
  | .gone => false
  | _ => true

/-- A monitor event with the items of its data that are read. -/
structure Event where
  event : String
  id : Option String
  device : Option String
  error : Option String
  deriving DecidableEq

def completedEvent : String := "BLOCK_JOB_COMPLETED"
def cancelledEvent : String := "BLOCK_JOB_CANCELLED"

/-- `bool(error)` -/
def truthy (error : Option String) : Bool := error.any fun e => e ≠ ""

/-- How the job ends. -/
inductive Outcome where
  | completed (error : Option String)
  | cancelled
  deriving DecidableEq

structure Config where
  jobId : String
  autoFinalize : Bool
  autoDismiss : Bool
  outcome : Outcome
  /-- A wait for a status polls once and then this many times again. -/
  tries : Nat

/-- The events of the job the function looks for. -/
def Config.own (c : Config) (e : Event) : Bool :=
  e.event = completedEvent && (e.id = some c.jobId || e.device = some c.jobId)

/-- The event QEMU sends when the job is concluded. -/
def Config.ending (c : Config) : Event :=
  match c.outcome with
  | .completed error => ⟨completedEvent, none, some c.jobId, error⟩
  | .cancelled => ⟨cancelledEvent, none, some c.jobId, none⟩

/-- How the function ends. -/
inductive Result where
  | returned
  | raised
  deriving DecidableEq

/-- The next monitor call. -/
inductive Pc where
  /-- `status = get_job_status(vm, job_id)` -/
  | queryStatus
  /-- `get_block_job_by_id` in `block_job_finalize` -/
  | queryFinalize
  /-- `wait_until_job_status_match(vm, "pending", ...)` -/
  | waitPending (tries : Nat)
  /-- `job-finalize` -/
  | sendFinalize
  /-- `job-complete` -/
  | sendComplete
  /-- `get_events` -/
  | scanEvents
  /-- `get_job_status` in the `finally` block -/
  | queryFinally
  /-- `get_block_job_by_id` in `block_job_dismiss` -/
  | queryDismiss
  /-- `wait_until_job_status_match(vm, "concluded", ...)` -/
  | waitConcluded (tries : Nat)
  /-- `job-dismiss` -/
  | sendDismiss
  /-- `get_block_job_by_id` behind it -/
  | queryDismissed
  | ended (r : Result)
  deriving DecidableEq

structure State where
  status : Status
  /-- The event of the job, between its cause and its receipt. -/
  coming : Option Event
  log : List Event
  pc : Pc
  /-- How many polls follow before the time is up. -/
  polls : Nat
  finished : Bool
  /-- The `try` block has raised. -/
  raised : Bool
  /-- A status `pending` has been read. -/
  sawPending : Bool
  /-- The status of the job at each `job-finalize`. -/
  finalizes : List Status
  /-- The status of the job at each `job-dismiss`. -/
  dismisses : List Status

/-- What has happened up to the first call is part of the run. -/
def initial (polls : Nat) : State where
  status := .created
  coming := none
  log := []
  pc := .queryStatus
  polls := polls
  finished := false
  raised := false
  sawPending := false
  finalizes := []
  dismisses := []

/-! ## The function -/

section Function

variable (c : Config)

/-- An exception outside of the `try` block, or in the `finally` block. -/
def State.fail (s : State) : State := { s with pc := .ended .raised }

/-- Behind the `finally` block. -/
def State.endPoll (s : State) : State :=
  if s.raised then s.fail
  else if s.finished then { s with pc := .ended .returned }
  else
    match s.polls with
    | 0 => s.fail
    | n + 1 => { s with pc := .queryStatus, polls := n }

/-- The job is concluded, which causes its event. -/
def State.conclude (s : State) : State :=
  { s with status := .concluded, coming := some c.ending }

/-- The loop over the events. -/
def State.scan (s : State) : State :=
  match s.log.find? c.own with
  | none => { s with pc := .queryFinally, finished := false, raised := false }
  | some e =>
      { s with pc := .queryFinally, finished := !truthy e.error, raised := truthy e.error }

/-- The next monitor call and what the function does up to the one behind it. -/
def call (s : State) : Option State :=
  match s.pc with
  | .queryStatus =>
      some (match s.status with
        | .pending => { s with pc := .queryFinalize, sawPending := true }
        | .ready => { s with pc := .sendComplete }
        | _ => { s with pc := .scanEvents })
  | .queryFinalize =>
      -- `job.get("auto-finalize", True) is False`
      some (if s.status ≠ .gone ∧ c.autoFinalize = false then
          { s with pc := .waitPending (c.tries + 1) }
        else { s with pc := .scanEvents })
  | .waitPending tries =>
      some (match tries with
        | 0 => s.fail
        | n + 1 =>
            if s.status = .pending then { s with pc := .sendFinalize }
            else { s with pc := .waitPending n })
  | .sendFinalize =>
      some (if s.status = .pending then
          { s.conclude c with pc := .scanEvents, finalizes := s.finalizes ++ [s.status] }
        else { s.fail with finalizes := s.finalizes ++ [s.status] })
  -- An error of `job-complete` is caught.
  | .sendComplete => some { s with pc := .scanEvents }
  | .scanEvents => some (s.scan c)
  | .queryFinally =>
      some (if s.status = .concluded then { s with pc := .queryDismiss } else s.endPoll)
  | .queryDismiss =>
      -- `job.get("auto-dismiss", True) is False`
      some (if s.status ≠ .gone ∧ c.autoDismiss = false then
          { s with pc := .waitConcluded (c.tries + 1) }
        else s.endPoll)
  | .waitConcluded tries =>
      some (match tries with
        | 0 => s.fail
        | n + 1 =>
            if s.status = .concluded then { s with pc := .sendDismiss }
            else { s with pc := .waitConcluded n })
  | .sendDismiss =>
      some (if s.status = .concluded then
          { s with
            pc := .queryDismissed, status := .gone, dismisses := s.dismisses ++ [s.status] }
        else { s.fail with dismisses := s.dismisses ++ [s.status] })
  -- `assert not job`
  | .queryDismissed => some (if s.status = .gone then s.endPoll else s.fail)
  | .ended _ => none

end Function

/-! ## The machine -/

inductive Label where
  /-- The next monitor call of the function. -/
  | call
  /-- The job goes to another status before it is concluded. -/
  | move (status : Status)
  | conclude
  /-- QEMU dismisses the job. -/
  | vanish
  /-- The event of the job is received. -/
  | receive
  /-- Any event is received that is not one of this job. -/
  | foreign (e : Event)
  deriving DecidableEq

/-- The job does not wait for a command to leave its status. -/
def State.free (c : Config) (s : State) : Bool :=
  s.status.active && (s.status ≠ .pending || c.autoFinalize)

/-- What happens between two calls. -/
def between (c : Config) (s : State) : Label → Option State
  | .call => none
  | .move status =>
      if s.free c ∧ status.active then some { s with status := status } else none
  | .conclude => if s.free c then some (s.conclude c) else none
  | .vanish =>
      if s.status = .concluded ∧ c.autoDismiss then some { s with status := .gone } else none
  | .receive =>
      match s.coming with
      | some e => some { s with coming := none, log := s.log ++ [e] }
      | none => none
  | .foreign e => if c.own e then none else some { s with log := s.log ++ [e] }

/-- The run ends with the function. -/
def step (c : Config) (s : State) : Label → Option State
  | .call => call c s
  | l =>
      match s.pc with
      | .ended _ => none
      | _ => between c s l

section Steps

variable {c : Config} {s s' : State}

/-- Everything that can happen between two calls. -/
theorem between_cases {l : Label} (h : between c s l = some s') :
    (∃ status, s.free c = true ∧ status.active = true ∧ s' = { s with status := status }) ∨
      (s.free c = true ∧ s' = s.conclude c) ∨
      (s.status = .concluded ∧ c.autoDismiss = true ∧ s' = { s with status := .gone }) ∨
      (∃ e, s.coming = some e ∧ s' = { s with coming := none, log := s.log ++ [e] }) ∨
      ∃ e, c.own e = false ∧ s' = { s with log := s.log ++ [e] } := by
  cases l with
  | call => cases h
  | move status =>
      simp only [between] at h
      split at h
      · rename_i hguard
        cases h
        exact .inl ⟨status, hguard.1, hguard.2, rfl⟩
      · cases h
  | conclude =>
      simp only [between] at h
      split at h
      · rename_i hfree
        cases h
        exact .inr (.inl ⟨hfree, rfl⟩)
      · cases h
  | vanish =>
      simp only [between] at h
      split at h
      · rename_i hguard
        cases h
        exact .inr (.inr (.inl ⟨hguard.1, hguard.2, rfl⟩))
      · cases h
  | receive =>
      simp only [between] at h
      split at h
      · rename_i e hcoming
        cases h
        exact .inr (.inr (.inr (.inl ⟨e, hcoming, rfl⟩)))
      · cases h
  | foreign e =>
      simp only [between] at h
      split at h
      · cases h
      · rename_i hforeign
        cases h
        exact .inr (.inr (.inr (.inr ⟨e, Bool.eq_false_iff.mpr hforeign, rfl⟩)))

/-- A step is a call, or something between two calls while the function runs. -/
theorem step_cases {l : Label} (h : step c s l = some s') :
    (l = .call ∧ call c s = some s') ∨
      (l ≠ .call ∧ (∀ r, s.pc ≠ .ended r) ∧ between c s l = some s') := by
  by_cases hl : l = .call
  · subst hl
    exact .inl ⟨rfl, h⟩
  · refine .inr ⟨hl, ?_⟩
    cases l with
    | call => exact absurd rfl hl
    | _ =>
        simp only [step] at h
        split at h
        · cases h
        · rename_i hpc
          exact ⟨hpc, h⟩

end Steps

end TpQemu.JobUtils

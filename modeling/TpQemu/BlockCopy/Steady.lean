import TpQemu.Lib.Polling
import TpQemu.Lib.Python

/-!
# Waiting for a block job to be ready

`wait_for_steady` of `qemu/tests/block_copy.py`. A poll takes the job for steady when its
status is ready and not busy and, with `check_event`, a `BLOCK_JOB_READY` event is pending.
The wait clears this event before its first poll, so that an event that was received
earlier is lost: the status stays ready, but no second event follows.

The environment decides what each attempt to read the status gives and when events are
received.
-/

namespace TpQemu.BlockCopy

/-- The items of a job status that are read; `none` is an empty dictionary. -/
structure Info where
  ready : Bool
  busy : Bool

/-- `get_status`: the first of ten attempts that does not fail on the lock of the
monitor. -/
def getStatusFrom (attempt : Nat → Option (Option Info)) : Nat → Nat → Option Info
  | 0, _ => none
  | n + 1, count =>
      match attempt count with
      | some status => status
      | none => getStatusFrom attempt n (count + 1)

def getStatus (attempt : Nat → Option (Option Info)) : Option Info := getStatusFrom attempt 10 0

/-- `info and info.get("ready") and not info.get("busy")` -/
def ready (info : Option Info) : Bool := info.any fun i => i.ready && !i.busy

/-- What happens around one `wait_for_steady`. -/
structure Env where
  /-- The events received before the call, since the job was started. -/
  before : Nat
  /-- The events received before the event check of a poll, since the one before it or
  since the events were cleared. -/
  arrive : Nat → Nat
  /-- The attempts of a poll to read the status. -/
  attempt : Nat → Nat → Option (Option Info)
  /-- How many polls `wait_for` makes before the time is up. -/
  polls : Nat
  /-- `check_event`, which is "yes" or "no". -/
  checkEvent : Bool
  /-- `wait_timeout` -/
  timeout : String

/-- The pending events and the number of the poll. -/
structure Waiting where
  pending : Nat
  poll : Nat

/-- What happens up to the event check of a poll. -/
def Env.act (env : Env) (i : Nat) (w : Waiting) : Waiting := ⟨w.pending + env.arrive i, i⟩

/-- `is_steady()` -/
def isSteady (env : Env) (w : Waiting) : Bool :=
  let ret := ready (getStatus (env.attempt w.poll))
  if env.checkEvent then ret && (w.pending ≠ 0) else ret

/-- `clear_event("BLOCK_JOB_READY")` -/
def clearEvent (w : Waiting) : Waiting := { w with pending := 0 }

/-- The polls of `wait_for_steady`. -/
def pollSteady (env : Env) (w : Waiting) : Bool × Waiting := (isSteady env w, w)

/-- `wait_for_steady()` -/
def waitForSteady (env : Env) : Except PyError Unit :=
  let steady := (waitFor env.act (pollSteady env) env.polls 0 (clearEvent ⟨env.before, 0⟩)).1
  if steady then .ok ()
  else .error (.testFail ("Wait mirroring job ready timeout in " ++ env.timeout ++ "s"))

/-! ## The polls -/

/-- The state at a poll. -/
def Env.at (env : Env) (i : Nat) : Waiting :=
  stateAt env.act (pollSteady env) (clearEvent ⟨env.before, 0⟩) i

theorem poll_at (env : Env) (i : Nat) : (env.at i).poll = i := by
  cases i <;> rfl

theorem pending_at_succ (env : Env) (i : Nat) :
    (env.at (i + 1)).pending = (env.at i).pending + env.arrive (i + 1) := rfl

/-- An event is pending at a poll if one has been received since the events were cleared. -/
theorem pending_at_ne_zero_iff (env : Env) (i : Nat) :
    (env.at i).pending ≠ 0 ↔ ∃ j ≤ i, 0 < env.arrive j := by
  induction i with
  | zero =>
      have hzero : (env.at 0).pending = env.arrive 0 := Nat.zero_add _
      rw [hzero]
      constructor
      · intro h
        exact ⟨0, Nat.le_refl 0, Nat.pos_of_ne_zero h⟩
      · rintro ⟨j, hj, hpos⟩
        obtain rfl : j = 0 := by omega
        omega
  | succ i ih =>
      rw [pending_at_succ]
      constructor
      · intro h
        by_cases hnew : env.arrive (i + 1) = 0
        · obtain ⟨j, hj, hpos⟩ := ih.mp (by omega)
          exact ⟨j, by omega, hpos⟩
        · exact ⟨i + 1, Nat.le_refl _, Nat.pos_of_ne_zero hnew⟩
      · rintro ⟨j, hj, hpos⟩
        by_cases hlast : j = i + 1
        · subst hlast
          omega
        · have hold := ih.mpr ⟨j, by omega, hpos⟩
          omega

theorem waitForSteady_eq_ok_iff (env : Env) :
    waitForSteady env = .ok () ↔ ∃ i < env.polls, isSteady env (env.at i) = true := by
  have hwait : waitForSteady env = .ok () ↔
      (waitFor env.act (pollSteady env) env.polls 0 (clearEvent ⟨env.before, 0⟩)).1 = true := by
    rw [waitForSteady]
    split
    · rename_i h
      exact iff_of_true rfl h
    · rename_i h
      exact iff_of_false (by simp) h
  rw [hwait, waitFor_iff]
  rfl

/-- From some poll on, the status that is read is ready and not busy, and by then an event
has been received, at any time since the job was started. -/
def ReadySeen (env : Env) : Prop :=
  ∃ j < env.polls,
    (∀ i, j ≤ i → i < env.polls → ready (getStatus (env.attempt i)) = true) ∧
    (0 < env.before ∨ ∃ i ≤ j, 0 < env.arrive i)

theorem isSteady_at_iff {env : Env} (hcheck : env.checkEvent = true) (i : Nat) :
    isSteady env (env.at i) = true ↔
      ready (getStatus (env.attempt i)) = true ∧ ∃ j ≤ i, 0 < env.arrive j := by
  rw [← pending_at_ne_zero_iff]
  simp [isSteady, hcheck, poll_at]

/-- The wait for a ready job passes when an event is received after the wait has cleared
those that were pending. -/
theorem waitForSteady_iff {env : Env} (hcheck : env.checkEvent = true) (h : ReadySeen env) :
    waitForSteady env = .ok () ↔ ∃ i < env.polls, 0 < env.arrive i := by
  rw [waitForSteady_eq_ok_iff]
  simp only [isSteady_at_iff hcheck]
  constructor
  · rintro ⟨i, hi, -, j, hj, hpos⟩
    exact ⟨j, by omega, hpos⟩
  · rintro ⟨i, hi, hpos⟩
    obtain ⟨j, hj, hready, -⟩ := h
    refine ⟨max i j, by omega, hready _ (by omega) (by omega), i, by omega, hpos⟩

/-- The status is ready from the second poll on, when the event is received too. -/
theorem waitForSteady_late :
    waitForSteady
      { before := 0
        arrive := fun i => if i = 1 then 1 else 0
        attempt := fun i _ => some (some ⟨i ≠ 0, i = 0⟩)
        polls := 3
        checkEvent := true
        timeout := "600.0" } = .ok () := by
  refine (waitForSteady_iff rfl ⟨1, by decide, ?_, .inr ⟨1, by decide, by decide⟩⟩).mpr
    ⟨1, by decide, by decide⟩
  intro i hi _
  have hne : i ≠ 0 := by omega
  simp [getStatus, getStatusFrom, ready, hne]

/-- The event is received while the steps before the wait are run. -/
def readyEarly : Env where
  before := 1
  arrive := fun _ => 0
  attempt := fun _ _ => some (some ⟨true, false⟩)
  polls := 200
  checkEvent := true
  timeout := "600.0"

/-- A job that is ready before the wait is missed. -/
theorem not_waitForSteady_early :
    readyEarly.checkEvent = true ∧ ReadySeen readyEarly ∧ waitForSteady readyEarly ≠ .ok () := by
  refine ⟨rfl, ⟨0, by decide, fun i _ _ => rfl, .inl (by decide)⟩, ?_⟩
  rw [Ne, waitForSteady_eq_ok_iff]
  rintro ⟨i, -, hsteady⟩
  obtain ⟨-, j, -, hpos⟩ := (isSteady_at_iff rfl i).mp hsteady
  exact Nat.lt_irrefl 0 hpos

end TpQemu.BlockCopy

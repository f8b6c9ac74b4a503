import Mathlib.Logic.Function.Basic
import TpQemu.Lib.Steps

/-!
# The agent of virtio-trace

`trace-agent-rw.c` and `trace-agent-ctl.c`: each read/write thread carries trace data from its
cpu to the host through a pipe of its own, and a controller starts and stops all of them by the
orders of the host. A thread looks at `global_run_operation` without the mutex and then waits for
the condition variable without looking again. A thread may wake up spuriously.
-/

namespace TpQemu.VirtioTrace

variable {τ : Type}

/-- Where a read/write thread is. A sleeping thread has given up the mutex, and one that has been
woken takes it again. -/
inductive Loc where
  | check
  | lock
  | wait
  | asleep
  | woken
  | unlock
  | sig
  | read
  | write (rlen wlen : Nat)
  | ended
  deriving DecidableEq

/-- A thread with the content of its pipe. -/
structure Thread where
  loc : Loc
  pipe : List UInt8

/-- The result of `poll`. -/
inductive Poll where
  | error
  | timeout
  | ready
  deriving DecidableEq

/-- Where the controller is; `wake` is before the wake-up for the signal, `start` before that
for an order to run, `join` in the loop of `pthread_join`. -/
inductive Control where
  | poll
  | check (ret : Poll)
  | wake
  | read
  | start
  | join
  deriving DecidableEq

/-- What a step of a thread comes to. -/
inductive Input where
  | go
  | spurious
  | data (bytes : List UInt8)
  | moved (n : Nat)
  | failed
  deriving DecidableEq

/-- What a step of the controller comes to. -/
inductive Order where
  | go
  | polled (ret : Poll)
  | message (buf : List UInt8)
  | failed
  deriving DecidableEq

inductive Label (τ : Type) where
  | thread (t : τ) (i : Input)
  | control (o : Order)
  | signal
  deriving DecidableEq

structure State (τ : Type) where
  globalRunOperation : Bool
  globalSigReceive : Bool
  /-- `global_signal_val` is not 0. -/
  signalled : Bool
  /-- The thread that holds `mutex_notify`. -/
  mutex : Option τ
  thread : τ → Thread
  control : Control
  /-- The process has ended with `EXIT_FAILURE`. -/
  failed : Bool

/-- Whether the next step locks `mutex_notify`, in `pthread_cond_wait` too. -/
def Loc.locks : Loc → Bool
  | .lock | .woken => true
  | _ => false

def Loc.unlocks : Loc → Bool
  | .wait | .unlock => true
  | _ => false

/-- One step of `rw_thread_main`, apart from the mutex. -/
def Thread.next (pipeSize : Nat) (run sigReceive : Bool) (th : Thread) : Input → Option Thread
  | .go =>
      match th.loc with
      | .check => some { th with loc := if run then .sig else .lock }
      | .lock => some { th with loc := .wait }
      | .wait => some { th with loc := .asleep }
      | .woken => some { th with loc := .unlock }
      | .unlock => some { th with loc := .sig }
      | .sig => some { th with loc := if sigReceive then .ended else .read }
      | _ => none
  | .spurious => if th.loc = .asleep then some { th with loc := .woken } else none
  | .data bytes =>
      if th.loc = .read ∧ bytes.length ≤ pipeSize then
        -- without data the thread tries again later
        some (if bytes = [] then { th with loc := .check }
          else ⟨.write bytes.length 0, th.pipe ++ bytes⟩)
      else none
  | .moved n =>
      match th.loc with
      | .write rlen wlen =>
          if n ≤ rlen - wlen then
            some ⟨if wlen + n < rlen then .write rlen (wlen + n) else .check, th.pipe.drop n⟩
          else none
      | _ => none
  | .failed => none

/-- In a call whose failure ends the process. -/
def Loc.mayFail : Loc → Bool
  | .read | .write _ _ => true
  | _ => false

section Step

variable [DecidableEq τ] (pipeSize : Nat) (s : State τ)

/-- A step of thread `t`. -/
def threadStep (t : τ) (i : Input) : Option (State τ) :=
  let th := s.thread t
  if i = .failed then
    if th.loc.mayFail then some { s with failed := true } else none
  else if th.loc.locks ∧ s.mutex ≠ none then none
  else
    (th.next pipeSize s.globalRunOperation s.globalSigReceive i).map fun th' =>
      { s with
        mutex := if th.loc.locks then some t else if th.loc.unlocks then none else s.mutex
        thread := Function.update s.thread t th' }

/-- `pthread_cond_broadcast(&cond_wakeup)` -/
def State.broadcast (s : State τ) : State τ :=
  { s with
    thread := fun t =>
      if (s.thread t).loc = .asleep then { s.thread t with loc := .woken } else s.thread t }

/-- An order to run: two bytes, the first of which is '1'. -/
def isStart (buf : List UInt8) : Bool := decide (buf.length = 2) && decide (buf[0]? = some 49)

/-- An order to stop. -/
def isStop (buf : List UInt8) : Bool := decide (buf.length = 2) && decide (buf[0]? = some 48)

/-- One step of `rw_ctl_loop` and `wait_order`. -/
def controlStep : Order → Option (State τ)
  | .polled ret => if s.control = .poll then some { s with control := .check ret } else none
  | .go =>
      match s.control with
      | .check ret =>
          if s.signalled then some { s with control := .wake, globalSigReceive := true }
          else
            match ret with
            | .error => some { s with failed := true }
            | .timeout => some { s with control := .poll }
            | .ready => some { s with control := .read }
      | .wake => some { if s.globalRunOperation then s else s.broadcast with control := .join }
      | .start => some { s.broadcast with control := .poll }
      | _ => none
  | .message buf =>
      if s.control = .read then
        if isStart buf then some { s with control := .start, globalRunOperation := true }
        else if isStop buf then some { s with control := .poll, globalRunOperation := false }
        else some { s with control := .poll }
      else none
  | .failed => if s.control = .read then some { s with failed := true } else none

/-- One step; after an error there is none. -/
def step : Label τ → Option (State τ)
  | .thread t i => if s.failed then none else threadStep pipeSize s t i
  | .control o => if s.failed then none else controlStep s o
  | .signal => if s.failed then none else some { s with signalled := true }

end Step

/-- All threads have been started. -/
def start : State τ where
  globalRunOperation := false
  globalSigReceive := false
  signalled := false
  mutex := none
  thread := fun _ => ⟨.check, []⟩
  control := .poll
  failed := false

/-! ## One step -/

section Views

variable [DecidableEq τ] {pipeSize : Nat} {s s' : State τ}

/-- What a step of thread `t` can be. -/
theorem threadStep_cases {t : τ} {i : Input} (h : threadStep pipeSize s t i = some s') :
    (i = .failed ∧ s' = { s with failed := true }) ∨
      ((s.thread t).loc.locks = true → s.mutex = none) ∧
        ∃ th', (s.thread t).next pipeSize s.globalRunOperation s.globalSigReceive i = some th' ∧
          s' = { s with
            mutex := if (s.thread t).loc.locks then some t
              else if (s.thread t).loc.unlocks then none else s.mutex
            thread := Function.update s.thread t th' } := by
  rw [threadStep] at h
  split at h
  · split at h
    · exact .inl ⟨‹_›, (Option.some.inj h).symm⟩
    · cases h
  · split at h
    · cases h
    · rename_i hfree
      obtain ⟨th', hnext, rfl⟩ := Option.map_eq_some_iff.mp h
      refine .inr ⟨fun hlocks => ?_, th', hnext, rfl⟩
      by_contra hmutex
      exact hfree ⟨hlocks, hmutex⟩

omit [DecidableEq τ] in
theorem broadcast_thread (t : τ) :
    s.broadcast.thread t = s.thread t ∨
      (s.thread t).loc = .asleep ∧ s.broadcast.thread t = { s.thread t with loc := .woken } := by
  show (if _ then _ else _) = _ ∨ _ ∧ (if _ then _ else _) = _
  split
  · exact .inr ⟨‹_›, rfl⟩
  · exact .inl rfl

/-- The controller is about to wake up the threads. -/
def State.Waking (s : State τ) : Prop :=
  s.control = .start ∨ s.control = .wake ∧ s.globalRunOperation = false

omit [DecidableEq τ] in
/-- The controller does nothing to a thread, or it wakes it up. -/
theorem controlStep_thread {o : Order} (h : controlStep s o = some s') (t : τ) :
    s'.thread t = s.thread t ∨
      (s.thread t).loc = .asleep ∧ s'.thread t = { s.thread t with loc := .woken } ∧ s.Waking := by
  revert h
  fun_cases controlStep s o <;> intro h <;> cases h
  case case7 hwake =>
    cases hrun : s.globalRunOperation with
    | true => exact .inl rfl
    | false =>
        obtain hsame | ⟨hasleep, hwoken⟩ := broadcast_thread (s := s) t
        · exact .inl hsame
        · exact .inr ⟨hasleep, hwoken, .inr ⟨hwake, hrun⟩⟩
  case case8 hstart =>
    obtain hsame | ⟨hasleep, hwoken⟩ := broadcast_thread (s := s) t
    · exact .inl hsame
    · exact .inr ⟨hasleep, hwoken, .inl hstart⟩
  all_goals exact .inl rfl

/-- What a step of the agent is for thread `t`: none, a step of its own, or that it is woken. -/
theorem step_thread {l : Label τ} (h : step pipeSize s l = some s') (t : τ) :
    (s'.thread t = s.thread t ∧ ∀ i, l = .thread t i → i = .failed) ∨
      (∃ i, l = .thread t i ∧ (s.thread t).next pipeSize s.globalRunOperation s.globalSigReceive i =
        some (s'.thread t)) ∨
      (s.thread t).loc = .asleep ∧ s'.thread t = { s.thread t with loc := .woken } ∧
        (∃ o, l = .control o) ∧ s.Waking := by
  cases l with
  | thread u i =>
      rw [step] at h
      split at h
      · cases h
      · obtain ⟨hfailed, rfl⟩ | ⟨-, th', hnext, rfl⟩ := threadStep_cases h
        · refine .inl ⟨rfl, fun j hj => ?_⟩
          cases hj
          exact hfailed
        · by_cases hu : t = u
          · subst hu
            refine .inr (.inl ⟨i, rfl, ?_⟩)
            show _ = some (Function.update s.thread t th' t)
            rw [Function.update_self, hnext]
          · refine .inl ⟨Function.update_of_ne hu _ _, fun j hj => ?_⟩
            cases hj
            exact absurd rfl hu
  | control o =>
      rw [step] at h
      split at h
      · cases h
      · obtain hsame | ⟨hasleep, hwoken, hwaking⟩ := controlStep_thread h t
        · exact .inl ⟨hsame, fun i hi => by cases hi⟩
        · exact .inr (.inr ⟨hasleep, hwoken, ⟨o, rfl⟩, hwaking⟩)
  | signal =>
      rw [step] at h
      split at h
      · cases h
      · obtain rfl := Option.some.inj h
        exact .inl ⟨rfl, fun i hi => by cases hi⟩

end Views

end TpQemu.VirtioTrace

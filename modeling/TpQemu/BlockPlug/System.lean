import TpQemu.BlockPlug.Events
import TpQemu.Lib.Steps

/-!
# Plug operations

The four entry points of `BlockDevicesPlug` as a system that takes one step after
the other: the caller's thread, the threads of `_ThreadManager` and the monitor
interleave freely. A `Worker` is an object that runs `_hotplug_devs` or
`_unplug_devs`. In a serial operation the worker is the object the method was
called on; in a threaded one every thread works on an object of its own, and a
thread may outlive the operation, since joining it can time out.

What QEMU answers to a plug command, and whether virttest verifies it, is the choice
of the environment. The device selection of a worker, each plug command under
`_LOCK`, the check of the outputs and each poll of the monitor are one step each.
The number of disks in the guest, which the decorator of the entry points verifies,
is not part of the system.

`reports` and `observed` record the history of a run and influence no step.
-/

namespace TpQemu.BlockPlug

inductive Action where
  | hotplug
  | unplug
  deriving DecidableEq

def Action.name : Action → String
  | .hotplug => "hotplug"
  | .unplug => "unplug"

/-- The values `True`, `False` and `None` of a verification. -/
inductive Verdict where
  | verified
  | refuted
  | unknown
  deriving DecidableEq

/-- The pair `out, ver_out` that plugging a device returns. -/
structure Output where
  out : String
  verOut : Verdict
  deriving DecidableEq

/-- `_QMP_OUTPUT`. -/
abbrev Outputs := Dict String Output

/-! ## Checking the outputs -/

/-- The message of `_check_qmp_outputs`. -/
def outputError (action : Action) (devId : String) (output : Output) : String :=
  "Failed to " ++ action.name ++ " device " ++ devId ++ ". " ++
    if output.out = "" ∧ action = .unplug then
      "No deleted event generated and " ++ devId ++ " still in qtree"
    else output.out

/-- The loop of `_check_qmp_outputs`: it leaves at the first refuted output. -/
def popOutputs (action : Action) : List String → Outputs → Outputs × Option PyError
  | [], q => (q, none)
  | devId :: devIds, q =>
      match q.get? devId with
      | none => (q, some .keyError)
      | some output =>
          if output.verOut = .refuted then
            (q.erase devId, some (.testError (outputError action devId output)))
          else popOutputs action devIds (q.erase devId)

/-- `_check_qmp_outputs(action)`. -/
def checkQmpOutputs (action : Action) (q : Outputs) : Outputs × Option PyError :=
  popOutputs action q.keys q

/-- Some stored output is a failure. -/
def Failing (q : Outputs) : Prop := ∃ devId output, q.get? devId = some output ∧
  output.verOut = .refuted

/-! ## Workers -/

inductive Status where
  | ready
  /-- The devices still to be plugged; none when the worker has finished. -/
  | plugging (todo : List Device)
  | raised (e : PyError)

structure Worker where
  plug : Plug
  action : Action
  images : List String
  status : Status

/-- What operations, threads and the monitor share. -/
structure Shared where
  outputs : Outputs
  hbas : Hbas
  /-- The pending events of the monitor. -/
  log : List Event

/-- A step of a worker: selecting its devices, or one plug command and its outcome. -/
inductive WorkAct where
  | select (vm : Vm)
  | plug (result : Except PyError Output)

/-- The devices of a dictionary in the order `_plug_devs` visits them. -/
def allDevices (d : Dict String (List Device)) : List Device := d.entries.flatMap Prod.snd

/-- `_create_devices` or the first half of `_unplug_devs`. -/
def Worker.select (w : Worker) (sh : Shared) (vm : Vm) : Worker × Shared :=
  match w.action with
  | .hotplug =>
      let r := createDevices vm w.images sh.hbas
      ({ w with
          plug := { w.plug with hotpluggedDevs := r.1 }
          status := .plugging (allDevices r.1) },
        { sh with hbas := r.2 })
  | .unplug =>
      let r := collectDevices vm w.images sh.hbas
      ({ w with
          plug := { w.plug with unpluggedDevs := r.1 }
          status := match r.2.2 with
            | none => .plugging (allDevices r.1)
            | some e => .raised e },
        { sh with hbas := r.2.1 })

/-- A step of a worker, with the output it stores. -/
def Worker.step (w : Worker) (sh : Shared) :
    WorkAct → Option (Worker × Shared × Option (String × Output))
  | .select vm =>
      match w.status with
      | .ready => some ((w.select sh vm).1, (w.select sh vm).2, none)
      | _ => none
  | .plug result =>
      match w.status, result with
      | .plugging (dev :: todo), .ok output =>
          some ({ w with status := .plugging todo },
            { sh with outputs := sh.outputs.set dev.qid output }, some (dev.qid, output))
      | .plugging (_ :: _), .error e => some ({ w with status := .raised e }, sh, none)
      | _, _ => none

/-! ## Operations -/

inductive Mode where
  | serial
  | threaded
  deriving DecidableEq

/-- A call of an entry point: the object it is made on, the words of its `images`
argument if that is not empty, the images of the machine's parameters without the
first, and `multiprocessing.cpu_count()`. -/
structure Call where
  mode : Mode
  action : Action
  plug : Plug
  images : Option (List String)
  vmImages : List String
  cpuCount : Nat

/-- The images a call is about. -/
def Call.requested (c : Call) : List String := c.images.getD c.plug.imgs

/-- `BlockDevicesPlug(vm)`. -/
def newPlug (vmImages : List String) : Plug where
  imgs := vmImages
  hotpluggedDevs := ∅
  unpluggedDevs := ∅
  eventDevs := []

/-- `imgs[i::step]`. -/
def everyNth (imgs : List String) (i step : Nat) : List String :=
  (imgs.zipIdx.filter fun p => p.2 % step = i).map Prod.fst

/-- The threads of `_initial_threads`. -/
def Call.threads (c : Call) : List Worker :=
  let maxThreads := min c.requested.length (2 * c.cpuCount)
  (List.range maxThreads).map fun i =>
    ⟨newPlug c.vmImages, c.action, everyNth c.requested i maxThreads, .ready⟩

/-- Where the caller's thread stands. -/
inductive Phase where
  /-- A serial operation, in `_hotplug_devs` or `_unplug_devs`. -/
  | working
  /-- A threaded operation with this many threads still to be joined. -/
  | joining (n : Nat)
  | checking
  | waiting
  | returned
  | raised (e : PyError)
  deriving DecidableEq

/-- No operation is in progress. -/
def Phase.idle : Phase → Bool
  | .returned | .raised _ => true
  | _ => false

structure State where
  shared : Shared
  /-- The number of the current operation. -/
  op : Nat
  /-- The object of the current operation. -/
  main : Worker
  phase : Phase
  /-- The threads started so far, each with the number of its operation. -/
  threads : List (Nat × Worker)
  /-- Every output stored so far, with the number of the operation that stored it. -/
  reports : List (Nat × String × Output)
  /-- The images whose deletion event a poll of the current operation has found. -/
  observed : List String

inductive Label where
  | call (c : Call)
  /-- The monitor receives an event. -/
  | arrive (e : Event)
  /-- The caller's thread works on a serial operation. -/
  | work (act : WorkAct)
  /-- A step of one of the threads. -/
  | thread (i : Nat) (act : WorkAct)
  /-- The next thread is joined, be it finished or not; behind the last thread the
  manager is asked for the threads' exceptions. -/
  | join
  | check
  | poll
  /-- The time for the deletion events is up. -/
  | timeout

/-- The exception of the first thread of an operation that has one. -/
def firstRaised (op : Nat) (threads : List (Nat × Worker)) : Option PyError :=
  threads.findSome? fun t =>
    match t.2.status with
    | .raised e => if t.1 = op then some e else none
    | _ => none

/-- The phase of a serial operation after a step of its worker. -/
def workPhase : Status → Phase
  | .ready => .working
  | .plugging [] => .checking
  | .plugging (_ :: _) => .working
  | .raised e => .raised e

def State.start (s : State) (c : Call) : State where
  shared := s.shared
  op := s.op + 1
  main := ⟨{ c.plug with imgs := c.requested }, c.action, c.requested, .ready⟩
  phase := match c.mode with
    | .serial => .working
    | .threaded => .joining c.threads.length
  threads := match c.mode with
    | .serial => s.threads
    | .threaded => s.threads ++ c.threads.map fun w => (s.op + 1, w)
  reports := s.reports
  observed := []

/-- The reports with one more output of an operation. -/
def addReport (reports : List (Nat × String × Output)) (op : Nat) :
    Option (String × Output) → List (Nat × String × Output)
  | some r => reports ++ [(op, r)]
  | none => reports

def State.step (s : State) : Label → Option State
  | .call c => if s.phase.idle then some (s.start c) else none
  | .arrive e => some { s with shared := { s.shared with log := s.shared.log ++ [e] } }
  | .work act =>
      if s.phase = .working then
        (s.main.step s.shared act).map fun r =>
          { s with
            main := r.1, shared := r.2.1, phase := workPhase r.1.status
            reports := addReport s.reports s.op r.2.2 }
      else none
  | .thread i act =>
      match s.threads[i]? with
      | some t =>
          (t.2.step s.shared act).map fun r =>
            { s with
              threads := s.threads.set i (t.1, r.1), shared := r.2.1
              reports := addReport s.reports t.1 r.2.2 }
      | none => none
  | .join =>
      match s.phase with
      | .joining (n + 1) => some { s with phase := .joining n }
      | .joining 0 =>
          match firstRaised s.op s.threads with
          | some e => some { s with phase := .raised e }
          | none => some { s with phase := .checking }
      | _ => none
  | .check =>
      if s.phase = .checking then
        let r := checkQmpOutputs s.main.action s.shared.outputs
        some { s with
          shared := { s.shared with outputs := r.1 }
          phase := match r.2, s.main.action with
            | some e, _ => .raised e
            | none, .hotplug => .returned
            | none, .unplug => .waiting }
      else none
  | .poll =>
      if s.phase = .waiting then
        let r := getEventsDeleted (s.main.plug, s.shared.log)
        some { s with
          main := { s.main with plug := r.2.1 }
          shared := { s.shared with log := r.2.2 }
          phase := if r.1 then .returned else .waiting
          observed := s.observed ++ s.shared.log.filterMap Event.deleted }
      else none
  | .timeout =>
      if s.phase = .waiting then
        some { s with phase := .raised (.testError
          ("No \"DEVICE DELETED\" event generated after unplug \"" ++
            ";".intercalate s.main.plug.eventDevs ++ "\".")) }
      else none

/-! ## The steps -/

section Steps

variable {s s' : State}

theorem step_call {c : Call} (h : s.step (.call c) = some s') :
    s.phase.idle = true ∧ s' = s.start c := by
  rw [State.step, Option.ite_none_right_eq_some, Option.some.injEq] at h
  exact ⟨h.1, h.2.symm⟩

theorem step_work {act : WorkAct} (h : s.step (.work act) = some s') :
    s.phase = .working ∧ ∃ r, s.main.step s.shared act = some r ∧
      s' = { s with
        main := r.1, shared := r.2.1, phase := workPhase r.1.status
        reports := addReport s.reports s.op r.2.2 } := by
  rw [State.step, Option.ite_none_right_eq_some, Option.map_eq_some_iff] at h
  obtain ⟨hphase, r, hr, hs'⟩ := h
  exact ⟨hphase, r, hr, hs'.symm⟩

theorem step_thread {i : Nat} {act : WorkAct} (h : s.step (.thread i act) = some s') :
    ∃ t r, s.threads[i]? = some t ∧ t.2.step s.shared act = some r ∧
      s' = { s with
        threads := s.threads.set i (t.1, r.1), shared := r.2.1
        reports := addReport s.reports t.1 r.2.2 } := by
  rw [State.step] at h
  split at h
  · rename_i t ht
    obtain ⟨r, hr, rfl⟩ := Option.map_eq_some_iff.mp h
    exact ⟨t, r, ht, hr, rfl⟩
  · cases h

theorem step_join (h : s.step .join = some s') :
    (∃ n, s.phase = .joining (n + 1) ∧ s' = { s with phase := .joining n }) ∨
      (s.phase = .joining 0 ∧
        ((∃ e, firstRaised s.op s.threads = some e ∧ s' = { s with phase := .raised e }) ∨
          (firstRaised s.op s.threads = none ∧ s' = { s with phase := .checking }))) := by
  rw [State.step] at h
  split at h
  · rename_i n hphase
    cases h
    exact .inl ⟨n, hphase, rfl⟩
  · rename_i hphase
    split at h
    · rename_i e he
      cases h
      exact .inr ⟨hphase, .inl ⟨e, he, rfl⟩⟩
    · rename_i hnone
      cases h
      exact .inr ⟨hphase, .inr ⟨hnone, rfl⟩⟩
  · cases h

theorem step_check (h : s.step .check = some s') :
    s.phase = .checking ∧
      s' = { s with
        shared := { s.shared with
          outputs := (checkQmpOutputs s.main.action s.shared.outputs).1 }
        phase := match (checkQmpOutputs s.main.action s.shared.outputs).2, s.main.action with
          | some e, _ => .raised e
          | none, .hotplug => .returned
          | none, .unplug => .waiting } := by
  rw [State.step, Option.ite_none_right_eq_some, Option.some.injEq] at h
  exact ⟨h.1, h.2.symm⟩

theorem step_poll (h : s.step .poll = some s') :
    s.phase = .waiting ∧
      s' = { s with
        main := { s.main with plug := (getEventsDeleted (s.main.plug, s.shared.log)).2.1 }
        shared := { s.shared with log := (getEventsDeleted (s.main.plug, s.shared.log)).2.2 }
        phase := if (getEventsDeleted (s.main.plug, s.shared.log)).1 then .returned else .waiting
        observed := s.observed ++ s.shared.log.filterMap Event.deleted } := by
  rw [State.step, Option.ite_none_right_eq_some, Option.some.injEq] at h
  exact ⟨h.1, h.2.symm⟩

theorem step_timeout (h : s.step .timeout = some s') :
    s.phase = .waiting ∧ ∃ e, s' = { s with phase := .raised e } := by
  rw [State.step, Option.ite_none_right_eq_some, Option.some.injEq] at h
  exact ⟨h.1, _, h.2.symm⟩

end Steps

end TpQemu.BlockPlug

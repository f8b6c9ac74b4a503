import TpQemu.InputEvent.EventCodes
import TpQemu.Lib.Fields
import TpQemu.Lib.Steps

/-!
# The agent in a Linux guest

`listen` of `deps/input_event/input_event_linux.py` waits for the watched devices, reads one
record from each one that is readable and sends it to the listener as an `EVENT` message. A
read that fails, or gives less than a record, is answered with an `ERROR` message, and the
device is not watched any longer.

The statements behind the `try` block are run after a failure, too. They send the record
that was unpacked last, whatever device it came from, in the name of the device that has
failed; when nothing has been unpacked yet, they raise.
-/

namespace TpQemu.InputEvent

open Words

/-! ## Records -/

/-- `struct input_event`, as the kernel fills it in. -/
structure InputRecord where
  sec : Int
  usec : Int
  type : Nat
  code : Nat
  value : Int

/-- The record in the memory of the machine. -/
def InputRecord.bytes (o : ByteOrder) (r : InputRecord) : List UInt8 :=
  packField o 8 (complement 8 r.sec) ++ packField o 8 (complement 8 r.usec) ++
    packField o 2 r.type ++ packField o 2 r.code ++ packField o 4 (complement 4 r.value)

/-- The tuple `raw_event`. -/
structure RawEvent where
  tvSec : Int
  tvUsec : Int
  evType : Nat
  evCode : Nat
  evValue : Nat
  deriving DecidableEq

/-- `EV_PACK_SIZE` -/
def evPackSize : Nat := 24

/-- `struct.unpack(EV_PACK_FMT, data)`, where the format is `llHHI`. -/
def unpackEvent (o : ByteOrder) (data : List UInt8) : Option RawEvent :=
  if data.length = evPackSize then
    some {
      tvSec := signedValue 8 (unpack o (data.take 8))
      tvUsec := signedValue 8 (unpack o ((data.drop 8).take 8))
      evType := unpack o ((data.drop 16).take 2)
      evCode := unpack o ((data.drop 18).take 2)
      evValue := unpack o (data.drop 20) }
  else none

/-- The dictionary `event` of a message. -/
structure AgentEvent where
  typeNum : Nat
  typeName : TypeName
  codeNum : Nat
  codeName : String
  value : Nat
  timestamp : Int
  deriving DecidableEq

/-- `format_event(raw_event)` -/
def formatEvent (raw : RawEvent) : AgentEvent where
  typeNum := raw.evType
  typeName := typeName raw.evType
  codeNum := raw.evCode
  codeName := codeName raw.evType raw.evCode
  value := raw.evValue
  timestamp := raw.tvSec * 1000000 + raw.tvUsec

/-- What the listener reads of the event. -/
def AgentEvent.native (e : AgentEvent) : NativeEvent := ⟨e.typeName, e.codeName, e.value⟩

/-! ## The loop -/

inductive AgentMessage where
  | event (dev : String) (e : AgentEvent)
  | error (dev : String) (message : String)
  deriving DecidableEq

/-- What `os.read` gives. -/
inductive ReadOutcome where
  | data (bytes : List UInt8)
  | error (details : String)

/-- The `try` block: the record, or what the exception says. -/
def ReadOutcome.unpacked (o : ByteOrder) : ReadOutcome → Except String RawEvent
  | .data bytes =>
      match unpackEvent o bytes with
      | some raw => .ok raw
      | none => .error "unpack requires a buffer of 24 bytes"
  | .error details => .error details

/-- A readable descriptor with the outcome of its read. -/
structure AgentRead where
  fd : Nat
  outcome : ReadOutcome

inductive AgentPhase where
  | selecting
  | ended
  | raised (e : PyError)
  deriving DecidableEq

structure Agent where
  watch : List Nat
  /-- The variable `raw_event`, once it is bound. -/
  rawEvent : Option RawEvent
  out : List AgentMessage
  phase : AgentPhase

section Listen

variable (o : ByteOrder) (devs : Dict Nat String)

/-- `failed to get event: %s` -/
def failureText (details : String) : String := "failed to get event: " ++ details

/-- `event_notify(dev, format_event(raw_event))` -/
def Agent.notify (s : Agent) (dev : String) : Agent :=
  match s.rawEvent with
  | some raw => { s with out := s.out ++ [.event dev (formatEvent raw)] }
  | none => { s with phase := .raised .unboundLocalError }

/-- The `except` block. -/
def Agent.fail (s : Agent) (fd : Nat) (dev details : String) : Agent :=
  { s with out := s.out ++ [.error dev (failureText details)], watch := s.watch.erase fd }

/-- The body of the loop over the readable descriptors; an exception skips the rest. -/
def Agent.read (s : Agent) (r : AgentRead) : Agent :=
  match s.phase, devs.get? r.fd with
  | .selecting, some dev =>
      match r.outcome.unpacked o with
      | .ok raw => { s with rawEvent := some raw }.notify dev
      | .error details => (s.fail r.fd dev details).notify dev
  | .selecting, none => { s with phase := .raised .keyError }
  | _, _ => s

/-- `if not watch: break` -/
def Agent.endRound (s : Agent) : Agent :=
  if s.phase = .selecting ∧ s.watch = [] then { s with phase := .ended } else s

/-- A round: `select` gives some of the watched descriptors, at least one. -/
def Agent.step (s : Agent) (reads : List AgentRead) : Option Agent :=
  if s.phase = .selecting ∧ reads ≠ [] ∧ (reads.map AgentRead.fd).Nodup ∧
      ∀ r ∈ reads, r.fd ∈ s.watch then
    some (reads.foldl (Agent.read o devs) s).endRound
  else none

/-- `listen(devs)`, before the first round. -/
def Agent.initial : Agent := ⟨devs.keys, none, [], .selecting⟩

end Listen

/-! ## What the agent should report -/

section Reports

variable (o : ByteOrder) (devs : Dict Nat String)

/-- The read gives a record. -/
def AgentRead.succeeds (r : AgentRead) : Bool := (r.outcome.unpacked o).isOk

/-- The message for a read: the record it gives or what went wrong. -/
def AgentRead.message (r : AgentRead) : AgentMessage :=
  let dev := (devs.get? r.fd).getD ""
  match r.outcome.unpacked o with
  | .ok raw => .event dev (formatEvent raw)
  | .error details => .error dev (failureText details)

/-- One message for each read, no read behind a failed one, and an end without an
exception when no device is left. -/
structure ReportsOnce (reads : List AgentRead) (s : Agent) : Prop where
  messages : s.out = reads.map (AgentRead.message o devs)
  silent : ∀ before r after, reads = before ++ r :: after → r.succeeds o = false →
    ∀ r' ∈ after, r'.fd ≠ r.fd
  calm : ∀ e, s.phase ≠ .raised e
  ends : s.phase = .ended ↔ s.watch = []

end Reports

section Reads

variable {o : ByteOrder} {devs : Dict Nat String}

theorem read_of_succeeds {s : Agent} {r : AgentRead} (hphase : s.phase = .selecting)
    (hfd : r.fd ∈ devs.keys) (h : r.succeeds o = true) :
    ∃ raw, Agent.read o devs s r =
      { s with rawEvent := some raw, out := s.out ++ [r.message o devs] } := by
  obtain ⟨dev, hdev⟩ := Dict.mem_keys_iff.mp hfd
  rw [AgentRead.succeeds] at h
  cases hraw : r.outcome.unpacked o with
  | error details =>
      rw [hraw] at h
      cases h
  | ok raw =>
      refine ⟨raw, ?_⟩
      simp only [Agent.read, Agent.notify, AgentRead.message, hphase, hdev, hraw, Option.getD_some]

/-- Reads that succeed leave the list of the watched devices as it is. -/
theorem foldl_read_of_succeeds {reads : List AgentRead} {s : Agent}
    (hphase : s.phase = .selecting) (hfd : ∀ r ∈ reads, r.fd ∈ devs.keys)
    (h : ∀ r ∈ reads, r.succeeds o = true) :
    (reads.foldl (Agent.read o devs) s).phase = .selecting ∧
      (reads.foldl (Agent.read o devs) s).watch = s.watch ∧
      (reads.foldl (Agent.read o devs) s).out = s.out ++ reads.map (AgentRead.message o devs) := by
  induction reads generalizing s with
  | nil => exact ⟨hphase, rfl, (List.append_nil _).symm⟩
  | cons r reads ih =>
      obtain ⟨raw, hread⟩ := read_of_succeeds hphase (hfd r List.mem_cons_self)
        (h r List.mem_cons_self)
      have hphase' : (Agent.read o devs s r).phase = .selecting := by rw [hread]; exact hphase
      obtain ⟨hrest, hwatch, hout⟩ := ih hphase' (fun r' hr' => hfd r' (List.mem_cons_of_mem r hr'))
        fun r' hr' => h r' (List.mem_cons_of_mem r hr')
      refine ⟨hrest, hwatch.trans (by rw [hread]), hout.trans ?_⟩
      rw [hread, List.map_cons, List.append_assoc]
      rfl

/-- Every read makes a message, and every failed one a second message. -/
def Counted (n : Nat) (s : Agent) : Prop := (∃ e, s.phase = .raised e) ∨ s.out.length = n

theorem counted_notify {n : Nat} {s : Agent} (hlength : s.out.length = n) (dev : String) :
    Counted (n + 1) (s.notify dev) := by
  rw [Agent.notify]
  split
  · refine .inr ?_
    rw [List.length_append, List.length_singleton, hlength]
  · exact .inl ⟨_, rfl⟩

theorem notify_phase {s : Agent} (h : s.phase ≠ .ended) (dev : String) :
    (s.notify dev).phase ≠ .ended := by
  rw [Agent.notify]
  split
  · exact h
  · intro hraised
    cases hraised

/-- The number of messages for a read. -/
def AgentRead.cost (o : ByteOrder) (r : AgentRead) : Nat := if r.succeeds o then 1 else 2

theorem counted_read {n : Nat} {s : Agent} (hs : Counted n s) (hphase : s.phase ≠ .ended)
    (r : AgentRead) :
    Counted (n + r.cost o) (Agent.read o devs s r) ∧ (Agent.read o devs s r).phase ≠ .ended := by
  cases hcase : s.phase with
  | ended => exact absurd hcase hphase
  | raised e =>
      have hread : Agent.read o devs s r = s := by simp only [Agent.read, hcase]
      rw [hread]
      exact ⟨.inl ⟨e, hcase⟩, hphase⟩
  | selecting =>
      have hlength : s.out.length = n := by
        obtain ⟨e, he⟩ | hlength := hs
        · cases hcase.symm.trans he
        · exact hlength
      cases hdev : devs.get? r.fd with
      | none =>
          simp only [Agent.read, hcase, hdev]
          exact ⟨.inl ⟨_, rfl⟩, fun h => by cases h⟩
      | some dev =>
          cases hraw : r.outcome.unpacked o with
          | ok raw =>
              have hcost : r.cost o = 1 := by rw [AgentRead.cost, AgentRead.succeeds, hraw]; rfl
              simp only [Agent.read, hcase, hdev, hraw, hcost]
              refine ⟨counted_notify ?_ dev, notify_phase ?_ dev⟩
              · exact hlength
              · intro h
                cases h
          | error details =>
              have hcost : r.cost o = 2 := by rw [AgentRead.cost, AgentRead.succeeds, hraw]; rfl
              have hfail : (s.fail r.fd dev details).out.length = n + 1 := by
                rw [Agent.fail, List.length_append, List.length_singleton, hlength]
              simp only [Agent.read, hcase, hdev, hraw, hcost]
              refine ⟨counted_notify hfail dev, notify_phase ?_ dev⟩
              show s.phase ≠ .ended
              exact hphase

theorem counted_foldl (o : ByteOrder) (devs : Dict Nat String) (reads : List AgentRead) {n : Nat}
    {s : Agent} (hs : Counted n s) (hphase : s.phase ≠ .ended) :
    Counted (n + (reads.map (AgentRead.cost o)).sum) (reads.foldl (Agent.read o devs) s) ∧
      (reads.foldl (Agent.read o devs) s).phase ≠ .ended := by
  induction reads generalizing n s with
  | nil => exact ⟨hs, hphase⟩
  | cons r reads ih =>
      obtain ⟨hread, hnext⟩ := counted_read hs hphase r
      rw [List.map_cons, List.sum_cons, ← Nat.add_assoc]
      exact ih hread hnext

theorem length_le_cost (o : ByteOrder) (reads : List AgentRead) :
    reads.length ≤ (reads.map (AgentRead.cost o)).sum := by
  induction reads with
  | nil => exact Nat.le_refl 0
  | cons r reads ih =>
      have hpos : 1 ≤ r.cost o := by
        rw [AgentRead.cost]
        split <;> decide
      rw [List.map_cons, List.sum_cons, List.length_cons]
      omega

/-- A failed read makes more messages than there were reads. -/
theorem length_lt_cost {reads : List AgentRead} (h : ∃ r ∈ reads, r.succeeds o = false) :
    reads.length < (reads.map (AgentRead.cost o)).sum := by
  obtain ⟨r, hr, hfails⟩ := h
  obtain ⟨before, after, rfl⟩ := List.append_of_mem hr
  have hcost : r.cost o = 2 := by rw [AgentRead.cost, hfails]; rfl
  have hbefore := length_le_cost o before
  have hafter := length_le_cost o after
  rw [List.map_append, List.map_cons, List.sum_append, List.sum_cons, List.length_append,
    List.length_cons, hcost]
  omega

end Reads

/-! ## Runs -/

section Runs

variable {o : ByteOrder} {devs : Dict Nat String} {s s' : Agent}

theorem agent_step {reads : List AgentRead} (h : s.step o devs reads = some s') :
    s.phase = .selecting ∧ reads ≠ [] ∧ (∀ r ∈ reads, r.fd ∈ s.watch) ∧
      s' = (reads.foldl (Agent.read o devs) s).endRound := by
  rw [Agent.step, Option.ite_none_right_eq_some, Option.some.injEq] at h
  obtain ⟨⟨hphase, hne, -, hfd⟩, hs'⟩ := h
  exact ⟨hphase, hne, hfd, hs'.symm⟩

theorem endRound_out (s : Agent) : s.endRound.out = s.out := by
  rw [Agent.endRound]
  split <;> rfl

theorem endRound_raised {e : PyError} (h : s.phase = .raised e) : s.endRound = s := by
  rw [Agent.endRound, if_neg]
  rintro ⟨hselecting, -⟩
  cases h.symm.trans hselecting

/-- Every read of a run makes a message, and every failed one a second message. -/
theorem counted_run {rounds : List (List AgentRead)} {n : Nat} (hs : Counted n s)
    (hrun : runSteps (Agent.step o devs) s rounds = some s') :
    Counted (n + (rounds.flatten.map (AgentRead.cost o)).sum) s' := by
  induction rounds generalizing n s with
  | nil =>
      cases hrun
      exact hs
  | cons reads rounds ih =>
      obtain ⟨t, ht, hrest⟩ := Option.bind_eq_some_iff.mp hrun
      obtain ⟨hphase, -, -, rfl⟩ := agent_step ht
      have hround : Counted (n + (reads.map (AgentRead.cost o)).sum)
          (reads.foldl (Agent.read o devs) s).endRound := by
        obtain ⟨hcounted, -⟩ := counted_foldl o devs reads hs (by rw [hphase]; decide)
        obtain ⟨e, he⟩ | hlength := hcounted
        · rw [endRound_raised he]
          exact .inl ⟨e, he⟩
        · exact .inr ((congrArg List.length (endRound_out _)).trans hlength)
      rw [List.flatten_cons, List.map_append, List.sum_append, ← Nat.add_assoc]
      exact ih hround hrest

/-- A run whose reads all succeed. -/
theorem run_of_succeeds {rounds : List (List AgentRead)} (hphase : s.phase = .selecting)
    (hwatch : s.watch = devs.keys) (hdevs : devs.keys ≠ [])
    (h : ∀ r ∈ rounds.flatten, r.succeeds o = true)
    (hrun : runSteps (Agent.step o devs) s rounds = some s') :
    s'.phase = .selecting ∧ s'.watch = devs.keys ∧
      s'.out = s.out ++ rounds.flatten.map (AgentRead.message o devs) := by
  induction rounds generalizing s with
  | nil =>
      cases hrun
      exact ⟨hphase, hwatch, (List.append_nil _).symm⟩
  | cons reads rounds ih =>
      obtain ⟨t, ht, hrest⟩ := Option.bind_eq_some_iff.mp hrun
      obtain ⟨-, -, hfd, rfl⟩ := agent_step ht
      obtain ⟨hphase', hwatch', hout⟩ := foldl_read_of_succeeds hphase
        (fun r hr => hwatch ▸ hfd r hr) fun r hr => h r (List.mem_append_left _ hr)
      have hround : (reads.foldl (Agent.read o devs) s).endRound =
          reads.foldl (Agent.read o devs) s := by
        rw [Agent.endRound, if_neg]
        rintro ⟨-, hempty⟩
        exact hdevs (hwatch.symm.trans (hwatch'.symm.trans hempty))
      rw [hround] at hrest
      obtain ⟨hlast, hkeys, hall⟩ := ih hphase' (hwatch'.trans hwatch)
        (fun r hr => h r (List.mem_append_right _ hr)) hrest
      refine ⟨hlast, hkeys, hall.trans ?_⟩
      rw [hout, List.flatten_cons, List.map_append, List.append_assoc]

/-- The agent reports every read once exactly when none of them has failed, unless there
has never been a device to wait for. -/
theorem reportsOnce_iff (o : ByteOrder) (devs : Dict Nat String)
    (rounds : List (List AgentRead)) (s : Agent)
    (hrun : runSteps (Agent.step o devs) (Agent.initial devs) rounds = some s) :
    ReportsOnce o devs rounds.flatten s ↔
      devs.keys ≠ [] ∧ ∀ r ∈ rounds.flatten, r.succeeds o = true := by
  constructor
  · intro h
    constructor
    · intro hempty
      -- Without a watched device `select` never returns.
      cases rounds with
      | nil =>
          cases hrun
          cases h.ends.mpr hempty
      | cons reads rounds =>
          obtain ⟨t, ht, -⟩ := Option.bind_eq_some_iff.mp hrun
          obtain ⟨-, hne, hfd, -⟩ := agent_step ht
          obtain ⟨r, reads, rfl⟩ := List.exists_cons_of_ne_nil hne
          have hmem : r.fd ∈ devs.keys := hfd r List.mem_cons_self
          rw [hempty] at hmem
          cases hmem
    · intro r hr
      by_contra hfails
      have hcounted := counted_run (n := 0) (.inr rfl) hrun
      obtain ⟨e, he⟩ | hlength := hcounted
      · exact h.calm e he
      · have hlt := length_lt_cost ⟨r, hr, Bool.eq_false_iff.mpr hfails⟩
        rw [h.messages, List.length_map] at hlength
        omega
  · rintro ⟨hdevs, h⟩
    obtain ⟨hphase, hwatch, hout⟩ := run_of_succeeds rfl rfl hdevs h hrun
    refine ⟨hout, fun before r after hreads hfails => ?_, fun e he => ?_, ?_⟩
    · have hr : r ∈ rounds.flatten := hreads ▸ List.mem_append_right _ List.mem_cons_self
      rw [h r hr] at hfails
      cases hfails
    · cases hphase.symm.trans he
    · rw [hphase, hwatch]
      exact iff_of_false (fun hended => by cases hended) hdevs

end Runs

def mouseRecord : InputRecord := ⟨1, 0, 2, 0, 5⟩

def twoDevices : Dict Nat String := ((∅ : Dict Nat String).set 3 "event3").set 4 "event4"

/-- The mouse sends a record. -/
def movedMouse : List (List AgentRead) := [[⟨3, .data (mouseRecord.bytes .little)⟩]]

theorem reportsOnce_movedMouse :
    ∃ s, runSteps (Agent.step .little twoDevices) (Agent.initial twoDevices) movedMouse = some s ∧
      ReportsOnce .little twoDevices movedMouse.flatten s := by
  refine ⟨_, rfl, (reportsOnce_iff .little twoDevices movedMouse _ rfl).mpr ⟨by decide, ?_⟩⟩
  intro r hr
  obtain rfl := List.mem_singleton.mp hr
  rfl

/-- The mouse is unplugged after its first record. -/
def unpluggedMouse : List (List AgentRead) :=
  movedMouse ++ [[⟨3, .error "[Errno 19] No such device"⟩]]

/-- The record of the mouse is sent a second time. -/
theorem unplugged_mouse_reported_again :
    ∃ s, runSteps (Agent.step .little twoDevices) (Agent.initial twoDevices) unpluggedMouse =
        some s ∧ s.out.length = 3 ∧ ¬ReportsOnce .little twoDevices unpluggedMouse.flatten s := by
  refine ⟨_, rfl, rfl, fun h => ?_⟩
  have hlength := congrArg List.length h.messages
  revert hlength
  decide

end TpQemu.InputEvent

import TpQemu.InputEvent.Frames
import TpQemu.Lib.Steps

/-!
# Starting a listener

The constructor of `EventListenerLinux` runs while the output callback of the agent's
session already delivers messages on another thread. The base constructor launches
the agent and waits for `READY`; only behind it is the attribute `_buffers` created.
The agent announces its devices before `READY`, so that every announcement finds the
attribute missing and its handler raises.

The constructor's steps and the deliveries interleave freely once the agent has been
launched. A handler that raises leaves the deliveries to go on or to stop, as the
session may have it.
-/

namespace TpQemu.InputEvent

/-- Where the constructor stands. -/
inductive Ctor where
  /-- Before the base constructor has set its fields. -/
  | entered
  /-- The fields are set and the agent is installed. -/
  | installed
  /-- The agent is launched; `_listen` polls `is_listening`. -/
  | waiting
  /-- The base constructor has returned. -/
  | listening
  | returned
  /-- `_listen` has raised. -/
  | failed
  deriving DecidableEq

structure Startup where
  ctor : Ctor
  listener : Listener
  /-- What the agent still has to send. -/
  stream : List Message
  /-- What the callback has been given. -/
  delivered : List Message
  /-- The exceptions that left a handler. -/
  raised : List PyError

inductive StartLabel where
  | setFields
  | launch
  /-- One poll of `is_listening`. -/
  | poll
  | timeout
  | createBuffers
  /-- The next line of the agent reaches the callback. -/
  | deliver
  deriving DecidableEq

/-- The agent has been launched. -/
def Ctor.launched : Ctor → Bool
  | .entered | .installed => false
  | _ => true

/-- The callback handles a message. -/
def Startup.deliver (s : Startup) (m : Message) (rest : List Message) : Startup :=
  let r := s.listener.parseOutput m
  { s with
    listener := r.1, stream := rest, delivered := s.delivered ++ [m]
    raised := s.raised ++ r.2.toList }

def Startup.step (s : Startup) : StartLabel → Option Startup
  | .setFields =>
      if s.ctor = .entered then
        some { s with
          ctor := .installed
          listener := { s.listener with events := [], agentState := .stopped } }
      else none
  | .launch => if s.ctor = .installed then some { s with ctor := .waiting } else none
  | .poll =>
      if s.ctor = .waiting then
        if s.listener.agentState = .listening then some { s with ctor := .listening } else some s
      else none
  | .timeout => if s.ctor = .waiting then some { s with ctor := .failed } else none
  | .createBuffers =>
      if s.ctor = .listening then
        some { s with ctor := .returned, listener := { s.listener with buffers := some ∅ } }
      else none
  | .deliver =>
      if s.ctor.launched then
        match s.stream with
        | m :: rest => some (s.deliver m rest)
        | [] => none
      else none

/-- The agent's output: its greeting, an announcement for each device, and the native
events that follow. -/
def agentStream (devs : List String) (events : List (String × NativeEvent)) : List Message :=
  .sync :: (devs.map .info ++ .ready :: events.map fun p => .event p.1 p.2)

/-- Before the constructor is called. -/
def Startup.initial (devs : List String) (events : List (String × NativeEvent)) : Startup where
  ctor := .entered
  listener := ⟨[], none, [], .stopped⟩
  stream := agentStream devs events
  delivered := []
  raised := []

/-- All delivered native events of a device are in its buffer or have been queued. -/
def Accounted (s : Startup) (dev : String) : Prop :=
  ∃ buffers r, s.listener.buffers = some buffers ∧ buffers.get? dev = some r ∧
    s.listener.deref r = lastBuffer ∅ (nativeOf dev s.delivered) ∧
    s.listener.queuedFor dev = frames dev (nativeOf dev s.delivered)

/-- No handler has raised, and once the constructor has returned every announced device
has a buffer that accounts for its events. -/
def StartsUp (s : Startup) : Prop :=
  s.raised = [] ∧
    (s.ctor = .returned → ∀ dev, .info dev ∈ s.delivered → Accounted s dev)

/-! ## Runs -/

/-- The deliveries so far are the beginning of the agent's output, `READY` among them
once the base constructor has returned, and before the buffers exist every delivered
announcement has raised. -/
structure StartInv (full : List Message) (s : Startup) : Prop where
  stream_eq : s.delivered ++ s.stream = full
  ready : s.listener.agentState = .listening ∨ s.ctor = .listening ∨ s.ctor = .returned →
    .ready ∈ s.delivered
  missing : s.ctor ≠ .returned → s.listener.buffers = none
  announced : s.ctor ≠ .returned → ∀ dev, .info dev ∈ s.delivered → s.raised ≠ []
  kept : s.ctor = .returned → (∃ dev, .info dev ∈ full) → s.raised ≠ []

/-- Once `READY` has been delivered, so have all announcements. -/
theorem info_delivered {devs : List String} {events : List (String × NativeEvent)}
    {before after : List Message} (h : before ++ after = agentStream devs events)
    (hready : .ready ∈ before) {dev : String} (hinfo : .info dev ∈ agentStream devs events) :
    .info dev ∈ before := by
  have hmem : .info dev ∈ Message.sync :: devs.map Message.info := by
    simp only [agentStream, List.mem_cons, List.mem_append, List.mem_map] at hinfo ⊢
    obtain hsync | hdev | hready | ⟨p, -, hevent⟩ := hinfo
    · exact .inl hsync
    · exact .inr hdev
    · cases hready
    · cases hevent
  rw [agentStream, ← List.cons_append] at h
  obtain ⟨rest, hbefore, -⟩ | ⟨rest, hfront, -⟩ := List.append_eq_append_iff.mp h.symm
  · rw [hbefore]
    exact List.mem_append_left _ hmem
  · have hfalse : Message.ready ∈ Message.sync :: devs.map Message.info := by
      rw [hfront]
      exact List.mem_append_left _ hready
    simp at hfalse

/-- A handler never removes the attribute, and without it announcements raise. -/
theorem parseOutput_missing {l : Listener} (h : l.buffers = none) (m : Message) :
    (l.parseOutput m).1.buffers = none ∧
      (∀ dev, m = .info dev → (l.parseOutput m).2 = some .attributeError) := by
  cases m with
  | info dev =>
      have hresult : l.parseOutput (.info dev) = (l, some .attributeError) := by
        simp only [Listener.parseOutput, Listener.reportInfo, h]
      rw [hresult]
      exact ⟨h, fun _ _ => rfl⟩
  | event dev e =>
      have hresult : l.parseOutput (.event dev e) = (l, some .attributeError) := by
        simp only [Listener.parseOutput, Listener.parsePlatformEvent, h]
      rw [hresult]
      exact ⟨h, fun _ hm => by cases hm⟩
  | garbage => exact ⟨h, fun _ hm => by cases hm⟩
  | sync => exact ⟨h, fun _ hm => by cases hm⟩
  | ready => exact ⟨h, fun _ hm => by cases hm⟩
  | error => exact ⟨h, fun _ hm => by cases hm⟩
  | other => exact ⟨h, fun _ hm => by cases hm⟩

/-- Only `READY` makes the agent's state the listening one. -/
theorem parseOutput_listening {l : Listener} {m : Message}
    (h : (l.parseOutput m).1.agentState = .listening) :
    l.agentState = .listening ∨ m = .ready := by
  cases m with
  | info dev =>
      refine .inl ?_
      simp only [Listener.parseOutput, Listener.reportInfo] at h
      split at h <;> exact h
  | event dev e =>
      refine .inl ?_
      simp only [Listener.parseOutput, Listener.parsePlatformEvent] at h
      split at h
      · exact h
      · split at h
        · exact h
        · simp only [Listener.handleEvent] at h
          split at h <;> exact h
  | garbage => exact .inl h
  | sync => cases h
  | ready => exact .inr rfl
  | error => exact .inl h
  | other => exact .inl h

theorem StartInv.deliver {full : List Message} {s : Startup} (hs : StartInv full s)
    {m : Message} {rest : List Message} (hstream : s.stream = m :: rest) :
    StartInv full (s.deliver m rest) where
  stream_eq := by
    have heq := hs.stream_eq
    rw [hstream] at heq
    simpa [Startup.deliver] using heq
  ready h := by
    have hmem : .ready ∈ s.delivered ∨ m = .ready := by
      obtain hlistening | hctor := h
      · exact (parseOutput_listening hlistening).imp_left fun h => hs.ready (.inl h)
      · exact .inl (hs.ready (.inr hctor))
    obtain hmem | rfl := hmem
    · exact List.mem_append_left _ hmem
    · exact List.mem_append_right _ List.mem_cons_self
  missing h := (parseOutput_missing (hs.missing h) m).1
  announced h dev hdev := by
    change s.raised ++ (s.listener.parseOutput m).2.toList ≠ []
    obtain hdev | hdev := List.mem_append.mp hdev
    · exact List.append_ne_nil_of_left_ne_nil (hs.announced h dev hdev) _
    · have hm : m = .info dev := (List.mem_singleton.mp hdev).symm
      rw [(parseOutput_missing (hs.missing h) m).2 dev hm]
      exact List.append_ne_nil_of_right_ne_nil _ (List.cons_ne_nil _ _)
  kept h hdev := List.append_ne_nil_of_left_ne_nil (hs.kept h hdev) _

/-- The constructor's own steps change nothing but where it stands. -/
theorem StartInv.of_ctor {full : List Message} {s : Startup} (hs : StartInv full s) {c : Ctor}
    (hold : s.ctor ≠ .returned) (hnew : c ≠ .returned)
    (hready : c = .listening → .ready ∈ s.delivered) :
    StartInv full { s with ctor := c } where
  stream_eq := hs.stream_eq
  ready h := by
    obtain hlistening | hc | hc := h
    · exact hs.ready (.inl hlistening)
    · exact hready hc
    · exact absurd hc hnew
  missing _ := hs.missing hold
  announced _ := hs.announced hold
  kept h := absurd h hnew

/-- What a step can do. -/
theorem Startup.step_cases {s s' : Startup} {l : StartLabel} (h : s.step l = some s') :
    (s.ctor = .entered ∧ s' = { s with
      ctor := .installed
      listener := { s.listener with events := [], agentState := .stopped } }) ∨
    (s.ctor = .installed ∧ s' = { s with ctor := .waiting }) ∨
    (s.ctor = .waiting ∧ (s' = s ∨ s' = { s with ctor := .failed } ∨
      s.listener.agentState = .listening ∧ s' = { s with ctor := .listening })) ∨
    (s.ctor = .listening ∧ s' = { s with
      ctor := .returned, listener := { s.listener with buffers := some ∅ } }) ∨
    ∃ m rest, s.stream = m :: rest ∧ s' = s.deliver m rest := by
  cases l with
  | setFields =>
      rw [step, Option.ite_none_right_eq_some] at h
      exact .inl ⟨h.1, (Option.some.inj h.2).symm⟩
  | launch =>
      rw [step, Option.ite_none_right_eq_some] at h
      exact .inr (.inl ⟨h.1, (Option.some.inj h.2).symm⟩)
  | poll =>
      rw [step, Option.ite_none_right_eq_some] at h
      refine .inr (.inr (.inl ⟨h.1, ?_⟩))
      obtain ⟨-, h⟩ := h
      split at h
      next hlistening => exact .inr (.inr ⟨hlistening, (Option.some.inj h).symm⟩)
      next => exact .inl (Option.some.inj h).symm
  | timeout =>
      rw [step, Option.ite_none_right_eq_some] at h
      exact .inr (.inr (.inl ⟨h.1, .inr (.inl (Option.some.inj h.2).symm)⟩))
  | createBuffers =>
      rw [step, Option.ite_none_right_eq_some] at h
      exact .inr (.inr (.inr (.inl ⟨h.1, (Option.some.inj h.2).symm⟩)))
  | deliver =>
      rw [step, Option.ite_none_right_eq_some] at h
      obtain ⟨-, h⟩ := h
      split at h
      next m rest hstream =>
        exact .inr (.inr (.inr (.inr ⟨m, rest, hstream, (Option.some.inj h).symm⟩)))
      next => cases h

/-- Entering the base constructor resets the fields that it owns. -/
theorem StartInv.setFields {full : List Message} {s : Startup} (hs : StartInv full s)
    (hctor : s.ctor = .entered) :
    StartInv full { s with
      ctor := .installed
      listener := { s.listener with events := [], agentState := .stopped } } := by
  have hold : s.ctor ≠ .returned := by rw [hctor]; decide
  exact { stream_eq := hs.stream_eq
          ready := by rintro (h | h | h) <;> cases h
          missing := fun _ => hs.missing hold
          announced := fun _ => hs.announced hold
          kept := fun h => by cases h }

/-- The buffers come behind `READY`, and so behind all announcements. -/
theorem StartInv.createBuffers {devs : List String} {events : List (String × NativeEvent)}
    {s : Startup} (hs : StartInv (agentStream devs events) s) (hctor : s.ctor = .listening) :
    StartInv (agentStream devs events) { s with
      ctor := .returned, listener := { s.listener with buffers := some ∅ } } := by
  have hready : .ready ∈ s.delivered := hs.ready (.inr (.inl hctor))
  have hold : s.ctor ≠ .returned := by rw [hctor]; decide
  refine { stream_eq := hs.stream_eq, ready := fun _ => hready
           missing := fun h => absurd rfl h, announced := fun h => absurd rfl h
           kept := ?_ }
  rintro - ⟨dev, hdev⟩
  exact hs.announced hold dev (info_delivered hs.stream_eq hready hdev)

theorem StartInv.step {devs : List String} {events : List (String × NativeEvent)}
    {s s' : Startup} {l : StartLabel} (hs : StartInv (agentStream devs events) s)
    (h : s.step l = some s') : StartInv (agentStream devs events) s' := by
  obtain ⟨hctor, rfl⟩ | ⟨hctor, rfl⟩ | ⟨hctor, rfl | rfl | ⟨hlistening, rfl⟩⟩ | ⟨hctor, rfl⟩ |
    ⟨m, rest, hstream, rfl⟩ := Startup.step_cases h
  · exact hs.setFields hctor
  · exact hs.of_ctor (by rw [hctor]; decide) (by decide) fun h => by cases h
  · exact hs
  · exact hs.of_ctor (by rw [hctor]; decide) (by decide) fun h => by cases h
  · exact hs.of_ctor (by rw [hctor]; decide) (by decide) fun _ => hs.ready (.inl hlistening)
  · exact hs.createBuffers hctor
  · exact hs.deliver hstream

theorem startInv_initial (devs : List String) (events : List (String × NativeEvent)) :
    StartInv (agentStream devs events) (Startup.initial devs events) where
  stream_eq := rfl
  ready h := by obtain h | h | h := h <;> cases h
  missing _ := rfl
  announced _ _ h := absurd h List.not_mem_nil
  kept h := by cases h

theorem startInv_of_run {devs : List String} {events : List (String × NativeEvent)}
    {ls : List StartLabel} {s : Startup}
    (hrun : runSteps Startup.step (Startup.initial devs events) ls = some s) :
    StartInv (agentStream devs events) s :=
  runSteps_invariant (fun _ _ _ hs h => hs.step h) (startInv_initial devs events) hrun

/-- No schedule helps: when the constructor returns with a device announced, a handler
has raised. -/
theorem raised_of_returned {devs : List String} {events : List (String × NativeEvent)}
    {ls : List StartLabel} {s : Startup}
    (hrun : runSteps Startup.step (Startup.initial devs events) ls = some s)
    (hreturned : s.ctor = .returned) (hdevs : devs ≠ []) : s.raised ≠ [] := by
  obtain ⟨dev, rest, rfl⟩ := List.exists_cons_of_ne_nil hdevs
  exact (startInv_of_run hrun).kept hreturned ⟨dev, by simp [agentStream]⟩

/-- Messages that no handler raises for. -/
def Quiet (s : Startup) : Prop := s.raised = [] ∧ ∀ m ∈ s.stream, m = .sync ∨ m = .ready

theorem Quiet.step {s s' : Startup} {l : StartLabel} (hs : Quiet s) (h : s.step l = some s') :
    Quiet s' := by
  obtain ⟨-, rfl⟩ | ⟨-, rfl⟩ | ⟨-, rfl | rfl | ⟨-, rfl⟩⟩ | ⟨-, rfl⟩ | ⟨m, rest, hstream, rfl⟩ :=
    Startup.step_cases h
  case inr.inr.inr.inr =>
    obtain ⟨hraised, hall⟩ := hs
    rw [hstream] at hall
    refine ⟨?_, fun m' hm' => hall m' (List.mem_cons_of_mem m hm')⟩
    change s.raised ++ (s.listener.parseOutput m).2.toList = []
    rw [hraised]
    obtain rfl | rfl := hall m List.mem_cons_self <;> rfl
  all_goals exact hs

theorem startsUp_of_no_devices {ls : List StartLabel} {s : Startup}
    (hrun : runSteps Startup.step (Startup.initial [] []) ls = some s) : StartsUp s := by
  have hquiet : Quiet s := runSteps_invariant (fun _ _ _ hs h => Quiet.step hs h)
    ⟨rfl, by simp [Startup.initial, agentStream]⟩ hrun
  refine ⟨hquiet.1, fun _ dev hdev => ?_⟩
  have hfull : .info dev ∈ agentStream [] [] := by
    rw [← (startInv_of_run hrun).stream_eq]
    exact List.mem_append_left _ hdev
  simp [agentStream] at hfull

/-- A listener starts up without an exception, whatever the schedule, exactly when the
agent announces no device. With a device no schedule at all brings the constructor to
its end without an exception in a handler. -/
theorem startsUp_iff (devs : List String) (events : List (String × NativeEvent))
    (own : ∀ p ∈ events, p.1 ∈ devs) :
    ((∀ ls s, runSteps Startup.step (Startup.initial devs events) ls = some s → StartsUp s) ↔
      devs = []) ∧
    ∀ ls s, runSteps Startup.step (Startup.initial devs events) ls = some s →
      s.ctor = .returned → devs ≠ [] → s.raised ≠ [] := by
  refine ⟨⟨fun h => ?_, ?_⟩, fun ls s hrun => raised_of_returned hrun⟩
  · by_contra hdevs
    obtain ⟨dev, rest, rfl⟩ := List.exists_cons_of_ne_nil hdevs
    have hstart := h [.setFields, .launch, .deliver, .deliver] _ rfl
    cases hstart.1
  · rintro rfl ls s hrun
    have hevents : events = [] := List.eq_nil_iff_forall_not_mem.mpr fun p hp => by
      simpa using own p hp
    rw [hevents] at hrun
    exact startsUp_of_no_devices hrun

theorem startsUp_without_devices :
    (∀ p ∈ ([] : List (String × NativeEvent)), p.1 ∈ ([] : List String)) ∧
      ∀ ls s, runSteps Startup.step (Startup.initial [] []) ls = some s → StartsUp s :=
  have own : ∀ p ∈ ([] : List (String × NativeEvent)), p.1 ∈ ([] : List String) := by simp
  ⟨own, (startsUp_iff [] [] own).1.mpr rfl⟩

/-- A machine with one keyboard: its announcement raises. -/
theorem keyboard_announcement_raises :
    ¬∀ (devs : List String) (events : List (String × NativeEvent)),
      (∀ p ∈ events, p.1 ∈ devs) →
      ∀ ls s, runSteps Startup.step (Startup.initial devs events) ls = some s → StartsUp s := by
  intro h
  have hstart := h ["event0"] [] (by simp) [.setFields, .launch, .deliver, .deliver] _ rfl
  cases hstart.1

end TpQemu.InputEvent

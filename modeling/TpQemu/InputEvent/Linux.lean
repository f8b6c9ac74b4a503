import TpQemu.Lib.Dict
import TpQemu.Lib.Python

/-!
# The Linux event listener

`_EventListener._parse_output` and the handlers of `EventListenerLinux` in
`provider/input_event_proxy.py`. The listener keeps one dictionary for each device
and hands it over to the queue at the end of a frame. Dictionaries are objects, and
both the buffers and the queue hold references to them, so they live in a heap here:
an assignment through one reference is seen through every other.

A handler that raises keeps the changes it has made, so a handler returns the
listener together with the exception. The attribute `_buffers` is missing until the
constructor has set it. The device information that an `INFO` message carries is
stored in `targets` and not looked at by any handler; it is left out.
-/

namespace TpQemu.InputEvent

/-- The keys of an event. -/
inductive Field where
  | type
  | device
  | keyCode
  | scanCode
  | xPos
  | yPos
  | abs
  | hScroll
  deriving DecidableEq

inductive EventType where
  | keyDown
  | keyUp
  | pointerMove
  | wheelForward
  | wheelBackward
  | unknown
  deriving DecidableEq

inductive Val where
  | kind (t : EventType)
  | num (n : Int)
  | text (s : String)
  deriving DecidableEq

abbrev Buffer := Dict Field Val

/-- The event classes of `EV_TYPES`, and the fallback of the agent. -/
inductive TypeName where
  | evSyn
  | evKey
  | evRel
  | evAbs
  | evMsc
  | evSw
  | evLed
  | evSnd
  | evRep
  | evFf
  | evPwr
  | evFfStatus
  | unknown
  deriving DecidableEq

structure NativeEvent where
  typeName : TypeName
  codeName : String
  value : Nat
  deriving DecidableEq

/-! ## Native events -/

/-- The end of a frame. -/
def NativeEvent.isReport (e : NativeEvent) : Bool :=
  e.typeName = .evSyn && e.codeName = "SYN_REPORT"

/-- The type of a key event; the value of an autorepeat is taken as its type. -/
def keyType (value : Nat) : Val :=
  if value = 1 then .kind .keyDown else if value = 0 then .kind .keyUp else .num value

/-- The assignment for a wheel that has moved by one. -/
def wheelType (value : Nat) : List (Field × Val) :=
  if value = 0x00000001 then [(.type, .kind .wheelForward)]
  else if value = 0xFFFFFFFF then [(.type, .kind .wheelBackward)]
  else []

/-- What `_parse_platform_event` assigns to the buffer for an event that does not end a
frame, in the order of the assignments. -/
def NativeEvent.assignments (e : NativeEvent) : List (Field × Val) :=
  match e.typeName with
  | .evSyn => []
  | .evKey => [(.type, keyType e.value), (.keyCode, .text e.codeName)]
  | .evRel =>
      if e.codeName = "REL_X" then
        [(.type, .kind .pointerMove), (.xPos, .num e.value), (.abs, .num 0)]
      else if e.codeName = "REL_Y" then
        [(.type, .kind .pointerMove), (.yPos, .num e.value), (.abs, .num 0)]
      else if e.codeName = "REL_HWHEEL" then
        wheelType e.value ++ [(.hScroll, .num 1), (.abs, .num 0)]
      else if e.codeName = "REL_WHEEL" then
        wheelType e.value ++ [(.hScroll, .num 0), (.abs, .num 0)]
      else []
  | .evAbs =>
      if e.codeName = "ABS_X" then
        [(.type, .kind .pointerMove), (.xPos, .num e.value), (.abs, .num 1)]
      else if e.codeName = "ABS_Y" then
        [(.type, .kind .pointerMove), (.yPos, .num e.value), (.abs, .num 1)]
      else if e.codeName = "ABS_WHEEL" then
        wheelType e.value ++ [(.hScroll, .num 0), (.abs, .num 1)]
      else []
  | .evMsc => if e.codeName = "MSC_SCAN" then [(.scanCode, .num e.value)] else []
  | .evLed | .evRep => []
  | _ => [(.type, .kind .unknown)]

/-- The buffer after the assignments for an event. -/
def assign (ebuf : Buffer) (e : NativeEvent) : Buffer :=
  e.assignments.foldl (fun b a => b.set a.1 a.2) ebuf

/-- The buffer a frame starts with, except for the first one. -/
def resetBuffer : Buffer := (∅ : Buffer).set .type (.kind .unknown)

/-! ## The listener -/

inductive AgentState where
  | stopped
  | greeting
  | listening
  deriving DecidableEq

/-- A line of the agent's output. -/
inductive Message where
  /-- A line that is no JSON text. -/
  | garbage
  | sync
  | info (dev : String)
  | ready
  | event (dev : String) (e : NativeEvent)
  | error
  /-- A message of a type the listener does not know. -/
  | other
  deriving DecidableEq

structure Listener where
  /-- The dictionaries made so far; a reference is a position in this list. -/
  heap : List Buffer
  /-- The attribute `_buffers`, once it is there. -/
  buffers : Option (Dict String Nat)
  /-- The queue, oldest event first. -/
  events : List Nat
  agentState : AgentState

/-- The dictionary behind a reference. -/
def Listener.deref (l : Listener) (r : Nat) : Buffer := l.heap[r]?.getD ∅

/-- `_report_info(content)`. -/
def Listener.reportInfo (l : Listener) (dev : String) : Listener × Option PyError :=
  match l.buffers with
  | none => (l, some .attributeError)
  | some buffers =>
      ({ l with heap := l.heap ++ [∅], buffers := some (buffers.set dev l.heap.length) }, none)

/-- `_parse_platform_event(content)` on the buffer the device has. -/
def Listener.handleEvent (l : Listener) (buffers : Dict String Nat) (dev : String)
    (e : NativeEvent) (r : Nat) : Listener :=
  let ebuf := l.deref r
  if e.isReport then
    { l with
      heap := l.heap.set r (ebuf.set .device (.text dev)) ++ [resetBuffer]
      events := l.events ++ [r]
      buffers := some (buffers.set dev l.heap.length) }
  else
    { l with heap := l.heap.set r (assign ebuf e), buffers := some (buffers.set dev r) }

/-- `_parse_platform_event(content)`. -/
def Listener.parsePlatformEvent (l : Listener) (dev : String) (e : NativeEvent) :
    Listener × Option PyError :=
  match l.buffers with
  | none => (l, some .attributeError)
  | some buffers =>
      match buffers.get? dev with
      | none => (l, some .keyError)
      | some r => (l.handleEvent buffers dev e r, none)

/-- `_parse_output(line)`. -/
def Listener.parseOutput (l : Listener) : Message → Listener × Option PyError
  | .garbage | .error | .other => (l, none)
  | .sync => ({ l with agentState := .greeting }, none)
  | .info dev => l.reportInfo dev
  | .ready => ({ l with agentState := .listening }, none)
  | .event dev e => l.parsePlatformEvent dev e

/-- The deliveries of a list of messages, up to the first exception. -/
def Listener.receive (l : Listener) : List Message → Listener × Option PyError
  | [] => (l, none)
  | m :: ms =>
      match l.parseOutput m with
      | (l', none) => l'.receive ms
      | (l', some e) => (l', some e)

/-- A listener whose constructor has returned, before the first device is announced. -/
def Listener.initialised : Listener where
  heap := []
  buffers := some ∅
  events := []
  agentState := .listening

/-- The queued events of a device, oldest first. -/
def Listener.queuedFor (l : Listener) (dev : String) : List Buffer :=
  (l.events.map l.deref).filter fun b => b.get? .device = some (.text dev)

/-! ## Streams of messages -/

/-- The native events of a device in a stream. -/
def nativeOf (dev : String) : List Message → List NativeEvent
  | [] => []
  | .event d e :: ms => if d = dev then e :: nativeOf dev ms else nativeOf dev ms
  | _ :: ms => nativeOf dev ms

/-- Every device is announced once, before its first event. -/
def Announced : List String → List Message → Prop
  | _, [] => True
  | known, .info dev :: ms => dev ∉ known ∧ Announced (dev :: known) ms
  | known, .event dev _ :: ms => dev ∈ known ∧ Announced known ms
  | known, _ :: ms => Announced known ms

end TpQemu.InputEvent

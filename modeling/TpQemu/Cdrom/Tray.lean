import Mathlib.Data.List.Infix
import TpQemu.Lib.Polling
import TpQemu.Lib.Python
import TpQemu.Lib.Text

/-!
# The tray of a CD-ROM

`QMPEventCheckCDEject` and `QMPEventCheckCDChange` in `provider/cdrom.py`. Around an operation
they read the state of a tray, wait for events of the monitor, and judge by the state in the last
event about a tray and by the number of these events. The wait ends as soon as there is an event
of any kind, and the events of all trays count.
-/

namespace TpQemu.Cdrom

/-- An event of a monitor; the last two fields are those of an event about a tray. -/
structure Event where
  name : String
  device : String
  trayOpen : Bool
  deriving DecidableEq

/-- A block device in the answer to `info("block")`: its text, and its `tray_open`. -/
structure Block where
  text : String
  trayOpen : Option Bool

/-- The answer to `info("block")`, of a human monitor or of a QMP monitor. -/
inductive BlocksInfo where
  | text (s : String)
  | blocks (bs : List Block)

/-- A QMP monitor during the operation and the wait. -/
structure Monitor where
  /-- The events it holds when the check begins. -/
  events : List Event
  /-- The events it receives before a poll, since the one before it or since the check began. -/
  arrivals : Nat → List Event
  /-- How many polls `wait_for` makes before the time is up. -/
  polls : Nat

structure VM where
  blocksInfo : BlocksInfo
  /-- `check_capability(Flags.BLOCKDEV)` -/
  blockdev : Bool
  getQdevByDrive : String → String
  qmpMonitors : List Monitor

inductive CDRomError where
  /-- `CDRomStatusError` -/
  | statusError (device operation status : String)
  /-- `CDRomEventCountError` -/
  | eventCountError (device operation event : String) (count : Nat)

/-! ## The state of a tray -/

/-- `sub in s` -/
def contains (s sub : String) : Bool := sub.toList <:+: s.toList

/-- The loop over the lines of a human monitor. -/
def lineState (deviceId : String) : List String → Bool
  | [] => false
  | block :: blocks =>
      if contains block deviceId then
        if contains block "tray open" then true
        else if contains block "tray closed" then false
        else lineState deviceId blocks
      else lineState deviceId blocks

/-- `is_device_tray_opened` -/
def isDeviceTrayOpened (vm : VM) (deviceId : String) : Bool :=
  let deviceId := if vm.blockdev then vm.getQdevByDrive deviceId else deviceId
  match vm.blocksInfo with
  | .text s => lineState deviceId ((Text.splitlines s.toList).map String.ofList)
  | .blocks bs => bs.any fun block => contains block.text deviceId && block.trayOpen = some true

/-! ## The check -/

inductive Operation where
  | eject
  | change
  deriving DecidableEq

def Operation.name : Operation → String
  | .eject => "eject_cdrom"
  | .change => "change_media"

def eventToCheck : String := "DEVICE_TRAY_MOVED"

/-- `clear_event` -/
def clearEvent (m : Monitor) : Monitor :=
  { m with events := m.events.filter fun e => e.name ≠ eventToCheck }

def isStatusAfterIncorrect (op : Operation) (statusAfter : Bool) : Bool :=
  match op with
  | .eject => !statusAfter
  | .change => statusAfter

def isEventsCountIncorrect (op : Operation) (statusBefore : Bool) (count : Nat) : Bool :=
  match op with
  | .eject => (!statusBefore && count ≠ 1) || (statusBefore && count ≠ 0)
  | .change => (!statusBefore && count ≠ 2) || (statusBefore && count ≠ 1)

/-- The events that have come reach the queue of the monitor. -/
def arrive (m : Monitor) (i : Nat) (queue : List Event) : List Event := queue ++ m.arrivals i

/-- `get_events`, which leaves the queue as it is. -/
def getEvents (queue : List Event) : Bool × List Event := (!queue.isEmpty, queue)

/-- What `wait_for` gives, or no event. -/
def waitEvents (m : Monitor) : List Event :=
  let r := waitFor (arrive m) getEvents m.polls 0 m.events
  if r.1 then r.2 else []

/-- One round of the loop over the events. -/
def countEvent (r : Nat × Bool) (event : Event) : Nat × Bool :=
  if event.name = "DEVICE_TRAY_MOVED" then (r.1 + 1, event.trayOpen) else r

def boolText (b : Bool) : String := if b then "True" else "False"

/-- The body of `_event_check`. The status error gets its last two arguments the other way
round. -/
def checkEvents (op : Operation) (deviceId : String) (statusBefore : Bool)
    (monitors : List Monitor) : Except CDRomError Unit :=
  match monitors with
  | [] => .ok ()
  | m :: _ =>
      let (count, statusAfter) := (waitEvents m).foldl countEvent (0, statusBefore)
      if isStatusAfterIncorrect op statusAfter then
        .error (.statusError deviceId (boolText statusAfter) op.name)
      else if isEventsCountIncorrect op statusBefore count then
        .error (.eventCountError deviceId op.name eventToCheck count)
      else .ok ()

/-- `__enter__` and `__exit__` around an operation that raises nothing. -/
def check (op : Operation) (deviceId : String) (vm : VM) : Except CDRomError Unit :=
  let statusBefore := isDeviceTrayOpened vm deviceId
  checkEvents op deviceId statusBefore (vm.qmpMonitors.map clearEvent)

/-- `@fail_on(CDRomError)`; how it describes the exception is left to avocado. -/
def failOn (describe : CDRomError → String) (r : Except CDRomError Unit) : Except PyError Unit :=
  r.mapError fun e => .testFail (describe e)

/-! ## The wait -/

/-- What a monitor has received at a poll. -/
def received (m : Monitor) (i : Nat) : List Event :=
  m.events ++ (List.range (i + 1)).flatMap m.arrivals

/-- What a monitor receives in the whole wait. -/
def wholeWait (m : Monitor) : List Event := m.events ++ (List.range m.polls).flatMap m.arrivals

inductive Verdict where
  | pass
  | statusError
  | countError
  deriving DecidableEq

def verdictOf : Except CDRomError Unit → Verdict
  | .ok _ => .pass
  | .error (.statusError ..) => .statusError
  | .error (.eventCountError ..) => .countError

/-- The test fails unless the check passes. -/
theorem failOn_eq_ok_iff (describe : CDRomError → String) (r : Except CDRomError Unit) :
    failOn describe r = .ok () ↔ verdictOf r = .pass := by
  cases r with
  | ok u => simp [failOn, verdictOf, Except.mapError]
  | error e => cases e <;> simp [failOn, verdictOf, Except.mapError]

/-- An ejected tray is open, and one with a changed medium closed. -/
def Operation.target : Operation → Bool
  | .eject => true
  | .change => false

/-- The events of one device. -/
def own (deviceId : String) (es : List Event) : List Event :=
  es.filter fun e => e.device = deviceId

/-- No other tray moves in the whole wait, and behind the first event of any kind no event about
a tray comes. -/
structure Alone (deviceId : String) (m : Monitor) : Prop where
  own : ∀ e ∈ wholeWait m, e.name = eventToCheck → e.device = deviceId
  first : ∀ i < m.polls, ∀ j < i, m.events ≠ [] ∨ m.arrivals j ≠ [] →
    ∀ e ∈ m.arrivals i, e.name ≠ eventToCheck

end TpQemu.Cdrom

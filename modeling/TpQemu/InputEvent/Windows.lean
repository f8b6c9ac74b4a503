import TpQemu.InputEvent.Linux
import TpQemu.InputEvent.VirtualKeys
import Mathlib.Data.List.Forall2

/-!
# The Windows agent and its listener

The hook procedures of `deps/input_event/input_event_win.py`, which turn a native event
into a message, and `EventListenerWin` in `provider/input_event_proxy.py`, which turns the
message into an event of the queue. Only the calls with `HC_ACTION` are modelled: in the
other ones a hook procedure sends nothing. A message is an object with the fields its
sender has put there, and a read of a field that is not there raises `KeyError`.
-/

namespace TpQemu.InputEvent

/-! ## The agent -/

/-- The names of `WPARAM_TYPES`; `unknown` is the fallback of the agent. -/
inductive WmType where
  | keyDown
  | keyUp
  | sysKeyDown
  | sysKeyUp
  | mouseMove
  | lButtonDown
  | lButtonUp
  | rButtonDown
  | rButtonUp
  | mButtonDown
  | mButtonUp
  | mouseWheel
  | xButtonDown
  | xButtonUp
  | mouseHWheel
  | unknown
  deriving DecidableEq

/-- `WPARAM_TYPES`. -/
def wparamTypes : Dict Nat WmType where
  entries :=
    [(0x0100, .keyDown), (0x0101, .keyUp), (0x0104, .sysKeyDown), (0x0105, .sysKeyUp),
      (0x0200, .mouseMove), (0x0201, .lButtonDown), (0x0202, .lButtonUp), (0x0204, .rButtonDown),
      (0x0205, .rButtonUp), (0x0207, .mButtonDown), (0x0208, .mButtonUp), (0x020A, .mouseWheel),
      (0x020B, .xButtonDown), (0x020C, .xButtonUp), (0x020E, .mouseHWheel)]
  nodup := by decide

/-- `WPARAM_TYPES.get(wParam, "UNKNOWN")`. -/
def wmType (wParam : Nat) : WmType := (wparamTypes.get? wParam).getD .unknown

/-- `KBDLLHOOKSTRUCT`. -/
structure KbdHookStruct where
  vkCode : BitVec 32
  scanCode : BitVec 32
  flags : BitVec 32
  time : BitVec 32

/-- `MSLLHOOKSTRUCT`. -/
structure MouseHookStruct where
  x : BitVec 32
  y : BitVec 32
  mouseData : BitVec 32
  flags : BitVec 32
  time : BitVec 32

/-- A call of one of the two hook procedures. -/
inductive HookEvent where
  | keyboard (wParam : Nat) (raw : KbdHookStruct)
  | mouse (wParam : Nat) (raw : MouseHookStruct)

inductive FlagText where
  | extended
  | altDown
  | up
  deriving DecidableEq

inductive MouseDataText where
  | empty
  | wheelForward
  | wheelBackward
  | xButton1
  | xButton2
  deriving DecidableEq

def MouseDataText.toString : MouseDataText → String
  | .empty => ""
  | .wheelForward => "WHEELFORWARD"
  | .wheelBackward => "WHEELBACKWARD"
  | .xButton1 => "XBUTTON1"
  | .xButton2 => "XBUTTON2"

/-- The field `event` of a message. -/
inductive HookMessage where
  | keyboard (typeNum : Nat) (typeName : WmType) (vkCode : Nat) (vkCodeName : VkName)
      (scanCode flags : Nat) (flagsText : List FlagText) (timestamp : Nat)
  | mouse (typeNum : Nat) (typeName : WmType) (xPos yPos : Int) (mouseData : Nat)
      (mouseDataText : MouseDataText) (flags timestamp : Nat)

/-- The texts for the flags of a key. -/
def flagsText (flags : BitVec 32) : List FlagText :=
  (if flags.getLsbD 0 then [.extended] else []) ++ (if flags.getLsbD 5 then [.altDown] else []) ++
    if flags.getLsbD 7 then [.up] else []

/-- `LowLevelKeyboardProc`. -/
def lowLevelKeyboardProc (wParam : Nat) (raw : KbdHookStruct) : HookMessage :=
  .keyboard wParam (wmType wParam) raw.vkCode.toNat (vkCodeName raw.vkCode.toNat)
    raw.scanCode.toNat raw.flags.toNat (flagsText raw.flags) raw.time.toNat

/-- The text for the data of a wheel or of an extra button. -/
def mouseDataText (wParam : Nat) (mouseData : BitVec 32) : MouseDataText :=
  let value := mouseData.toNat >>> 16
  if wParam = 0x020A ∨ wParam = 0x020E then
    if value = 0x0078 then .wheelForward
    else if value = 0xFF88 then .wheelBackward
    else .empty
  else if wParam = 0x020B ∨ wParam = 0x020C then
    if value &&& 0x0001 ≠ 0 then .xButton1
    else if value &&& 0x0002 ≠ 0 then .xButton2
    else .empty
  else .empty

/-- `LowLevelMouseProc`. -/
def lowLevelMouseProc (wParam : Nat) (raw : MouseHookStruct) : HookMessage :=
  .mouse wParam (wmType wParam) raw.x.toInt raw.y.toInt raw.mouseData.toNat
    (mouseDataText wParam raw.mouseData) raw.flags.toNat raw.time.toNat

def keyboardDev : String := "keyboard"

def mouseDev : String := "pointer"

/-- The device of the message that a hook procedure sends. -/
def HookEvent.device : HookEvent → String
  | .keyboard _ _ => keyboardDev
  | .mouse _ _ => mouseDev

/-- The event of the message that a hook procedure sends. -/
def HookEvent.message : HookEvent → HookMessage
  | .keyboard wParam raw => lowLevelKeyboardProc wParam raw
  | .mouse wParam raw => lowLevelMouseProc wParam raw

/-! ## The listener -/

namespace HookMessage

/-- `nevent["typeName"]`. -/
def typeName : HookMessage → WmType
  | .keyboard _ t _ _ _ _ _ _ => t
  | .mouse _ t _ _ _ _ _ _ => t

/-- `nevent["vkCodeName"]`. -/
def vkCodeName : HookMessage → Except PyError VkName
  | .keyboard _ _ _ name _ _ _ _ => .ok name
  | .mouse _ _ _ _ _ _ _ _ => .error .keyError

/-- `nevent["scanCode"]`. -/
def scanCode : HookMessage → Except PyError Nat
  | .keyboard _ _ _ _ code _ _ _ => .ok code
  | .mouse _ _ _ _ _ _ _ _ => .error .keyError

/-- `nevent["xPos"]`. -/
def xPos : HookMessage → Except PyError Int
  | .keyboard _ _ _ _ _ _ _ _ => .error .keyError
  | .mouse _ _ x _ _ _ _ _ => .ok x

/-- `nevent["yPos"]`. -/
def yPos : HookMessage → Except PyError Int
  | .keyboard _ _ _ _ _ _ _ _ => .error .keyError
  | .mouse _ _ _ y _ _ _ _ => .ok y

/-- `nevent["mouseDataText"]`. -/
def mouseDataText : HookMessage → Except PyError MouseDataText
  | .keyboard _ _ _ _ _ _ _ _ => .error .keyError
  | .mouse _ _ _ _ _ text _ _ => .ok text

end HookMessage

/-- The type of a key or button event: `etype.endswith("DOWN")`. -/
def pressType : WmType → EventType
  | .keyDown | .sysKeyDown | .lButtonDown | .rButtonDown | .mButtonDown | .xButtonDown => .keyDown
  | _ => .keyUp

/-- The code of an extra button. -/
def xButtonCode : MouseDataText → String
  | .xButton1 => "BTN_SIDE"
  | .xButton2 => "BTN_EXTRA"
  | text => text.toString

/-- The type of a wheel event. -/
def wheelDirection : MouseDataText → EventType
  | .wheelForward => .wheelForward
  | .wheelBackward => .wheelBackward
  | _ => .unknown

/-- The last two assignments to an event. -/
def finish (dev : String) (mtype : EventType) (event : Buffer) : Buffer :=
  (event.set .type (.kind mtype)).set .device (.text dev)

/-- `_parse_platform_event(content)`; the result goes to the queue. -/
def parseHookMessage (dev : String) (nevent : HookMessage) : Except PyError Buffer :=
  let etype := nevent.typeName
  let event : Buffer := ∅
  match etype with
  | .keyDown | .keyUp | .sysKeyDown | .sysKeyUp => do
      let name ← nevent.vkCodeName
      let keycode ← orRaise .keyError (vk2Linux name)
      let scancode ← nevent.scanCode
      pure (finish dev (pressType etype)
        ((event.set .keyCode (.text keycode)).set .scanCode (.num scancode)))
  | .lButtonDown | .lButtonUp =>
      pure (finish dev (pressType etype) (event.set .keyCode (.text "BTN_LEFT")))
  | .rButtonDown | .rButtonUp =>
      pure (finish dev (pressType etype) (event.set .keyCode (.text "BTN_RIGHT")))
  | .mButtonDown | .mButtonUp =>
      pure (finish dev (pressType etype) (event.set .keyCode (.text "BTN_MIDDLE")))
  | .xButtonDown | .xButtonUp => do
      let xbutton ← nevent.mouseDataText
      pure (finish dev (pressType etype) (event.set .keyCode (.text (xButtonCode xbutton))))
  | .mouseWheel | .mouseHWheel => do
      let direction ← nevent.mouseDataText
      let hScroll := if etype = .mouseHWheel then 1 else 0
      pure (finish dev (wheelDirection direction) (event.set .hScroll (.num hScroll)))
  | .mouseMove => do
      let xpos ← nevent.xPos
      let ypos ← nevent.yPos
      pure (finish dev .pointerMove ((event.set .xPos (.num xpos)).set .yPos (.num ypos)))
  | .unknown => pure (finish dev .unknown event)

/-- The deliveries of the messages for a list of native events, up to the first exception. -/
def deliver (queue : List Buffer) : List HookEvent → List Buffer × Option PyError
  | [] => (queue, none)
  | h :: hs =>
      match parseHookMessage h.device h.message with
      | .ok event => deliver (queue ++ [event]) hs
      | .error e => (queue, some e)

/-! ## What the two programs agree on -/

/-- The signed half-word in which a wheel message carries its delta. -/
def MouseHookStruct.delta (raw : MouseHookStruct) : Int := (raw.mouseData.extractLsb' 16 16).toInt

/-- The type that an event has by its delta. -/
def directionOf (delta : Int) : EventType :=
  if 0 < delta then .wheelForward else if delta < 0 then .wheelBackward else .unknown

/-- The type of the event for a message type and the delta of its wheel. -/
def eventTypeOf (delta : Int) : WmType → EventType
  | .keyDown | .sysKeyDown | .lButtonDown | .rButtonDown | .mButtonDown | .xButtonDown => .keyDown
  | .keyUp | .sysKeyUp | .lButtonUp | .rButtonUp | .mButtonUp | .xButtonUp => .keyUp
  | .mouseMove => .pointerMove
  | .mouseWheel | .mouseHWheel => directionOf delta
  | .unknown => .unknown

/-- The type a native event is to be queued with; only the mouse has a wheel. -/
def HookEvent.expected : HookEvent → EventType
  | .keyboard wParam _ => eventTypeOf 0 (wmType wParam)
  | .mouse wParam raw => eventTypeOf raw.delta (wmType wParam)

/-- The queued event is the one for the native event. -/
def Stands (h : HookEvent) (event : Buffer) : Prop :=
  event.get? .type = some (.kind h.expected) ∧ event.get? .device = some (.text h.device)

/-- The outcome of a delivery is the event for the native one. -/
def Queues (h : HookEvent) : Except PyError Buffer → Prop
  | .ok event => Stands h event
  | .error _ => False

/-- Nothing is raised, and the events of the queue stand for the native ones in order. -/
def Agree (hs : List HookEvent) : Prop :=
  (deliver [] hs).2 = none ∧ List.Forall₂ Stands hs (deliver [] hs).1

/-- The keyboard messages the listener handles: a key is a known one, and no message is of
a type that only the mouse has a field for. -/
def KbdHookStruct.Handled (raw : KbdHookStruct) : WmType → Prop
  | .keyDown | .keyUp | .sysKeyDown | .sysKeyUp => KnownKey raw.vkCode
  | .mouseMove | .xButtonDown | .xButtonUp | .mouseWheel | .mouseHWheel => False
  | _ => True

/-- The mouse messages the listener handles: a wheel turns by one notch or not at all, and
no message is of a type that only the keyboard has a field for. -/
def MouseHookStruct.Handled (raw : MouseHookStruct) : WmType → Prop
  | .keyDown | .keyUp | .sysKeyDown | .sysKeyUp => False
  | .mouseWheel | .mouseHWheel => raw.delta = 120 ∨ raw.delta = -120 ∨ raw.delta = 0
  | _ => True

/-- The native events on which the agent and the listener agree. -/
def HookEvent.Handled : HookEvent → Prop
  | .keyboard wParam raw => raw.Handled (wmType wParam)
  | .mouse wParam raw => raw.Handled (wmType wParam)

/-- Which message types the wheel messages are. -/
theorem wParam_of_wheel {wParam : Nat}
    (h : wmType wParam = .mouseWheel ∨ wmType wParam = .mouseHWheel) :
    wParam = 0x020A ∨ wParam = 0x020E := by
  have table : ∀ p ∈ wparamTypes.entries, p.2 = .mouseWheel ∨ p.2 = .mouseHWheel →
      p.1 = 0x020A ∨ p.1 = 0x020E := by decide
  unfold wmType at h
  cases hname : wparamTypes.get? wParam with
  | none => simp [hname] at h
  | some t => exact table _ (Dict.get?_eq_some_iff.mp hname) (by simpa [hname] using h)

theorem shiftRight_lt (mouseData : BitVec 32) : mouseData.toNat >>> 16 < 0x10000 := by
  have := mouseData.isLt
  rw [Nat.shiftRight_eq_div_pow]
  omega

/-- The half-word the agent looks at, as a signed number. -/
theorem MouseHookStruct.delta_eq (raw : MouseHookStruct) :
    raw.delta =
      if raw.mouseData.toNat >>> 16 < 0x8000 then ↑(raw.mouseData.toNat >>> 16)
      else (↑(raw.mouseData.toNat >>> 16) : Int) - 0x10000 := by
  rw [delta, BitVec.toInt_eq_toNat_cond, BitVec.extractLsb'_toNat,
    Nat.mod_eq_of_lt (shiftRight_lt raw.mouseData)]
  split <;> split <;> omega

/-- The direction that is told from the text is the one of the delta for a turn by one
notch or by nothing, and for no other. -/
theorem wheelDirection_eq_iff {wParam : Nat} (raw : MouseHookStruct)
    (h : wmType wParam = .mouseWheel ∨ wmType wParam = .mouseHWheel) :
    wheelDirection (mouseDataText wParam raw.mouseData) = directionOf raw.delta ↔
      raw.delta = 120 ∨ raw.delta = -120 ∨ raw.delta = 0 := by
  have hbound := shiftRight_lt raw.mouseData
  have hdelta := raw.delta_eq
  simp only [mouseDataText, if_pos (wParam_of_wheel h)]
  generalize raw.mouseData.toNat >>> 16 = value at hbound hdelta ⊢
  unfold directionOf
  split at hdelta <;> split_ifs <;> simp [wheelDirection] <;> omega

@[simp] theorem queues_ok_finish (h : HookEvent) (mtype : EventType) (event : Buffer) :
    Queues h (.ok (finish h.device mtype event)) ↔ mtype = h.expected := by
  simp [Queues, Stands, finish, Dict.get?_set_ne]

@[simp] theorem not_queues_error (h : HookEvent) (e : PyError) : ¬Queues h (.error e) := id

/-- A key event is queued if the listener finds the name of the key. -/
theorem queues_key_iff {h : HookEvent} {mtype : EventType} (hm : mtype = h.expected)
    (vkCode : BitVec 32) (event : String → Buffer) :
    Queues h (orRaise .keyError (vk2Linux (vkCodeName vkCode.toNat)) >>= fun keycode =>
      .ok (finish h.device mtype (event keycode))) ↔ KnownKey vkCode := by
  rw [← vk2Linux_vkCodeName_isSome]
  cases vk2Linux (vkCodeName vkCode.toNat) with
  | none => exact iff_of_false id Bool.false_ne_true
  | some keycode => exact iff_of_true ((queues_ok_finish h mtype _).mpr hm) rfl

/-- A message of the keyboard hook is handled unless the listener does not find the name of
its key, or reads a field that only a message of the mouse has. -/
theorem queues_keyboard_iff {h : HookEvent} {wParam : Nat} {raw : KbdHookStruct}
    (hh : h = .keyboard wParam raw) :
    Queues h (parseHookMessage h.device h.message) ↔ h.Handled := by
  have hexpected : h.expected = eventTypeOf 0 (wmType wParam) := by rw [hh]; rfl
  have hhandled : h.Handled = raw.Handled (wmType wParam) := by rw [hh]; rfl
  have hmessage : h.message = lowLevelKeyboardProc wParam raw := by rw [hh]; rfl
  rw [hhandled, hmessage, lowLevelKeyboardProc]
  cases ht : wmType wParam <;> rw [ht] at hexpected
  case keyDown | keyUp | sysKeyDown | sysKeyUp =>
    exact queues_key_iff hexpected.symm raw.vkCode _
  case mouseMove | xButtonDown | xButtonUp | mouseWheel | mouseHWheel =>
    exact iff_of_false (not_queues_error h .keyError) id
  all_goals exact iff_of_true ((queues_ok_finish h _ _).mpr hexpected.symm) trivial

/-- A message of the mouse hook is handled unless the listener tells another direction from
its text, or reads a field that only a message of the keyboard has. -/
theorem queues_mouse_iff {h : HookEvent} {wParam : Nat} {raw : MouseHookStruct}
    (hh : h = .mouse wParam raw) :
    Queues h (parseHookMessage h.device h.message) ↔ h.Handled := by
  have hexpected : h.expected = eventTypeOf raw.delta (wmType wParam) := by rw [hh]; rfl
  have hhandled : h.Handled = raw.Handled (wmType wParam) := by rw [hh]; rfl
  have hmessage : h.message = lowLevelMouseProc wParam raw := by rw [hh]; rfl
  rw [hhandled, hmessage, lowLevelMouseProc]
  cases ht : wmType wParam <;> rw [ht] at hexpected
  case keyDown | keyUp | sysKeyDown | sysKeyUp =>
    exact iff_of_false (not_queues_error h .keyError) id
  case mouseWheel =>
    refine (queues_ok_finish h _ _).trans ?_
    rw [hexpected]
    exact wheelDirection_eq_iff raw (.inl ht)
  case mouseHWheel =>
    refine (queues_ok_finish h _ _).trans ?_
    rw [hexpected]
    exact wheelDirection_eq_iff raw (.inr ht)
  all_goals exact iff_of_true ((queues_ok_finish h _ _).mpr hexpected.symm) trivial

theorem queues_iff_handled (h : HookEvent) :
    Queues h (parseHookMessage h.device h.message) ↔ h.Handled := by
  cases h with
  | keyboard wParam raw => exact queues_keyboard_iff rfl
  | mouse wParam raw => exact queues_mouse_iff rfl

/-- The queue only grows, and what is put there does not depend on it. -/
theorem deliver_append (queue : List Buffer) (hs : List HookEvent) :
    deliver queue hs = (queue ++ (deliver [] hs).1, (deliver [] hs).2) := by
  induction hs generalizing queue with
  | nil => simp [deliver]
  | cons h hs ih =>
      unfold deliver
      split
      next event _ => rw [ih (queue ++ [event]), ih ([] ++ [event])]; simp
      next => simp

/-- One step of a run of deliveries. -/
theorem agree_cons_iff (h : HookEvent) (hs : List HookEvent) :
    Agree (h :: hs) ↔ Queues h (parseHookMessage h.device h.message) ∧ Agree hs := by
  unfold Agree
  rw [deliver]
  cases parseHookMessage h.device h.message with
  | error e => simp
  | ok event =>
      change (deliver [event] hs).2 = none ∧ List.Forall₂ Stands (h :: hs) (deliver [event] hs).1 ↔
        Stands h event ∧ _
      rw [deliver_append, List.singleton_append, List.forall₂_cons]
      exact and_left_comm

/-- For every sequence of native events, the listener queues one event of the right type for
each of them and raises nothing if and only if every one of them is handled. -/
theorem agree_iff_handled (hs : List HookEvent) : Agree hs ↔ ∀ h ∈ hs, h.Handled := by
  induction hs with
  | nil => simp [Agree, deliver]
  | cons h hs ih => rw [agree_cons_iff, queues_iff_handled, ih, List.forall_mem_cons]

/-- Ctrl and Break make the key `VK_CANCEL`, which the listener does not know. -/
def cancelKey : HookEvent := .keyboard 0x0100 ⟨0x03, 0x46, 1, 0⟩

/-- A wheel that reports two notches at once. -/
def twoNotches : HookEvent := .mouse 0x020A ⟨0, 0, 0x00F00000, 0, 0⟩

/-- The name of a key that the agent knows is a `KeyError` of the listener, and a wheel
that turns by two notches is queued with an unknown type. -/
theorem cancel_key_raises :
    ¬Agree [cancelKey] ∧ (deliver [] [cancelKey]) = ([], some .keyError) ∧
      ¬Agree [twoNotches] ∧ twoNotches.expected = .wheelForward ∧
        (deliver [] [twoNotches]).1.map (Dict.get? · .type) = [some (.kind .unknown)] := by
  have hkey : deliver [] [cancelKey] = ([], some .keyError) := rfl
  have hwheel : (deliver [] [twoNotches]).1.map (Dict.get? · .type) = [some (.kind .unknown)] := by
    decide +kernel
  have hexpected : twoNotches.expected = .wheelForward := by decide
  refine ⟨fun h => ?_, hkey, fun h => ?_, hexpected, hwheel⟩
  · have := h.1
    rw [hkey] at this
    cases this
  · obtain ⟨event, hevent⟩ := List.map_eq_singleton_iff.mp hwheel
    have := h.2
    rw [hevent.1, List.forall₂_cons] at this
    have htype := this.1.1
    rw [hevent.2, hexpected] at htype
    cases htype

end TpQemu.InputEvent

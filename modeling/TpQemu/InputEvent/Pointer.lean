import TpQemu.InputEvent.WellFormed

/-!
# Absolute pointers

An absolute pointing device reports an axis only when its value has changed. The listener
starts every frame with a new dictionary, so an event has the position on the axes of its own
frame only, while `mouse_move_test` of `provider/input_tests.py` takes both positions from each
event of the queue. The two agree exactly when every frame reports both axes: a horizontal or
vertical move raises a `KeyError` in the test.
-/

namespace TpQemu.InputEvent

/-! ## The device -/

/-- The event reports an absolute axis. -/
def NativeEvent.isAxis (axis : String) (e : NativeEvent) : Bool :=
  e.typeName = .evAbs && e.codeName = axis

/-- The last value reported for an axis. -/
def lastAxis (axis : String) (es : List NativeEvent) : Option Int :=
  es.reverse.findSome? fun e => if e.isAxis axis then some (e.value : Int) else none

/-- The device has no relative axes. -/
def AbsolutePointer (es : List NativeEvent) : Prop :=
  ∀ e ∈ es, e.typeName = .evRel → e.codeName ≠ "REL_X" ∧ e.codeName ≠ "REL_Y"

/-- An axis is reported when its value has changed. -/
def ReportsChanges (es : List NativeEvent) : Prop :=
  ∀ before e after, es = before ++ e :: after → ∀ axis ∈ ["ABS_X", "ABS_Y"],
    e.isAxis axis = true → lastAxis axis before ≠ some e.value

/-- The position of the pointer on an axis at the end of the `k`-th frame, once the axis has
been reported. -/
def axisAt (axis : String) (es : List NativeEvent) (k : Nat) : Option Int :=
  lastAxis axis ((framesOf es).take (k + 1)).flatten

/-- The position of the pointer at the end of the `k`-th frame, once both axes have been
reported. -/
def positionAt (es : List NativeEvent) (k : Nat) : Option (Int × Int) :=
  (axisAt "ABS_X" es k).bind fun x => (axisAt "ABS_Y" es k).map fun y => (x, y)

/-- The messages of a single device. -/
def pointerStream (dev : String) (es : List NativeEvent) : List Message :=
  .info dev :: es.map (.event dev)

/-! ## The test -/

/-- `0 <= xpos <= width and 0 <= ypos <= height` -/
def onScreen (width height : Int) (pos : Int × Int) : Bool :=
  (0 ≤ pos.1 && pos.1 ≤ width) && (0 ≤ pos.2 && pos.2 ≤ height)

/-- The loop of `mouse_move_test` that empties the queue. The listener stores only numbers
as positions. -/
def collect (width height : Int) (eventLst : List (Int × Int)) :
    List Buffer → Except PyError (List (Int × Int))
  | [] => .ok eventLst
  | event :: later =>
      match event.get? .xPos, event.get? .yPos with
      | some (.num xpos), some (.num ypos) =>
          if onScreen width height (xpos, ypos) then
            collect width height (eventLst ++ [(xpos, ypos)]) later
          else collect width height eventLst later
      | some _, some _ => .error .typeError
      | _, _ => .error .keyError

/-- From the frame on in which the position is known, every pointer event has it, and the test
collects the path of the pointer. -/
structure SeesPointer (es : List NativeEvent) (queue : List Buffer) : Prop where
  complete : ∀ k b x y, queue[k]? = some b → positionAt es k = some (x, y) →
    b.get? .type = some (.kind .pointerMove) →
      b.get? .xPos = some (.num x) ∧ b.get? .yPos = some (.num y)
  path : ∀ k, k < queue.length → (positionAt es k).isSome = true → ∀ width height,
    collect width height [] (queue.drop k) =
      .ok (((List.range' k (queue.length - k)).filterMap (positionAt es)).filter
        (onScreen width height))

/-- From the frame on in which the position is known, every frame reports both axes. -/
def ReportsBoth (es : List NativeEvent) : Prop :=
  ∀ k frame, (framesOf es)[k]? = some frame → (positionAt es k).isSome = true →
    ∀ axis ∈ ["ABS_X", "ABS_Y"], ∃ e ∈ frame, e.isAxis axis = true

/-! ## Axes -/

theorem lastAxis_append (axis : String) (before after : List NativeEvent) :
    lastAxis axis (before ++ after) = (lastAxis axis after).or (lastAxis axis before) := by
  rw [lastAxis, lastAxis, lastAxis, List.reverse_append, List.findSome?_append]

theorem lastAxis_isSome_iff {axis : String} {es : List NativeEvent} :
    (lastAxis axis es).isSome = true ↔ ∃ e ∈ es, e.isAxis axis = true := by
  rw [lastAxis, List.findSome?_isSome_iff]
  simp

/-- The value of an axis after one more frame. -/
theorem axisAt_eq {axis : String} {es : List NativeEvent} {k : Nat} {frame : List NativeEvent}
    (h : (framesOf es)[k]? = some frame) :
    axisAt axis es k =
      (lastAxis axis frame).or (lastAxis axis ((framesOf es).take k).flatten) := by
  rw [axisAt, List.take_add_one, h, List.flatten_append, lastAxis_append]
  simp

theorem positionAt_isSome_iff {es : List NativeEvent} {k : Nat} :
    (positionAt es k).isSome = true ↔
      ∀ axis ∈ ["ABS_X", "ABS_Y"], (axisAt axis es k).isSome = true := by
  rw [positionAt]
  cases hx : axisAt "ABS_X" es k with
  | none => simp [hx]
  | some x => simp [hx]

/-- A position that is known stays known. -/
theorem positionAt_isSome_succ {es : List NativeEvent} {k : Nat}
    (h : (positionAt es k).isSome = true) : (positionAt es (k + 1)).isSome = true := by
  rw [positionAt_isSome_iff] at h ⊢
  intro axis haxis
  have hk := h axis haxis
  rw [axisAt, List.take_add_one, List.flatten_append, lastAxis_append, Option.isSome_or,
    Bool.or_eq_true]
  exact .inr hk

/-! ## Positions of the queued events -/

/-- The position an axis of the device sets. -/
def axisOf : Field → String
  | .xPos => "ABS_X"
  | _ => "ABS_Y"

theorem lookup_wheel {f : Field} (hf : f = .xPos ∨ f = .yPos) (value : Nat) (scroll abs : Val) :
    (wheelType value ++ [(Field.hScroll, scroll), (Field.abs, abs)]).reverse.lookup f = none := by
  rw [wheelType]
  obtain rfl | rfl := hf
  · split_ifs <;> rfl
  · split_ifs <;> rfl

theorem value?_position_evAbs (code : String) (value : Nat) {f : Field}
    (hf : f = .xPos ∨ f = .yPos) :
    NativeEvent.value? ⟨.evAbs, code, value⟩ f =
      if code = axisOf f then some (.num value) else none := by
  simp only [NativeEvent.value?, NativeEvent.assignments]
  by_cases hx : code = "ABS_X"
  · rw [if_pos hx, hx]
    obtain rfl | rfl := hf <;> rfl
  · by_cases hy : code = "ABS_Y"
    · rw [if_neg hx, if_pos hy, hy]
      obtain rfl | rfl := hf <;> rfl
    · have hother : code ≠ axisOf f := by
        obtain rfl | rfl := hf
        · exact hx
        · exact hy
      rw [if_neg hx, if_neg hy, if_neg hother]
      split_ifs
      · exact lookup_wheel hf value _ _
      · rfl

/-- Only the two absolute axes of such a device set the positions. -/
theorem value?_position {e : NativeEvent}
    (h : e.typeName = .evRel → e.codeName ≠ "REL_X" ∧ e.codeName ≠ "REL_Y") {f : Field}
    (hf : f = .xPos ∨ f = .yPos) :
    e.value? f = if e.isAxis (axisOf f) then some (.num e.value) else none := by
  obtain ⟨t, code, value⟩ := e
  cases t with
  | evAbs =>
      rw [value?_position_evAbs code value hf]
      simp [NativeEvent.isAxis]
  | evRel =>
      obtain ⟨hx, hy⟩ := h rfl
      show NativeEvent.value? ⟨.evRel, code, value⟩ f = none
      simp only [NativeEvent.value?, NativeEvent.assignments]
      rw [if_neg hx, if_neg hy]
      split_ifs
      · exact lookup_wheel hf value _ _
      · exact lookup_wheel hf value _ _
      · rfl
  | evMsc =>
      show NativeEvent.value? ⟨.evMsc, code, value⟩ f = none
      simp only [NativeEvent.value?, NativeEvent.assignments]
      obtain rfl | rfl := hf <;> split_ifs <;> rfl
  | _ => obtain rfl | rfl := hf <;> rfl

theorem lastValue?_position {frame : List NativeEvent} (h : AbsolutePointer frame) {f : Field}
    (hf : f = .xPos ∨ f = .yPos) :
    lastValue? f frame = (lastAxis (axisOf f) frame).map .num := by
  induction frame using List.reverseRecOn with
  | nil => rfl
  | append_singleton frame e ih =>
      have hframe : AbsolutePointer frame := fun e' he' => h e' (List.mem_append_left _ he')
      have he := value?_position (h e (List.mem_append_right _ List.mem_cons_self)) hf
      have hlast : lastAxis (axisOf f) [e] =
          if e.isAxis (axisOf f) then some (e.value : Int) else none := by
        rw [lastAxis, List.reverse_singleton, List.findSome?_singleton]
      rw [lastValue?_snoc, lastAxis_append, ih hframe, he, hlast]
      split_ifs <;> rfl

/-- The events of the frames are events of the device. -/
theorem mem_of_mem_framesOf {es frame : List NativeEvent} (h : frame ∈ framesOf es)
    {e : NativeEvent} (he : e ∈ frame) : e ∈ es := by
  induction es using frames_induction with
  | unfinished es hes =>
      rw [framesOf_unfinished hes] at h
      cases h
  | frame first report rest hfirst hreport ih =>
      rw [framesOf_frame hfirst hreport] at h
      obtain rfl | h := List.mem_cons.mp h
      · exact List.mem_append_left _ he
      · exact List.mem_append_right _ (List.mem_cons_of_mem report (ih h))

theorem nativeOf_map (dev d : String) (es : List NativeEvent) :
    nativeOf d (es.map (.event dev)) = if d = dev then es else [] := by
  induction es with
  | nil => simp [nativeOf]
  | cons e es ih =>
      rw [List.map_cons, nativeOf, ih]
      by_cases hd : d = dev
      · rw [if_pos hd.symm, if_pos hd, if_pos hd]
      · rw [if_neg (Ne.symm hd), if_neg hd, if_neg hd]

theorem announced_map {dev : String} {known : List String} (h : dev ∈ known)
    (es : List NativeEvent) : Announced known (es.map (.event dev)) := by
  induction es with
  | nil => exact trivial
  | cons e es ih => exact ⟨h, ih⟩

theorem announced_pointerStream (dev : String) (es : List NativeEvent) :
    Announced [] (pointerStream dev es) :=
  ⟨List.not_mem_nil, announced_map List.mem_cons_self es⟩

/-- With a single device the queue has the events of this device only. -/
theorem queue_pointerStream (dev : String) (es : List NativeEvent) :
    (Listener.initialised.receive (pointerStream dev es)).1.queue = frames dev es := by
  have hannounced := announced_pointerStream dev es
  have hnative (d : String) : nativeOf d (pointerStream dev es) = if d = dev then es else [] :=
    nativeOf_map dev d es
  have hqueued := (follows_initialised.receive hannounced).2 dev
  rw [List.nil_append, hnative, if_pos rfl] at hqueued
  rw [← hqueued, Listener.queuedFor]
  refine (List.filter_eq_self.mpr fun b hb => ?_).symm
  obtain ⟨d, hb⟩ := (mem_queue_iff hannounced).mp hb
  rw [hnative] at hb
  by_cases hd : d = dev
  · subst hd
    rw [if_pos rfl, ← hqueued, Listener.queuedFor, List.mem_filter] at hb
    exact hb.2
  · rw [if_neg hd] at hb
    cases hb

/-- An event has the positions its own frame reports. -/
theorem get?_position {es : List NativeEvent} (h : AbsolutePointer es) {dev : String} {k : Nat}
    {b : Buffer} (hb : (frames dev es)[k]? = some b) :
    ∃ frame, (framesOf es)[k]? = some frame ∧
      b.get? .xPos = (lastAxis "ABS_X" frame).map .num ∧
      b.get? .yPos = (lastAxis "ABS_Y" frame).map .num := by
  rw [getElem?_frames, Option.map_eq_some_iff] at hb
  obtain ⟨frame, hframe, rfl⟩ := hb
  have habs : AbsolutePointer frame := fun e he =>
    h e (mem_of_mem_framesOf (List.mem_of_getElem? hframe) he)
  have hstart {f : Field} (hf : f = .xPos ∨ f = .yPos) :
      (if k = 0 then (∅ : Buffer) else resetBuffer).get? f = none := by
    obtain rfl | rfl := hf <;> split_ifs <;> rfl
  have hget {f : Field} (hf : f = .xPos ∨ f = .yPos) :
      (frameEvent dev (if k = 0 then ∅ else resetBuffer) frame).get? f =
        (lastAxis (axisOf f) frame).map .num := by
    have hne : f ≠ .device := by
      obtain rfl | rfl := hf <;> decide
    rw [get?_frameEvent _ _ _ hne, lastValue?_position habs hf, hstart hf, Option.or_none]
  exact ⟨frame, hframe, hget (.inl rfl), hget (.inr rfl)⟩

/-! ## Paths -/

/-- The test reads both positions of an event. -/
theorem collect_cons (width height : Int) (eventLst : List (Int × Int)) {b : Buffer} {x y : Int}
    (hx : b.get? .xPos = some (.num x)) (hy : b.get? .yPos = some (.num y))
    (later : List Buffer) :
    collect width height eventLst (b :: later) =
      collect width height (eventLst ++ [(x, y)].filter (onScreen width height)) later := by
  rw [collect, hx, hy]
  by_cases h : onScreen width height (x, y) = true
  · rw [List.filter_cons_of_pos h]
    exact if_pos h
  · rw [List.filter_cons_of_neg h, List.filter_nil, List.append_nil]
    exact if_neg h

theorem exists_position_of_collect {width height : Int} {eventLst out : List (Int × Int)}
    {b : Buffer} {later : List Buffer}
    (h : collect width height eventLst (b :: later) = .ok out) :
    (b.get? .xPos).isSome = true ∧ (b.get? .yPos).isSome = true := by
  rw [collect] at h
  split at h
  · rename_i hx hy
    rw [hx, hy]
    exact ⟨rfl, rfl⟩
  · cases h
  · cases h

section Path

variable {es : List NativeEvent} {dev : String}

/-- In a frame with both axes the position is the one the event has. -/
theorem get?_positionAt (h : AbsolutePointer es) (hboth : ReportsBoth es) {k : Nat} {b : Buffer}
    (hb : (frames dev es)[k]? = some b) {x y : Int} (hpos : positionAt es k = some (x, y)) :
    b.get? .xPos = some (.num x) ∧ b.get? .yPos = some (.num y) := by
  obtain ⟨frame, hframe, hx, hy⟩ := get?_position h hb
  have haxes := hboth k frame hframe (by rw [hpos]; rfl)
  have haxis (axis : String) (haxis : axis ∈ ["ABS_X", "ABS_Y"]) :
      lastAxis axis frame = axisAt axis es k := by
    obtain ⟨v, hv⟩ := Option.isSome_iff_exists.mp (lastAxis_isSome_iff.mpr (haxes axis haxis))
    rw [axisAt_eq hframe, hv, Option.some_or]
  rw [positionAt, Option.bind_eq_some_iff] at hpos
  obtain ⟨x', hx', hy'⟩ := hpos
  obtain ⟨y', hy', heq⟩ := Option.map_eq_some_iff.mp hy'
  cases heq
  rw [hx, hy, haxis "ABS_X" (by simp), haxis "ABS_Y" (by simp), hx', hy']
  exact ⟨rfl, rfl⟩

/-- The test collects the path from a known position on. -/
theorem collect_path (h : AbsolutePointer es) (hboth : ReportsBoth es) (width height : Int)
    (n k : Nat) (hk : k + n = (frames dev es).length)
    (hknown : 0 < n → (positionAt es k).isSome = true) (eventLst : List (Int × Int)) :
    collect width height eventLst ((frames dev es).drop k) =
      .ok (eventLst ++ ((List.range' k n).filterMap (positionAt es)).filter
        (onScreen width height)) := by
  induction n generalizing k eventLst with
  | zero =>
      rw [List.drop_eq_nil_of_le (by omega), List.range'_zero, List.filterMap_nil,
        List.filter_nil, List.append_nil]
      rfl
  | succ n ih =>
      have hlt : k < (frames dev es).length := by omega
      have hsome := hknown (Nat.succ_pos n)
      obtain ⟨⟨x, y⟩, hpos⟩ := Option.isSome_iff_exists.mp hsome
      obtain ⟨hx, hy⟩ := get?_positionAt h hboth (List.getElem?_eq_getElem hlt) hpos
      rw [List.drop_eq_getElem_cons hlt, collect_cons width height eventLst hx hy,
        ih (k + 1) (by omega) (fun _ => positionAt_isSome_succ hsome), List.append_assoc,
        ← List.filter_append, List.range'_succ, List.filterMap_cons_some hpos]
      rfl

end Path

/-- The listener and the test see the pointer exactly when every frame reports both axes, from
the frame on in which its position is known. -/
theorem seesPointer_iff (dev : String) (es : List NativeEvent) (absolute : AbsolutePointer es) :
    SeesPointer es (Listener.initialised.receive (pointerStream dev es)).1.queue ↔
      ReportsBoth es := by
  rw [queue_pointerStream]
  constructor
  · intro h k frame hframe hknown
    have hlt : k < (frames dev es).length := by
      rw [length_frames]
      exact (List.getElem?_eq_some_iff.mp hframe).1
    have hpath := h.path k hlt hknown 0 0
    rw [List.drop_eq_getElem_cons hlt] at hpath
    obtain ⟨hx, hy⟩ := exists_position_of_collect hpath
    obtain ⟨frame', hframe', hx', hy'⟩ := get?_position absolute (List.getElem?_eq_getElem hlt)
    rw [hframe] at hframe'
    cases hframe'
    rw [hx', Option.isSome_map] at hx
    rw [hy', Option.isSome_map] at hy
    intro axis haxis
    apply lastAxis_isSome_iff.mp
    obtain rfl | haxis := List.mem_cons.mp haxis
    · exact hx
    · rw [List.mem_singleton.mp haxis]
      exact hy
  · intro hboth
    refine ⟨fun k b x y hb hpos _ => get?_positionAt absolute hboth hb hpos, ?_⟩
    intro k hlt hknown width height
    rw [collect_path absolute hboth width height ((frames dev es).length - k) k (by omega)
      (fun _ => hknown), List.nil_append]

/-- A tablet whose pointer moves along a diagonal. -/
def diagonalMove : List NativeEvent :=
  [⟨.evAbs, "ABS_X", 10⟩, ⟨.evAbs, "ABS_Y", 20⟩, ⟨.evSyn, "SYN_REPORT", 0⟩,
    ⟨.evAbs, "ABS_X", 11⟩, ⟨.evAbs, "ABS_Y", 21⟩, ⟨.evSyn, "SYN_REPORT", 0⟩]

theorem seesPointer_diagonalMove :
    AbsolutePointer diagonalMove ∧
      SeesPointer diagonalMove
        (Listener.initialised.receive (pointerStream "event0" diagonalMove)).1.queue := by
  have absolute : AbsolutePointer diagonalMove := by
    rw [AbsolutePointer]
    decide
  refine ⟨absolute, (seesPointer_iff "event0" diagonalMove absolute).mpr ?_⟩
  have hframes : ∀ frame ∈ framesOf diagonalMove, ∀ axis ∈ ["ABS_X", "ABS_Y"],
      ∃ e ∈ frame, e.isAxis axis = true := by
    decide
  exact fun k frame hframe _ => hframes frame (List.mem_of_getElem? hframe)

/-- The pointer moves to the right. -/
def horizontalMove : List NativeEvent :=
  [⟨.evAbs, "ABS_X", 10⟩, ⟨.evAbs, "ABS_Y", 20⟩, ⟨.evSyn, "SYN_REPORT", 0⟩,
    ⟨.evAbs, "ABS_X", 11⟩, ⟨.evSyn, "SYN_REPORT", 0⟩]

theorem reportsChanges_horizontalMove : ReportsChanges horizontalMove := by
  have hindex : ∀ k < 5, ∀ axis ∈ ["ABS_X", "ABS_Y"], ∀ e ∈ horizontalMove[k]?,
      e.isAxis axis = true → lastAxis axis (horizontalMove.take k) ≠ some e.value := by
    decide
  intro before e after h axis haxis he
  have hlength := congrArg List.length h
  have hlt : before.length < 5 := by
    rw [List.length_append, List.length_cons] at hlength
    have hfive : horizontalMove.length = 5 := rfl
    omega
  have hbefore := hindex before.length hlt axis haxis e (by rw [h]; simp) he
  rwa [h, List.take_left] at hbefore

/-- The second event has no position on the vertical axis, and the test raises. -/
theorem horizontalMove_not_seen :
    AbsolutePointer horizontalMove ∧ ReportsChanges horizontalMove ∧
      positionAt horizontalMove 0 = some (10, 20) ∧
      collect 1024 768 []
        (Listener.initialised.receive (pointerStream "event0" horizontalMove)).1.queue =
          .error .keyError ∧
      ¬SeesPointer horizontalMove
        (Listener.initialised.receive (pointerStream "event0" horizontalMove)).1.queue := by
  refine ⟨by rw [AbsolutePointer]; decide, reportsChanges_horizontalMove, by decide, by rfl,
    fun h => ?_⟩
  have hpath := h.path 0 (by decide) (by decide) 1024 768
  cases hpath

end TpQemu.InputEvent

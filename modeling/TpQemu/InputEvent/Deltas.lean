import TpQemu.InputEvent.Agent
import TpQemu.InputEvent.WellFormed

/-!
# Signed deltas

The kernel writes the value of a record as a signed number, and the agent reads it with the
format `I`, without its sign: the listener gets a negative delta as its two's complement. It
takes the delta of an axis as it is and compares the one of a wheel with `1` and with
`0xFFFFFFFF`, the complement of `-1`.

So the delta of an axis is queued when it is not negative, and a wheel turned by one step gives
the event its direction. Other deltas are queued only when another event of the frame happens
to set the same field to the right value.
-/

namespace TpQemu.InputEvent

open Words

/-! ## Records on their way to the listener -/

/-- The event the listener gets for a record of the kernel. -/
def InputRecord.sent (o : ByteOrder) (r : InputRecord) : Option NativeEvent :=
  (unpackEvent o (r.bytes o)).map fun raw => (formatEvent raw).native

/-- The agent reads the fields of a record back, all but the last one as they were. -/
theorem unpackEvent_bytes (o : ByteOrder) (r : InputRecord) :
    unpackEvent o (r.bytes o) = some {
      tvSec := signedValue 8 (complement 8 r.sec)
      tvUsec := signedValue 8 (complement 8 r.usec)
      evType := r.type % fieldLimit 2
      evCode := r.code % fieldLimit 2
      evValue := complement 4 r.value } := by
  have hlength : (r.bytes o).length = evPackSize := by
    simp only [InputRecord.bytes, List.length_append, length_packField]
    rfl
  have hbytes : r.bytes o = packField o 8 (complement 8 r.sec) ++
      (packField o 8 (complement 8 r.usec) ++ (packField o 2 r.type ++
        (packField o 2 r.code ++ packField o 4 (complement 4 r.value)))) := by
    simp only [InputRecord.bytes, List.append_assoc]
  have hdrop8 := drop_packField_append o 8 (complement 8 r.sec) (packField o 8
    (complement 8 r.usec) ++ (packField o 2 r.type ++
      (packField o 2 r.code ++ packField o 4 (complement 4 r.value))))
  rw [← hbytes] at hdrop8
  have hdrop16 : (r.bytes o).drop 16 = packField o 2 r.type ++
      (packField o 2 r.code ++ packField o 4 (complement 4 r.value)) := by
    rw [show 16 = 8 + 8 from rfl, ← List.drop_drop, hdrop8, drop_packField_append]
  have hdrop18 : (r.bytes o).drop 18 =
      packField o 2 r.code ++ packField o 4 (complement 4 r.value) := by
    rw [show 18 = 16 + 2 from rfl, ← List.drop_drop, hdrop16, drop_packField_append]
  have hdrop20 : (r.bytes o).drop 20 = packField o 4 (complement 4 r.value) := by
    rw [show 20 = 18 + 2 from rfl, ← List.drop_drop, hdrop18, drop_packField_append]
  rw [unpackEvent, if_pos hlength, hdrop8, hdrop16, hdrop18, hdrop20, hbytes]
  rw [take_packField_append, take_packField_append, take_packField_append, take_packField_append,
    unpack_packField_complement, unpack_packField_complement, unpack_packField, unpack_packField,
    unpack_packField_complement]

/-! ## Deltas -/

/-- The relative axes and wheels the listener knows. -/
inductive Delta where
  | x
  | y
  | wheel
  | hwheel

/-- The code of a delta in `EV_REL_CODES`. -/
def Delta.code : Delta → Nat
  | .x => 0
  | .y => 1
  | .wheel => 8
  | .hwheel => 6

/-- The direction of a wheel. -/
def deltaDirection (v : Int) : EventType := if 0 < v then .wheelForward else .wheelBackward

/-- The event has the delta: an axis its value, a wheel that has moved its direction. -/
def Delta.Survives (v : Int) (b : Buffer) : Delta → Prop
  | .x => b.get? .xPos = some (.num v)
  | .y => b.get? .yPos = some (.num v)
  | .wheel | .hwheel => v ≠ 0 → b.get? .type = some (.kind (deltaDirection v))

/-- The last event behind the delta that sets the field gives the value to it; if there is none,
the delta is not negative. -/
def AxisKept (f : Field) (v : Int) (after : List NativeEvent) : Prop :=
  lastValue? f after = some (.num v) ∨ (lastValue? f after = none ∧ 0 ≤ v)

/-- The last event behind the delta that sets the type gives the direction; if there is none, the
wheel has moved by one step, or the last event before that sets the type gives the direction. -/
def WheelKept (v : Int) (before after : List NativeEvent) : Prop :=
  lastValue? .type after = some (.kind (deltaDirection v)) ∨
    (lastValue? .type after = none ∧
      (v = 1 ∨ v = -1 ∨ lastValue? .type before = some (.kind (deltaDirection v))))

/-- What the other events of its frame have to be for a delta to survive. -/
def Delta.Kept (v : Int) (before after : List NativeEvent) : Delta → Prop
  | .x => AxisKept .xPos v after
  | .y => AxisKept .yPos v after
  | .wheel | .hwheel => v ≠ 0 → WheelKept v before after

/-- The name of a delta in `EV_REL_CODES`. -/
def Delta.name : Delta → String
  | .x => "REL_X"
  | .y => "REL_Y"
  | .wheel => "REL_WHEEL"
  | .hwheel => "REL_HWHEEL"

theorem sent_delta (o : ByteOrder) {r : InputRecord} (d : Delta) (htype : r.type = 2)
    (hcode : r.code = d.code) :
    r.sent o = some ⟨.evRel, d.name, complement 4 r.value⟩ := by
  rw [InputRecord.sent, unpackEvent_bytes, htype, hcode]
  cases d with
  | x => rfl
  | y => rfl
  | wheel => rfl
  | hwheel => rfl

/-! ## Their frames -/

/-- A frame never starts with the direction of a wheel. -/
theorem start_type_ne (k : Nat) (v : Int) :
    (if k = 0 then (∅ : Buffer) else resetBuffer).get? .type ≠
      some (.kind (deltaDirection v)) := by
  rw [deltaDirection]
  split_ifs <;> decide

theorem axisKept_iff {f : Field} {v : Int} (hlow : -0x80000000 ≤ v) (hhigh : v < 0x80000000)
    (after : List NativeEvent) (start : Option Val) :
    ((lastValue? f after).or (some (.num (complement 4 v)))).or start = some (.num v) ↔
      AxisKept f v after := by
  rw [AxisKept]
  cases lastValue? f after with
  | some w => simp
  | none =>
      have hlimit : (fieldLimit 4 : Int) = 0x100000000 := rfl
      have hcomplement : (complement 4 v : Int) = if v < 0 then v + fieldLimit 4 else v :=
        complement_eq (by omega) (by omega)
      simp only [Option.none_or, Option.some_or, Option.some.injEq, Val.num.injEq, hcomplement]
      split_ifs with hneg
      · exact iff_of_false (by omega) (by simp; omega)
      · exact iff_of_true rfl (by simp; omega)

/-- The complement of a delta is one of the two values of a wheel exactly when the delta is one
step. -/
theorem wheelType_complement {v : Int} (hlow : -0x80000000 ≤ v) (hhigh : v < 0x80000000) :
    wheelType (complement 4 v) =
      if v = 1 ∨ v = -1 then [(.type, .kind (deltaDirection v))] else [] := by
  have hlimit : (fieldLimit 4 : Int) = 0x100000000 := rfl
  have hcomplement : (complement 4 v : Int) = if v < 0 then v + fieldLimit 4 else v :=
    complement_eq (by omega) (by omega)
  rw [wheelType]
  by_cases hone : v = 1
  · subst hone
    rfl
  · by_cases hback : v = -1
    · subst hback
      rfl
    · have hforward : complement 4 v ≠ 0x00000001 := by
        split_ifs at hcomplement <;> omega
      have hbackward : complement 4 v ≠ 0xFFFFFFFF := by
        split_ifs at hcomplement <;> omega
      rw [if_neg hforward, if_neg hbackward, if_neg (by omega)]

theorem wheelKept_iff {v : Int} {start : Option Val} (before after : List NativeEvent)
    (hstart : start ≠ some (.kind (deltaDirection v))) :
    (((lastValue? .type after).or
        (if v = 1 ∨ v = -1 then some (.kind (deltaDirection v)) else none)).or
          (lastValue? .type before)).or start = some (.kind (deltaDirection v)) ↔
      WheelKept v before after := by
  rw [WheelKept]
  cases lastValue? .type after with
  | some w => simp
  | none =>
      split_ifs with hstep
      · exact iff_of_true rfl (.inr ⟨rfl, by omega⟩)
      · rw [not_or] at hstep
        cases lastValue? .type before with
        | some w => simp [hstep.1, hstep.2]
        | none => simp [hstart, hstep.1, hstep.2]

theorem get?_frameEvent_delta (dev : String) (start : Buffer) (before after : List NativeEvent)
    (e : NativeEvent) {f : Field} (hf : f ≠ .device) :
    (frameEvent dev start (before ++ e :: after)).get? f =
      (((lastValue? f after).or (e.value? f)).or (lastValue? f before)).or (start.get? f) := by
  rw [get?_frameEvent dev start _ hf, lastValue?_append, lastValue?_cons]

theorem value?_wheel {v : Int} (hlow : -0x80000000 ≤ v) (hhigh : v < 0x80000000) {name : String}
    (hname : name = "REL_HWHEEL" ∨ name = "REL_WHEEL") :
    NativeEvent.value? ⟨.evRel, name, complement 4 v⟩ .type =
      if v = 1 ∨ v = -1 then some (.kind (deltaDirection v)) else none := by
  have hwheel := wheelType_complement hlow hhigh
  rw [NativeEvent.value?, NativeEvent.assignments]
  obtain rfl | rfl := hname
  · show ((wheelType (complement 4 v) ++ _).reverse.lookup _ : Option Val) = _
    rw [hwheel]
    split_ifs <;> rfl
  · show ((wheelType (complement 4 v) ++ _).reverse.lookup _ : Option Val) = _
    rw [hwheel]
    split_ifs <;> rfl

/-- A delta survives the agent and the listener exactly when it is not negative, or one step of a
wheel, and nothing behind it in the frame overwrites it, or when another event of the frame
happens to set what it should have set. -/
theorem delta_survives_iff (o : ByteOrder) (ms : List Message) (announced : Announced [] ms)
    (dev : String) (k : Nat) (before after : List NativeEvent) (e : NativeEvent)
    (hframe : (framesOf (nativeOf dev ms))[k]? = some (before ++ e :: after)) (d : Delta)
    (r : InputRecord) (htype : r.type = 2) (hcode : r.code = d.code)
    (hlow : -0x80000000 ≤ r.value) (hhigh : r.value < 0x80000000) (hsent : r.sent o = some e) :
    ∃ b, ((Listener.initialised.receive ms).1.queuedFor dev)[k]? = some b ∧
      (d.Survives r.value b ↔ d.Kept r.value before after) := by
  refine ⟨_, getElem?_queuedFor announced hframe, ?_⟩
  rw [sent_delta o d htype hcode, Option.some.injEq] at hsent
  subst hsent
  have hstart := start_type_ne k r.value
  cases d with
  | x =>
      rw [Delta.Survives, Delta.Kept, get?_frameEvent_delta _ _ _ _ _ (by decide), Option.or_assoc]
      exact axisKept_iff hlow hhigh after _
  | y =>
      rw [Delta.Survives, Delta.Kept, get?_frameEvent_delta _ _ _ _ _ (by decide), Option.or_assoc]
      exact axisKept_iff hlow hhigh after _
  | wheel =>
      rw [Delta.Survives, Delta.Kept, get?_frameEvent_delta _ _ _ _ _ (by decide),
        Delta.name, value?_wheel hlow hhigh (.inr rfl)]
      exact forall_congr' fun _ => wheelKept_iff before after hstart
  | hwheel =>
      rw [Delta.Survives, Delta.Kept, get?_frameEvent_delta _ _ _ _ _ (by decide),
        Delta.name, value?_wheel hlow hhigh (.inl rfl)]
      exact forall_congr' fun _ => wheelKept_iff before after hstart

/-- A mouse that moves, in a frame of one native event. -/
def movedBy (e : NativeEvent) : List Message :=
  [.info "event0", .event "event0" e, .event "event0" ⟨.evSyn, "SYN_REPORT", 0⟩]

theorem announced_movedBy (e : NativeEvent) : Announced [] (movedBy e) := by
  simp [movedBy, Announced]

theorem delta_survives_right :
    ∃ b, ((Listener.initialised.receive
        (movedBy ⟨.evRel, "REL_X", complement 4 5⟩)).1.queuedFor "event0")[0]? = some b ∧
      Delta.Survives 5 b .x := by
  obtain ⟨b, hb, hiff⟩ := delta_survives_iff .little _
    (announced_movedBy ⟨.evRel, "REL_X", complement 4 5⟩) "event0" 0 [] []
    ⟨.evRel, "REL_X", complement 4 5⟩ rfl .x ⟨0, 0, 2, 0, 5⟩ rfl rfl (by decide) (by decide)
    (sent_delta .little .x rfl rfl)
  exact ⟨b, hb, hiff.mpr (.inr ⟨rfl, by decide⟩)⟩

/-- A move to the left by one arrives as a move to the right, and the direction of two steps of a
wheel gets lost. -/
theorem delta_lost :
    (InputRecord.sent .little ⟨0, 0, 2, 0, -1⟩ = some ⟨.evRel, "REL_X", complement 4 (-1)⟩ ∧
      ∃ b, ((Listener.initialised.receive
          (movedBy ⟨.evRel, "REL_X", complement 4 (-1)⟩)).1.queuedFor "event0")[0]? = some b ∧
        ¬Delta.Survives (-1) b .x) ∧
    InputRecord.sent .little ⟨0, 0, 2, 8, 2⟩ = some ⟨.evRel, "REL_WHEEL", complement 4 2⟩ ∧
      ∃ b, ((Listener.initialised.receive
          (movedBy ⟨.evRel, "REL_WHEEL", complement 4 2⟩)).1.queuedFor "event0")[0]? = some b ∧
        ¬Delta.Survives 2 b .wheel := by
  refine ⟨⟨sent_delta .little .x rfl rfl, _, rfl, ?_⟩,
    sent_delta .little .wheel rfl rfl, _, rfl, ?_⟩
  · intro h
    rw [Delta.Survives] at h
    revert h
    decide
  · intro h
    have h' := h (by decide)
    revert h'
    decide

end TpQemu.InputEvent

import Mathlib.Data.List.Induction
import TpQemu.InputEvent.Keys

/-!
# Fields of the queued events

A queued event is what its frame has made of the buffer the frame has started with: for each
field the last value the frame assigns to it, or the one of the buffer (`framesFrom_eq`,
`get?_frameBuffer`). Only the first frame of a device starts with an empty buffer.

The type of an event is one of the event types unless the last event of the frame that
sets it is an autorepeat, whose value is taken as the type, or no event of the first frame
sets it.
-/

namespace TpQemu.InputEvent

/-! ## Values of a frame -/

/-- The value an event assigns to a field. -/
def NativeEvent.value? (e : NativeEvent) (f : Field) : Option Val :=
  e.assignments.reverse.lookup f

/-- The last value a frame assigns to a field. -/
def lastValue? (f : Field) (frame : List NativeEvent) : Option Val :=
  frame.reverse.findSome? fun e => e.value? f

/-- The buffer at the end of a frame. -/
def frameBuffer (start : Buffer) (frame : List NativeEvent) : Buffer := frame.foldl assign start

theorem get?_foldl_set (as : List (Field × Val)) (cur : Buffer) (f : Field) :
    (as.foldl (fun b a => b.set a.1 a.2) cur).get? f = (as.reverse.lookup f).or (cur.get? f) := by
  induction as using List.reverseRecOn with
  | nil => rfl
  | append_singleton as a ih =>
      rw [List.foldl_append, List.foldl_cons, List.foldl_nil, List.reverse_append,
        List.reverse_singleton, List.singleton_append]
      by_cases hf : f = a.1
      · subst hf
        rw [Dict.get?_set_self, List.lookup_cons_self]
        rfl
      · rw [Dict.get?_set_ne _ hf, ih, List.lookup_cons, beq_false_of_ne hf]

theorem get?_assign_eq (cur : Buffer) (e : NativeEvent) (f : Field) :
    (assign cur e).get? f = (e.value? f).or (cur.get? f) :=
  get?_foldl_set e.assignments cur f

theorem lastValue?_snoc (f : Field) (frame : List NativeEvent) (e : NativeEvent) :
    lastValue? f (frame ++ [e]) = (e.value? f).or (lastValue? f frame) := by
  rw [lastValue?, lastValue?, List.reverse_append, List.reverse_singleton, List.singleton_append,
    List.findSome?_cons]
  cases e.value? f with
  | none => rfl
  | some v => rfl

theorem lastValue?_append (f : Field) (before after : List NativeEvent) :
    lastValue? f (before ++ after) = (lastValue? f after).or (lastValue? f before) := by
  rw [lastValue?, lastValue?, lastValue?, List.reverse_append, List.findSome?_append]

theorem lastValue?_cons (f : Field) (e : NativeEvent) (after : List NativeEvent) :
    lastValue? f (e :: after) = (lastValue? f after).or (e.value? f) := by
  rw [← List.singleton_append, lastValue?_append]
  congr 1
  rw [lastValue?, List.reverse_singleton, List.findSome?_singleton]

/-- A field has the last value of the frame, or the one it had before. -/
theorem get?_frameBuffer (start : Buffer) (frame : List NativeEvent) (f : Field) :
    (frameBuffer start frame).get? f = (lastValue? f frame).or (start.get? f) := by
  induction frame using List.reverseRecOn with
  | nil => rfl
  | append_singleton frame e ih =>
      rw [frameBuffer, List.foldl_append, List.foldl_cons, List.foldl_nil, get?_assign_eq,
        lastValue?_snoc, Option.or_assoc, ← ih]
      rfl

/-- Where the last value of a frame comes from. -/
theorem lastValue?_eq_some_iff {f : Field} {frame : List NativeEvent} {v : Val} :
    lastValue? f frame = some v ↔ ∃ (before : List NativeEvent) (e : NativeEvent)
      (after : List NativeEvent), frame = before ++ e :: after ∧
      e.value? f = some v ∧ ∀ e' ∈ after, e'.value? f = none := by
  rw [lastValue?, List.findSome?_eq_some_iff]
  constructor
  · rintro ⟨after, e, before, hframe, he, hafter⟩
    refine ⟨before.reverse, e, after.reverse, ?_, he, fun e' he' => ?_⟩
    · rw [← List.reverse_reverse frame, hframe]
      simp
    · exact hafter e' (List.mem_reverse.mp he')
  · rintro ⟨before, e, after, rfl, he, hafter⟩
    refine ⟨after.reverse, e, before.reverse, by simp, he, fun e' he' => ?_⟩
    exact hafter e' (List.mem_reverse.mp he')

theorem lastValue?_eq_none_iff {f : Field} {frame : List NativeEvent} :
    lastValue? f frame = none ↔ ∀ e ∈ frame, e.value? f = none := by
  rw [lastValue?, List.findSome?_eq_none_iff]
  simp only [List.mem_reverse]

theorem mem_assignments_of_value? {e : NativeEvent} {f : Field} {v : Val}
    (h : e.value? f = some v) : (f, v) ∈ e.assignments := by
  obtain ⟨before, after, heq, -⟩ := List.lookup_eq_some_iff.mp h
  rw [← List.mem_reverse, heq]
  exact List.mem_append_right _ List.mem_cons_self

theorem value?_eq_none_iff {e : NativeEvent} {f : Field} :
    e.value? f = none ↔ ∀ v, (f, v) ∉ e.assignments := by
  rw [NativeEvent.value?, List.lookup_eq_none_iff]
  constructor
  · intro h v hv
    have hne := h (f, v) (List.mem_reverse.mpr hv)
    simp at hne
  · rintro h ⟨f', v⟩ hv
    rw [bne_iff_ne]
    rintro rfl
    exact h v (List.mem_reverse.mp hv)

/-! ## Events that set the type -/

/-- A key that is held down. -/
def NativeEvent.isAutorepeat (e : NativeEvent) : Bool := e.typeName = .evKey && 1 < e.value

theorem value?_type_eq_none_iff {e : NativeEvent} :
    e.value? .type = none ↔ e.setsType = false := by
  rw [value?_eq_none_iff, NativeEvent.setsType, List.any_eq_false]
  constructor
  · rintro h ⟨f, v⟩ hv hf
    obtain rfl : f = .type := of_decide_eq_true hf
    exact h v hv
  · intro h v hv
    exact h (.type, v) hv rfl

theorem setsType_of_value? {e : NativeEvent} {v : Val} (h : e.value? .type = some v) :
    e.setsType = true := by
  by_contra hsets
  rw [value?_type_eq_none_iff.mpr (Bool.eq_false_iff.mpr hsets)] at h
  cases h

theorem value?_type_of_evKey {e : NativeEvent} (h : e.typeName = .evKey) :
    e.value? .type = some (keyType e.value) := by
  rw [NativeEvent.value?, NativeEvent.assignments, h]
  rfl

theorem value?_of_isAutorepeat {e : NativeEvent} (h : e.isAutorepeat = true) :
    e.value? .type = some (keyType e.value) := by
  rw [NativeEvent.isAutorepeat, Bool.and_eq_true, decide_eq_true_eq] at h
  exact value?_type_of_evKey h.1

/-- Only an autorepeat sets the type to something else than an event type. -/
theorem isAutorepeat_of_value? {e : NativeEvent} {v : Val} (h : e.value? .type = some v) :
    (∃ t, v = .kind t) ↔ e.isAutorepeat = false := by
  by_cases hkey : e.typeName = .evKey
  · rw [value?_type_of_evKey hkey, Option.some.injEq] at h
    subst h
    rw [NativeEvent.isAutorepeat, hkey, keyType]
    split_ifs with hdown hup
    · simp [hdown]
    · simp [hup]
    · have hgt : 1 < e.value := by omega
      simp [hgt]
  · obtain ⟨t, hkind, -⟩ := kind_of_ne_evKey hkey (mem_assignments_of_value? h)
    refine iff_of_true ⟨t, hkind⟩ ?_
    rw [NativeEvent.isAutorepeat, decide_eq_false hkey, Bool.false_and]

/-! ## The frames of a device -/

/-- The finished frames of a device. -/
def framesOf (es : List NativeEvent) : List (List NativeEvent) :=
  (es.splitOnP NativeEvent.isReport).dropLast

/-- The event a frame becomes. -/
def frameEvent (dev : String) (start : Buffer) (frame : List NativeEvent) : Buffer :=
  (frameBuffer start frame).set .device (.text dev)

/-- The native events of a device are those of an unfinished frame, or a frame with its
`SYN_REPORT` comes first. -/
theorem frames_induction {motive : List NativeEvent → Prop}
    (unfinished : ∀ es, (∀ e ∈ es, e.isReport = false) → motive es)
    (frame : ∀ es report rest, (∀ e ∈ es, e.isReport = false) → report.isReport = true →
      motive rest → motive (es ++ report :: rest)) (es : List NativeEvent) : motive es := by
  induction hn : es.length using Nat.strongRecOn generalizing es with
  | _ n ih =>
      cases hfind : es.find? NativeEvent.isReport with
      | none =>
          refine unfinished es fun e he => ?_
          exact Bool.eq_false_iff.mpr (List.find?_eq_none.mp hfind e he)
      | some report =>
          obtain ⟨hreport, before, after, rfl, hbefore⟩ := List.find?_eq_some_iff_append.mp hfind
          refine frame before report after (fun e he => ?_) hreport (ih after.length ?_ after rfl)
          · simpa using hbefore e he
          · rw [← hn, List.length_append, List.length_cons]
            omega

theorem framesOf_unfinished {es : List NativeEvent} (h : ∀ e ∈ es, e.isReport = false) :
    framesOf es = [] := by
  rw [framesOf, List.splitOnP_eq_singleton h]
  rfl

theorem framesOf_frame {es : List NativeEvent} (h : ∀ e ∈ es, e.isReport = false)
    {report : NativeEvent} (hreport : report.isReport = true) (rest : List NativeEvent) :
    framesOf (es ++ report :: rest) = es :: framesOf rest := by
  rw [framesOf, List.splitOnP_append_cons_of_forall_mem h report hreport,
    List.dropLast_cons_of_ne_nil (List.splitOnP_ne_nil _ _)]
  rfl

theorem framesFrom_append (dev : String) (cur : Buffer) {es : List NativeEvent}
    (h : ∀ e ∈ es, e.isReport = false) (rest : List NativeEvent) :
    framesFrom dev cur (es ++ rest) = framesFrom dev (frameBuffer cur es) rest := by
  induction es generalizing cur with
  | nil => rfl
  | cons e es ih =>
      have he : e.isReport = false := h e List.mem_cons_self
      rw [List.cons_append, framesFrom, if_neg (by rw [he]; decide),
        ih _ fun e' he' => h e' (List.mem_cons_of_mem e he')]
      rfl

/-- The events that frames become, when the first of them starts with the buffer `start`. -/
def eventsFrom (dev : String) (start : Buffer) : List (List NativeEvent) → List Buffer
  | [] => []
  | frame :: later => frameEvent dev start frame :: later.map (frameEvent dev resetBuffer)

theorem eventsFrom_resetBuffer (dev : String) (later : List (List NativeEvent)) :
    eventsFrom dev resetBuffer later = later.map (frameEvent dev resetBuffer) := by
  cases later with
  | nil => rfl
  | cons frame later => rfl

/-- The events of a device, frame by frame. -/
theorem framesFrom_eq (dev : String) (cur : Buffer) (es : List NativeEvent) :
    framesFrom dev cur es = eventsFrom dev cur (framesOf es) := by
  induction es using frames_induction generalizing cur with
  | unfinished es h =>
      rw [← List.append_nil es, framesFrom_append dev cur h, List.append_nil,
        framesOf_unfinished h]
      rfl
  | frame es report rest h hreport ih =>
      rw [framesFrom_append dev cur h, framesFrom, if_pos hreport, framesOf_frame h hreport, ih,
        eventsFrom_resetBuffer]
      rfl

/-- The fields of an event, apart from the name of the device. -/
theorem get?_frameEvent (dev : String) (start : Buffer) (frame : List NativeEvent) {f : Field}
    (hf : f ≠ .device) :
    (frameEvent dev start frame).get? f = (lastValue? f frame).or (start.get? f) := by
  rw [frameEvent, Dict.get?_set_ne _ hf, get?_frameBuffer]

/-- The `k`-th event of a device comes from its `k`-th frame. -/
theorem getElem?_frames (dev : String) (es : List NativeEvent) (k : Nat) :
    (frames dev es)[k]? =
      ((framesOf es)[k]?).map (frameEvent dev (if k = 0 then ∅ else resetBuffer)) := by
  rw [frames, framesFrom_eq]
  cases framesOf es with
  | nil => rfl
  | cons first later =>
      cases k with
      | zero => rfl
      | succ k =>
          rw [eventsFrom, List.getElem?_cons_succ, List.getElem?_map, List.getElem?_cons_succ]
          rfl

theorem getElem?_queuedFor {ms : List Message} (announced : Announced [] ms) {dev : String}
    {k : Nat} {frame : List NativeEvent} (h : (framesOf (nativeOf dev ms))[k]? = some frame) :
    ((Listener.initialised.receive ms).1.queuedFor dev)[k]? =
      some (frameEvent dev (if k = 0 then ∅ else resetBuffer) frame) := by
  rw [(follows_initialised.receive announced).2 dev, List.nil_append, getElem?_frames, h]
  rfl

theorem length_frames (dev : String) (es : List NativeEvent) :
    (frames dev es).length = (framesOf es).length := by
  rw [frames, framesFrom_eq]
  cases framesOf es with
  | nil => rfl
  | cons first later => rw [eventsFrom, List.length_cons, List.length_cons, List.length_map]

/-! ## The whole queue -/

/-- Every queued event names a device. -/
def Listener.Tagged (l : Listener) : Prop :=
  ∀ r ∈ l.events, ∃ dev, (l.deref r).get? .device = some (.text dev)

/-- The end of a frame names the device before the event is queued. -/
theorem tagged_handleEvent {l : Listener} {buffers : Dict String Nat} (howned : Owned l buffers)
    (h : l.Tagged) {dev : String} {r : Nat} (hr : buffers.get? dev = some r) (e : NativeEvent) :
    (l.handleEvent buffers dev e r).Tagged := by
  intro r' hr'
  rw [events_handleEvent, List.mem_append] at hr'
  obtain hr' | hr' := hr'
  · rw [deref_handleEvent_of_ne (howned.queued r' hr').1 (howned.ne_of_queued hr hr')]
    exact h r' hr'
  · split at hr'
    · rename_i he
      obtain rfl := List.mem_singleton.mp hr'
      rw [deref_handleEvent_report (howned.live dev r' hr) he]
      exact ⟨dev, Dict.get?_set_self _ _ _⟩
    · cases hr'

theorem tagged_reportInfo {l : Listener} {buffers : Dict String Nat} (howned : Owned l buffers)
    (h : l.Tagged) (dev : String) : (l.reportInfo dev).1.Tagged := by
  rw [Listener.reportInfo, howned.has]
  intro r hr
  rw [deref_append (howned.queued r hr).1]
  exact h r hr

theorem tagged_receive {ms : List Message} {known : List String}
    {past : String → List NativeEvent} {l : Listener} {buffers : Dict String Nat}
    (hfollows : Follows known past l buffers) (h : l.Tagged) (hms : Announced known ms) :
    (l.receive ms).1.Tagged := by
  induction ms generalizing known past l buffers with
  | nil => exact h
  | cons m ms ih =>
      cases m with
      | info dev =>
          obtain ⟨hnew, hrest⟩ := hms
          rw [receive_info hfollows hnew]
          exact ih (hfollows.info hnew).1 (tagged_reportInfo hfollows.toOwned h dev) hrest
      | event dev e =>
          obtain ⟨hmem, hrest⟩ := hms
          obtain ⟨r, hr⟩ := Dict.mem_keys_iff.mp ((hfollows.known_iff dev).mp hmem)
          obtain ⟨buffers', hnext⟩ := hfollows.handleEvent hr e
          rw [receive_event hfollows hr]
          exact ih hnext (tagged_handleEvent hfollows.toOwned h hr e) hrest
      | garbage => exact ih hfollows h hms
      | error => exact ih hfollows h hms
      | other => exact ih hfollows h hms
      | sync => exact ih (hfollows.of_same rfl rfl rfl) h hms
      | ready => exact ih (hfollows.of_same rfl rfl rfl) h hms

/-- The events on the queue, oldest first. -/
def Listener.queue (l : Listener) : List Buffer := l.events.map l.deref

/-- Every queued event is one of the events of some device. -/
theorem mem_queue_iff {ms : List Message} (announced : Announced [] ms) {b : Buffer} :
    b ∈ (Listener.initialised.receive ms).1.queue ↔
      ∃ dev, b ∈ frames dev (nativeOf dev ms) := by
  have hframes (dev : String) : (Listener.initialised.receive ms).1.queuedFor dev =
      frames dev (nativeOf dev ms) :=
    (follows_initialised.receive announced).2 dev
  have htagged : (Listener.initialised.receive ms).1.Tagged :=
    tagged_receive follows_initialised (fun r hr => absurd hr List.not_mem_nil) announced
  constructor
  · intro hb
    obtain ⟨r, hr, rfl⟩ := List.mem_map.mp hb
    obtain ⟨dev, hdev⟩ := htagged r hr
    refine ⟨dev, ?_⟩
    rw [← hframes dev, Listener.queuedFor, List.mem_filter]
    exact ⟨hb, decide_eq_true hdev⟩
  · rintro ⟨dev, hb⟩
    rw [← hframes dev, Listener.queuedFor, List.mem_filter] at hb
    exact hb.1

/-! ## Well-formed events -/

/-- The event names its device, and its type is one of the event types. -/
structure WellFormed (b : Buffer) : Prop where
  device : ∃ dev, b.get? .device = some (.text dev)
  type : ∃ t, b.get? .type = some (.kind t)

/-- The first frame of a device sets the type, and in every frame an event that sets the type
comes behind each autorepeat. -/
structure Typed (es : List NativeEvent) : Prop where
  first : ∀ frame ∈ (framesOf es).head?, ∃ e ∈ frame, e.setsType = true
  repeats : ∀ frame ∈ framesOf es, ∀ before e after, frame = before ++ e :: after →
    e.isAutorepeat = true → ∃ e' ∈ after, e'.setsType = true

/-- Behind each autorepeat of a frame the type is set again. -/
def Retyped (frame : List NativeEvent) : Prop :=
  ∀ (before : List NativeEvent) (e : NativeEvent) (after : List NativeEvent),
    frame = before ++ e :: after → e.isAutorepeat = true → ∃ e' ∈ after, e'.setsType = true

/-- The type of the event that a frame becomes is an event type. -/
theorem typed_frame_iff (dev : String) (start : Buffer) (frame : List NativeEvent) :
    (∃ t, (frameEvent dev start frame).get? .type = some (.kind t)) ↔
      ((∃ e ∈ frame, e.setsType = true) ∨ ∃ t, start.get? .type = some (.kind t)) ∧
        Retyped frame := by
  rw [get?_frameEvent dev start frame (by decide)]
  cases hlast : lastValue? .type frame with
  | none =>
      have hquiet : ∀ e ∈ frame, e.setsType = false := fun e he =>
        value?_type_eq_none_iff.mp (lastValue?_eq_none_iff.mp hlast e he)
      have hfirst : ¬∃ e ∈ frame, e.setsType = true := by
        rintro ⟨e, he, hsets⟩
        rw [hquiet e he] at hsets
        cases hsets
      rw [Option.none_or, or_iff_right hfirst, iff_self_and]
      rintro - before e after rfl hrepeat
      have hsets := hquiet e (List.mem_append_right _ List.mem_cons_self)
      rw [setsType_of_value? (value?_of_isAutorepeat hrepeat)] at hsets
      cases hsets
  | some v =>
      obtain ⟨before, e, after, hframe, he, hafter⟩ := lastValue?_eq_some_iff.mp hlast
      have hmem : e ∈ frame := hframe ▸ List.mem_append_right _ List.mem_cons_self
      rw [Option.some_or, and_iff_right (.inl ⟨e, hmem, setsType_of_value? he⟩)]
      constructor
      · rintro ⟨t, ht⟩ before' e' after' hframe' hrepeat
        by_contra hquiet
        -- Nothing overwrites the value of the autorepeat.
        have hw := value?_of_isAutorepeat hrepeat
        have hlast' : lastValue? .type frame = some (keyType e'.value) := by
          refine lastValue?_eq_some_iff.mpr ⟨before', e', after', hframe', hw, fun x hx => ?_⟩
          refine value?_type_eq_none_iff.mpr (Bool.eq_false_iff.mpr fun hsets => ?_)
          exact hquiet ⟨x, hx, hsets⟩
        rw [hlast, ht, Option.some.injEq] at hlast'
        rw [(isAutorepeat_of_value? hw).mp ⟨t, hlast'.symm⟩] at hrepeat
        cases hrepeat
      · intro hrepeats
        simp only [Option.some.injEq]
        refine (isAutorepeat_of_value? he).mpr (Bool.eq_false_iff.mpr fun hrepeat => ?_)
        obtain ⟨x, hx, hsets⟩ := hrepeats before e after hframe hrepeat
        rw [value?_type_eq_none_iff.mp (hafter x hx)] at hsets
        cases hsets

theorem wellFormed_frameEvent_iff (dev : String) (start : Buffer) (frame : List NativeEvent) :
    WellFormed (frameEvent dev start frame) ↔
      ∃ t, (frameEvent dev start frame).get? .type = some (.kind t) :=
  ⟨fun h => h.type, fun h => ⟨⟨dev, Dict.get?_set_self _ _ _⟩, h⟩⟩

/-- The events of a device are well formed exactly when its frames set the type. -/
theorem wellFormed_frames_iff (dev : String) (es : List NativeEvent) :
    (∀ b ∈ frames dev es, WellFormed b) ↔ Typed es := by
  have hreset : ∃ t, resetBuffer.get? .type = some (.kind t) := ⟨.unknown, rfl⟩
  have hempty : ¬∃ t, (∅ : Buffer).get? .type = some (.kind t) := by
    rintro ⟨t, ht⟩
    cases ht
  have hlater (frame : List NativeEvent) : WellFormed (frameEvent dev resetBuffer frame) ↔
      Retyped frame := by
    rw [wellFormed_frameEvent_iff, typed_frame_iff, and_iff_right (.inr hreset)]
  have hfirst (frame : List NativeEvent) : WellFormed (frameEvent dev ∅ frame) ↔
      (∃ e ∈ frame, e.setsType = true) ∧ Retyped frame := by
    rw [wellFormed_frameEvent_iff, typed_frame_iff, or_iff_left hempty]
  rw [frames, framesFrom_eq]
  cases hframes : framesOf es with
  | nil =>
      refine iff_of_true (fun b hb => absurd hb List.not_mem_nil) ⟨?_, ?_⟩
      · intro frame hframe
        rw [hframes] at hframe
        cases hframe
      · intro frame hframe
        rw [hframes] at hframe
        cases hframe
  | cons frame later =>
      have htyped : Typed es ↔ (∃ e ∈ frame, e.setsType = true) ∧
          ∀ frame' ∈ frame :: later, Retyped frame' := by
        constructor
        · rintro ⟨h, h'⟩
          rw [hframes] at h h'
          exact ⟨h frame rfl, h'⟩
        · rintro ⟨h, h'⟩
          refine ⟨fun frame' hframe' => ?_, hframes ▸ h'⟩
          rw [hframes] at hframe'
          cases hframe'
          exact h
      rw [htyped, eventsFrom, List.forall_mem_cons, List.forall_mem_cons, hfirst, and_assoc,
        List.forall_mem_map]
      simp only [hlater]

/-- Every queued event names its device and has an event type exactly when the first frame of
every device sets the type and no frame ends with the type an autorepeat has set. -/
theorem queue_wellFormed_iff (ms : List Message) (announced : Announced [] ms) :
    (∀ b ∈ (Listener.initialised.receive ms).1.queue, WellFormed b) ↔
      ∀ dev, Typed (nativeOf dev ms) := by
  have hqueue : (∀ b ∈ (Listener.initialised.receive ms).1.queue, WellFormed b) ↔
      ∀ dev, ∀ b ∈ frames dev (nativeOf dev ms), WellFormed b := by
    simp only [mem_queue_iff announced]
    exact ⟨fun h dev b hb => h b ⟨dev, hb⟩, fun h b ⟨dev, hb⟩ => h dev b hb⟩
  rw [hqueue]
  exact forall_congr' fun dev => wellFormed_frames_iff dev _

/-- A keyboard whose key is pressed. -/
def pressedKey : List Message :=
  [.info "event0", .event "event0" ⟨.evKey, "KEY_A", 1⟩,
    .event "event0" ⟨.evSyn, "SYN_REPORT", 0⟩]

theorem queue_wellFormed_pressedKey :
    Announced [] pressedKey ∧
      ((∀ b ∈ (Listener.initialised.receive pressedKey).1.queue, WellFormed b) ↔
        ∀ dev, Typed (nativeOf dev pressedKey)) ∧
      ∀ b ∈ (Listener.initialised.receive pressedKey).1.queue, WellFormed b := by
  have announced : Announced [] pressedKey := by simp [pressedKey, Announced]
  refine ⟨announced, queue_wellFormed_iff pressedKey announced, ?_⟩
  intro b hb
  obtain rfl := List.mem_singleton.mp hb
  exact ⟨⟨"event0", rfl⟩, ⟨.keyDown, rfl⟩⟩

/-- The key is held down, and the value of the autorepeat becomes the type of an event. -/
def heldKey : List Message :=
  pressedKey ++ [.event "event0" ⟨.evKey, "KEY_A", 2⟩, .event "event0" ⟨.evSyn, "SYN_REPORT", 1⟩]

theorem heldKey_not_wellFormed :
    Announced [] heldKey ∧
      ¬∀ b ∈ (Listener.initialised.receive heldKey).1.queue, WellFormed b := by
  refine ⟨by simp [heldKey, pressedKey, Announced], fun h => ?_⟩
  obtain ⟨-, t, ht⟩ := h ((Listener.initialised.receive heldKey).1.deref 1)
    (List.mem_map.mpr ⟨1, by decide, rfl⟩)
  cases ht

end TpQemu.InputEvent

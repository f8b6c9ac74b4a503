import TpQemu.InputEvent.Frames

/-!
# Key transitions

A frame becomes one event with one type and one key code, whatever the native events
in it were: a later event of the frame that sets the type hides a key transition
before it, and a transition behind the last `SYN_REPORT` stays in the buffer. A key
transition survives exactly when the next event that sets the type, if any, lies
behind the end of its frame.
-/

namespace TpQemu.InputEvent

/-- A press or a release, with the code of its key. -/
def NativeEvent.transition (e : NativeEvent) : Option (EventType × Option Val) :=
  if e.typeName = .evKey then
    if e.value = 1 then some (.keyDown, some (.text e.codeName))
    else if e.value = 0 then some (.keyUp, some (.text e.codeName))
    else none
  else none

/-- The presses and releases among native events. -/
def transitions (es : List NativeEvent) : List (EventType × Option Val) :=
  es.filterMap NativeEvent.transition

/-- The press or release that a queued event stands for. -/
def keyEvent (b : Buffer) : Option (EventType × Option Val) :=
  match b.get? .type with
  | some (.kind .keyDown) => some (.keyDown, b.get? .keyCode)
  | some (.kind .keyUp) => some (.keyUp, b.get? .keyCode)
  | _ => none

/-- The presses and releases among queued events. -/
def keyEvents (bs : List Buffer) : List (EventType × Option Val) := bs.filterMap keyEvent

/-- The event sets the type of its frame. -/
def NativeEvent.setsType (e : NativeEvent) : Bool := e.assignments.any fun a => a.1 = .type

/-- The frame ends before another event sets its type. -/
def Closed (es : List NativeEvent) : Prop :=
  ∃ mid report rest, es = mid ++ report :: rest ∧ report.isReport = true ∧
    ∀ e ∈ mid, e.isReport = false ∧ e.setsType = false

/-- Behind every press and release the frame ends before another event sets its type. -/
def Reported (es : List NativeEvent) : Prop :=
  ∀ before e after, es = before ++ e :: after → e.transition.isSome = true → Closed after

/-! ## One event -/

theorem keyEvent_device (b : Buffer) (v : Val) : keyEvent (b.set .device v) = keyEvent b := by
  simp only [keyEvent]
  rw [Dict.get?_set_ne b (by decide), Dict.get?_set_ne b (by decide)]

theorem keyEvent_resetBuffer : keyEvent resetBuffer = none := rfl

theorem transition_of_isReport {e : NativeEvent} (h : e.isReport = true) :
    e.transition = none := by
  simp only [NativeEvent.isReport, Bool.and_eq_true, decide_eq_true_eq] at h
  rw [NativeEvent.transition, h.1]
  rfl

theorem transition_of_not_setsType {e : NativeEvent} (h : e.setsType = false) :
    e.transition = none := by
  rw [NativeEvent.transition]
  split
  · rename_i hkey
    simp [NativeEvent.setsType, NativeEvent.assignments, hkey] at h
  · rfl

/-- Only key events assign a key code. -/
theorem evKey_of_keyCode {e : NativeEvent} {v : Val} (h : (.keyCode, v) ∈ e.assignments) :
    e.typeName = .evKey := by
  rw [NativeEvent.assignments] at h
  split at h
  · cases h
  · assumption
  · simp only [wheelType] at h
    split_ifs at h <;> simp at h
  · simp only [wheelType] at h
    split_ifs at h <;> simp at h
  · split_ifs at h <;> simp at h
  · cases h
  · cases h
  · simp at h

theorem get?_foldl_set_of_notMem {as : List (Field × Val)} {f : Field}
    (h : ∀ v, (f, v) ∉ as) {cur : Buffer} :
    (as.foldl (fun b a => b.set a.1 a.2) cur).get? f = cur.get? f := by
  induction as generalizing cur with
  | nil => rfl
  | cons a as ih =>
      have hne : f ≠ a.1 := by
        rintro rfl
        exact h a.2 List.mem_cons_self
      rw [List.foldl_cons, ih fun v hv => h v (List.mem_cons_of_mem a hv), Dict.get?_set_ne _ hne]

/-- An event that leaves the type alone leaves the key transition in the buffer. -/
theorem keyEvent_assign_of_not_setsType {e : NativeEvent} (h : e.setsType = false)
    (cur : Buffer) : keyEvent (assign cur e) = keyEvent cur := by
  have htype (v : Val) : (.type, v) ∉ e.assignments := fun hmem => by
    have hany : e.setsType = true := List.any_eq_true.mpr ⟨(.type, v), hmem, rfl⟩
    rw [h] at hany
    cases hany
  have hcode (v : Val) : (.keyCode, v) ∉ e.assignments := fun hmem => by
    have hkey := evKey_of_keyCode hmem
    exact htype (keyType e.value) (by simp [NativeEvent.assignments, hkey])
  rw [keyEvent, keyEvent, assign, get?_foldl_set_of_notMem htype, get?_foldl_set_of_notMem hcode]

theorem keyEvent_assign_evKey {e : NativeEvent} (h : e.typeName = .evKey) (cur : Buffer) :
    keyEvent (assign cur e) = e.transition := by
  have hassign : assign cur e =
      (cur.set .type (keyType e.value)).set .keyCode (.text e.codeName) := by
    rw [assign, NativeEvent.assignments, h]
    rfl
  have htype : (assign cur e).get? .type = some (keyType e.value) := by
    rw [hassign, Dict.get?_set_ne _ (by decide), Dict.get?_set_self]
  have hcode : (assign cur e).get? .keyCode = some (.text e.codeName) := by
    rw [hassign, Dict.get?_set_self]
  rw [keyEvent, htype, hcode, NativeEvent.transition, if_pos h, keyType]
  by_cases hdown : e.value = 1
  · rw [if_pos hdown, if_pos hdown]
  · by_cases hup : e.value = 0
    · rw [if_neg hdown, if_pos hup, if_neg hdown, if_pos hup]
    · rw [if_neg hdown, if_neg hup, if_neg hdown, if_neg hup]

/-- A wheel sets the type to a direction. -/
theorem kind_of_wheelType {value : Nat} {v : Val} (h : (.type, v) ∈ wheelType value) :
    ∃ t, v = .kind t ∧ t ≠ .keyDown ∧ t ≠ .keyUp := by
  rw [wheelType] at h
  split_ifs at h
  · cases List.mem_singleton.mp h
    exact ⟨.wheelForward, rfl, by decide, by decide⟩
  · cases List.mem_singleton.mp h
    exact ⟨.wheelBackward, rfl, by decide, by decide⟩
  · cases h

/-- Other events set the type to an event type, and never to the one of a key. -/
theorem kind_of_ne_evKey {e : NativeEvent} (h : e.typeName ≠ .evKey) {v : Val}
    (hv : (.type, v) ∈ e.assignments) : ∃ t, v = .kind t ∧ t ≠ .keyDown ∧ t ≠ .keyUp := by
  have hpointer : ∃ t, Val.kind .pointerMove = .kind t ∧ t ≠ .keyDown ∧ t ≠ .keyUp :=
    ⟨.pointerMove, rfl, by decide, by decide⟩
  rw [NativeEvent.assignments] at hv
  split at hv
  · cases hv
  · contradiction
  · split_ifs at hv
    · simp at hv
      exact hv ▸ hpointer
    · simp at hv
      exact hv ▸ hpointer
    · exact kind_of_wheelType (by simpa using hv)
    · exact kind_of_wheelType (by simpa using hv)
    · cases hv
  · split_ifs at hv
    · simp at hv
      exact hv ▸ hpointer
    · simp at hv
      exact hv ▸ hpointer
    · exact kind_of_wheelType (by simpa using hv)
    · cases hv
  · split_ifs at hv <;> simp at hv
  · cases hv
  · cases hv
  · cases List.mem_singleton.mp hv
    exact ⟨.unknown, rfl, by decide, by decide⟩

theorem exists_get?_foldl_set {as : List (Field × Val)} {f : Field} (h : ∃ v, (f, v) ∈ as)
    (cur : Buffer) :
    ∃ v, (f, v) ∈ as ∧ (as.foldl (fun b a => b.set a.1 a.2) cur).get? f = some v := by
  induction as generalizing cur with
  | nil =>
      obtain ⟨v, hv⟩ := h
      cases hv
  | cons a as ih =>
      by_cases hlater : ∃ v, (f, v) ∈ as
      · obtain ⟨v, hmem, hget⟩ := ih hlater (cur.set a.1 a.2)
        exact ⟨v, List.mem_cons_of_mem a hmem, hget⟩
      · obtain ⟨v, hv⟩ := h
        obtain rfl | hv := List.mem_cons.mp hv
        · refine ⟨v, List.mem_cons_self, ?_⟩
          rw [List.foldl_cons, get?_foldl_set_of_notMem fun w hw => hlater ⟨w, hw⟩,
            Dict.get?_set_self]
        · exact absurd ⟨v, hv⟩ hlater

/-- An event that sets the type replaces the key transition in the buffer by its own. -/
theorem keyEvent_assign_of_setsType {e : NativeEvent} (h : e.setsType = true) (cur : Buffer) :
    keyEvent (assign cur e) = e.transition := by
  by_cases hkey : e.typeName = .evKey
  · exact keyEvent_assign_evKey hkey cur
  · obtain ⟨⟨f, w⟩, hmem, hf⟩ := List.any_eq_true.mp h
    obtain rfl : f = .type := of_decide_eq_true hf
    obtain ⟨v, hv, hget⟩ := exists_get?_foldl_set ⟨w, hmem⟩ cur
    obtain ⟨t, rfl, hdown, hup⟩ := kind_of_ne_evKey hkey hv
    rw [NativeEvent.transition, if_neg hkey, keyEvent, assign, hget]
    split
    · rename_i heq
      exact absurd (Val.kind.inj (Option.some.inj heq)) hdown
    · rename_i heq
      exact absurd (Val.kind.inj (Option.some.inj heq)) hup
    · rfl

/-! ## Frames -/

/-- The transitions that a frame queues for a buffer and the events behind it. -/
def queuedKeys (dev : String) (cur : Buffer) (es : List NativeEvent) :
    List (EventType × Option Val) :=
  keyEvents (framesFrom dev cur es)

theorem queuedKeys_report (dev : String) (cur : Buffer) {e : NativeEvent}
    (h : e.isReport = true) (es : List NativeEvent) :
    queuedKeys dev cur (e :: es) = (keyEvent cur).toList ++ queuedKeys dev resetBuffer es := by
  rw [queuedKeys, framesFrom, if_pos h, keyEvents, List.filterMap_cons, keyEvent_device]
  cases keyEvent cur with
  | none => rfl
  | some k => rfl

theorem queuedKeys_assign (dev : String) (cur : Buffer) {e : NativeEvent}
    (h : e.isReport = false) (es : List NativeEvent) :
    queuedKeys dev cur (e :: es) = queuedKeys dev (assign cur e) es := by
  rw [queuedKeys, framesFrom, if_neg (by simp [h])]
  rfl

theorem transitions_cons (e : NativeEvent) (es : List NativeEvent) :
    transitions (e :: es) = e.transition.toList ++ transitions es := by
  rw [transitions, List.filterMap_cons]
  cases e.transition with
  | none => rfl
  | some k => rfl

/-- Frames queue no more transitions than there were. -/
theorem length_queuedKeys_le (dev : String) (cur : Buffer) (es : List NativeEvent) :
    (queuedKeys dev cur es).length ≤ (keyEvent cur).toList.length + (transitions es).length := by
  induction es generalizing cur with
  | nil => exact Nat.zero_le _
  | cons e es ih =>
      rw [transitions_cons, List.length_append]
      cases hreport : e.isReport with
      | true =>
          have hrest := ih resetBuffer
          rw [keyEvent_resetBuffer] at hrest
          rw [queuedKeys_report dev cur hreport, List.length_append]
          simp only [Option.toList_none, List.length_nil] at hrest
          omega
      | false =>
          have hrest := ih (assign cur e)
          rw [queuedKeys_assign dev cur hreport]
          cases hsets : e.setsType with
          | true =>
              rw [keyEvent_assign_of_setsType hsets] at hrest
              omega
          | false =>
              rw [keyEvent_assign_of_not_setsType hsets] at hrest
              omega

/-- `Reported`, event by event; the flag tells whether the frame holds a transition. -/
def Separated : Bool → List NativeEvent → Prop
  | held, [] => held = false
  | held, e :: es =>
      if e.isReport then Separated false es
      else if e.setsType then held = false ∧ Separated e.transition.isSome es
      else Separated held es

theorem queuedKeys_eq_iff (dev : String) (cur : Buffer) (es : List NativeEvent) :
    queuedKeys dev cur es = (keyEvent cur).toList ++ transitions es ↔
      Separated (keyEvent cur).isSome es := by
  induction es generalizing cur with
  | nil =>
      rw [Separated, transitions, List.filterMap_nil, List.append_nil]
      cases keyEvent cur with
      | none => exact iff_of_true rfl rfl
      | some k => exact iff_of_false (fun h => by cases h) (fun h => by cases h)
  | cons e es ih =>
      rw [Separated, transitions_cons]
      cases hreport : e.isReport with
      | true =>
          have hrest := ih resetBuffer
          rw [keyEvent_resetBuffer] at hrest
          rw [queuedKeys_report dev cur hreport, transition_of_isReport hreport, if_pos rfl,
            List.append_right_inj]
          exact hrest
      | false =>
          rw [queuedKeys_assign dev cur hreport, if_neg Bool.false_ne_true]
          cases hsets : e.setsType with
          | false =>
              have hrest := ih (assign cur e)
              rw [keyEvent_assign_of_not_setsType hsets] at hrest
              rw [transition_of_not_setsType hsets, if_neg Bool.false_ne_true]
              exact hrest
          | true =>
              have hrest := ih (assign cur e)
              rw [keyEvent_assign_of_setsType hsets] at hrest
              rw [if_pos rfl, ← hrest]
              cases hcur : keyEvent cur with
              | none => exact (and_iff_right rfl).symm
              | some k =>
                  -- A transition in the buffer is overwritten: one event is missing.
                  refine iff_of_false (fun h => ?_) fun h => by cases h.1
                  have hle := length_queuedKeys_le dev (assign cur e) es
                  rw [keyEvent_assign_of_setsType hsets, h] at hle
                  simp only [Option.toList_some, List.length_append, List.length_singleton] at hle
                  omega

theorem not_closed_nil : ¬Closed [] := by
  rintro ⟨mid, report, rest, h, -⟩
  simp at h

theorem closed_cons_iff (e : NativeEvent) (es : List NativeEvent) :
    Closed (e :: es) ↔
      e.isReport = true ∨ (e.isReport = false ∧ e.setsType = false ∧ Closed es) := by
  constructor
  · rintro ⟨mid, report, rest, h, hreport, hquiet⟩
    cases mid with
    | nil =>
        cases h
        exact .inl hreport
    | cons m mid =>
        cases h
        obtain ⟨hm, hm'⟩ := hquiet e List.mem_cons_self
        exact .inr ⟨hm, hm', mid, report, rest, rfl, hreport, fun x hx =>
          hquiet x (List.mem_cons_of_mem e hx)⟩
  · rintro (hreport | ⟨he, he', mid, report, rest, rfl, hreport, hquiet⟩)
    · exact ⟨[], e, es, rfl, hreport, fun x hx => absurd hx List.not_mem_nil⟩
    · refine ⟨e :: mid, report, rest, rfl, hreport, fun x hx => ?_⟩
      obtain rfl | hx := List.mem_cons.mp hx
      · exact ⟨he, he'⟩
      · exact hquiet x hx

theorem reported_nil : Reported [] := by
  intro before e after h
  simp at h

theorem reported_cons_iff (e : NativeEvent) (es : List NativeEvent) :
    Reported (e :: es) ↔ (e.transition.isSome = true → Closed es) ∧ Reported es := by
  constructor
  · intro h
    refine ⟨h [] e es rfl, fun before e' after hes => h (e :: before) e' after ?_⟩
    rw [hes, List.cons_append]
  · rintro ⟨hfirst, hrest⟩ before e' after hes
    cases before with
    | nil =>
        cases hes
        exact hfirst
    | cons b before =>
        cases hes
        exact hrest before e' after rfl

theorem separated_iff_closed (held : Bool) (es : List NativeEvent) :
    Separated held es ↔ (held = true → Closed es) ∧ Reported es := by
  induction es generalizing held with
  | nil =>
      rw [Separated, and_iff_left reported_nil]
      cases held with
      | false => exact iff_of_true rfl fun h => by cases h
      | true => exact iff_of_false (fun h => by cases h) fun h => not_closed_nil (h rfl)
  | cons e es ih =>
      rw [Separated, reported_cons_iff, closed_cons_iff]
      cases hreport : e.isReport with
      | true =>
          rw [if_pos rfl, ih, transition_of_isReport hreport]
          simp
      | false =>
          rw [if_neg Bool.false_ne_true]
          cases hsets : e.setsType with
          | true =>
              rw [if_pos rfl, ih]
              simp
          | false =>
              rw [if_neg Bool.false_ne_true, ih, transition_of_not_setsType hsets]
              simp

/-- The presses and releases of a device reach the queue, each once and in order, exactly
when behind each of them a `SYN_REPORT` comes before any other event that sets the
type. -/
theorem key_transitions_queued_iff (ms : List Message) (announced : Announced [] ms)
    (dev : String) :
    keyEvents ((Listener.initialised.receive ms).1.queuedFor dev) =
        transitions (nativeOf dev ms) ↔
      Reported (nativeOf dev ms) := by
  have hframes := (follows_initialised.receive announced).2 dev
  have hiff := queuedKeys_eq_iff dev ∅ (nativeOf dev ms)
  have hempty : keyEvent ∅ = none := rfl
  rw [hempty, Option.toList_none, List.nil_append, Option.isSome_none,
    separated_iff_closed] at hiff
  rw [hframes, List.nil_append]
  exact hiff.trans (and_iff_right fun h => by cases h)

/-- A keyboard on which a key is pressed and released in frames of their own. -/
def tappedKey : List Message :=
  [.info "event0", .event "event0" ⟨.evMsc, "MSC_SCAN", 30⟩,
    .event "event0" ⟨.evKey, "KEY_A", 1⟩, .event "event0" ⟨.evSyn, "SYN_REPORT", 0⟩,
    .event "event0" ⟨.evKey, "KEY_A", 0⟩, .event "event0" ⟨.evSyn, "SYN_REPORT", 0⟩]

theorem tappedKey_queued :
    Announced [] tappedKey ∧
      keyEvents ((Listener.initialised.receive tappedKey).1.queuedFor "event0") =
        transitions (nativeOf "event0" tappedKey) := by
  have announced : Announced [] tappedKey := by simp [tappedKey, Announced]
  refine ⟨announced, (key_transitions_queued_iff tappedKey announced "event0").mpr ?_⟩
  have hsep : Separated false (nativeOf "event0" tappedKey) := by
    simp [tappedKey, nativeOf, Separated, NativeEvent.isReport, NativeEvent.setsType,
      NativeEvent.assignments]
  exact ((separated_iff_closed _ _).mp hsep).2

/-- Two keys pressed in one frame: only the second press reaches the queue. -/
theorem chord_loses_first_key :
    ¬∀ (ms : List Message), Announced [] ms → ∀ dev,
      keyEvents ((Listener.initialised.receive ms).1.queuedFor dev) =
        transitions (nativeOf dev ms) := by
  intro h
  have hqueued := h [.info "event0", .event "event0" ⟨.evKey, "KEY_A", 1⟩,
    .event "event0" ⟨.evKey, "KEY_B", 1⟩, .event "event0" ⟨.evSyn, "SYN_REPORT", 0⟩]
    (by simp [Announced]) "event0"
  have hlength := congrArg List.length hqueued
  revert hlength
  decide

end TpQemu.InputEvent

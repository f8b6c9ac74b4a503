import TpQemu.InputEvent.Linux

/-!
# Frames of a device

What the listener queues for a device is a function of the native events of that
device alone: `frames` cuts them at the `SYN_REPORT` events and turns each frame into
one event. The listener refines this description for every interleaving of the
devices' messages. The invariant says who may write where: no two devices share a
live dictionary, and no queued dictionary is live, so that a queued event is never
changed again.
-/

namespace TpQemu.InputEvent

/-! ## The events a device makes -/

/-- The events queued for a device whose buffer is `cur`. -/
def framesFrom (dev : String) (cur : Buffer) : List NativeEvent → List Buffer
  | [] => []
  | e :: es =>
      if e.isReport then cur.set .device (.text dev) :: framesFrom dev resetBuffer es
      else framesFrom dev (assign cur e) es

/-- The buffer behind the last frame. -/
def lastBuffer (cur : Buffer) : List NativeEvent → Buffer
  | [] => cur
  | e :: es => if e.isReport then lastBuffer resetBuffer es else lastBuffer (assign cur e) es

/-- The events queued for a device since it was announced. -/
def frames (dev : String) (es : List NativeEvent) : List Buffer := framesFrom dev ∅ es

theorem framesFrom_snoc (dev : String) (cur : Buffer) (es : List NativeEvent) (e : NativeEvent) :
    framesFrom dev cur (es ++ [e]) = framesFrom dev cur es ++
      if e.isReport then [(lastBuffer cur es).set .device (.text dev)] else [] := by
  induction es generalizing cur with
  | nil => rfl
  | cons e' es ih =>
      rw [List.cons_append, framesFrom, framesFrom, lastBuffer]
      split
      · rw [ih, List.cons_append]
      · exact ih _

theorem lastBuffer_snoc (cur : Buffer) (es : List NativeEvent) (e : NativeEvent) :
    lastBuffer cur (es ++ [e]) =
      if e.isReport then resetBuffer else assign (lastBuffer cur es) e := by
  induction es generalizing cur with
  | nil => rfl
  | cons e' es ih =>
      rw [List.cons_append, lastBuffer, lastBuffer]
      split
      · exact ih _
      · exact ih _

/-- One event for each end of a frame. -/
theorem length_framesFrom (dev : String) (cur : Buffer) (es : List NativeEvent) :
    (framesFrom dev cur es).length = es.countP NativeEvent.isReport := by
  induction es generalizing cur with
  | nil => rfl
  | cons e es ih =>
      rw [framesFrom]
      by_cases h : e.isReport = true
      · rw [if_pos h, List.length_cons, ih, List.countP_cons_of_pos h]
      · rw [if_neg h, ih, List.countP_cons_of_neg h]

/-- A field of a buffer was there before the event or has been assigned for it. -/
theorem get?_assign {cur : Buffer} {e : NativeEvent} {f : Field} {v : Val}
    (h : (assign cur e).get? f = some v) : cur.get? f = some v ∨ (f, v) ∈ e.assignments := by
  rw [assign] at h
  generalize e.assignments = as at h
  induction as generalizing cur with
  | nil => exact .inl h
  | cons a as ih =>
      obtain h | h := ih h
      · obtain ⟨rfl, rfl⟩ | ⟨-, h⟩ := Dict.get?_set_cases h
        · exact .inr List.mem_cons_self
        · exact .inl h
      · exact .inr (List.mem_cons_of_mem a h)

/-- The fields of the `k`-th event come from the `k`-th frame, or from the buffer the
first frame starts with. -/
theorem get?_framesFrom {dev : String} {cur : Buffer} {es : List NativeEvent} {k : Nat}
    {b : Buffer} (hb : (framesFrom dev cur es)[k]? = some b) {f : Field} {v : Val}
    (hv : b.get? f = some v) :
    (f = .device ∧ v = .text dev) ∨ (f = .type ∧ v = .kind .unknown) ∨
      (k = 0 ∧ cur.get? f = some v) ∨
      ∃ frame, (es.splitOnP NativeEvent.isReport)[k]? = some frame ∧
        ∃ e ∈ frame, (f, v) ∈ e.assignments := by
  induction es generalizing cur k with
  | nil => cases hb
  | cons e es ih =>
      rw [framesFrom] at hb
      rw [List.splitOnP_cons_eq_if_modifyHead]
      by_cases he : e.isReport = true
      · rw [if_pos he] at hb
        rw [if_pos he]
        cases k with
        | zero =>
            rw [List.getElem?_cons_zero] at hb
            cases hb
            obtain ⟨rfl, rfl⟩ | ⟨-, hv⟩ := Dict.get?_set_cases hv
            · exact .inl ⟨rfl, rfl⟩
            · exact .inr (.inr (.inl ⟨rfl, hv⟩))
        | succ k =>
            rw [List.getElem?_cons_succ] at hb
            obtain h | h | ⟨-, hreset⟩ | h := ih hb
            · exact .inl h
            · exact .inr (.inl h)
            · obtain rfl | hne := eq_or_ne f .type
              · rw [resetBuffer, Dict.get?_set_self] at hreset
                cases hreset
                exact .inr (.inl ⟨rfl, rfl⟩)
              · rw [resetBuffer, Dict.get?_set_ne _ hne, Dict.get?_empty] at hreset
                cases hreset
            · exact .inr (.inr (.inr h))
      · rw [if_neg he] at hb
        obtain ⟨frame₀, later, hsplit⟩ :=
          List.exists_cons_of_ne_nil (List.splitOnP_ne_nil NativeEvent.isReport es)
        rw [if_neg he, hsplit, List.modifyHead_cons]
        rw [hsplit] at ih
        obtain h | h | ⟨rfl, hcur⟩ | ⟨frame, hframe, e', he', hmem⟩ := ih hb
        · exact .inl h
        · exact .inr (.inl h)
        · obtain hcur | hmem := get?_assign hcur
          · exact .inr (.inr (.inl ⟨rfl, hcur⟩))
          · exact .inr (.inr (.inr ⟨e :: frame₀, rfl, e, List.mem_cons_self, hmem⟩))
        · refine .inr (.inr (.inr ?_))
          cases k with
          | zero =>
              cases hframe
              exact ⟨e :: frame₀, rfl, e', List.mem_cons_of_mem e he', hmem⟩
          | succ k => exact ⟨frame, hframe, e', he', hmem⟩

/-! ## Who writes where -/

/-- Every device has a live dictionary of its own, and none of these is queued. -/
structure Owned (l : Listener) (buffers : Dict String Nat) : Prop where
  has : l.buffers = some buffers
  live : ∀ d r, buffers.get? d = some r → r < l.heap.length
  separate : ∀ d d' r, buffers.get? d = some r → buffers.get? d' = some r → d = d'
  queued : ∀ r ∈ l.events, r < l.heap.length ∧ ∀ d, buffers.get? d ≠ some r

/-- A device gets a new dictionary; the one it had before may be queued. -/
theorem Owned.fresh {l l' : Listener} {buffers : Dict String Nat} (h : Owned l buffers)
    {dev : String} (hhas : l'.buffers = some (buffers.set dev l.heap.length))
    (hlength : l'.heap.length = l.heap.length + 1)
    (hevents : ∀ r ∈ l'.events, r ∈ l.events ∨ buffers.get? dev = some r) :
    Owned l' (buffers.set dev l.heap.length) where
  has := hhas
  live := by
    intro d r hd
    rw [hlength]
    obtain ⟨-, rfl⟩ | ⟨-, hold⟩ := Dict.get?_set_cases hd
    · exact Nat.lt_succ_self _
    · exact Nat.lt_succ_of_lt (h.live d r hold)
  separate := by
    intro d d' r hd hd'
    obtain ⟨rfl, rfl⟩ | ⟨-, hold⟩ := Dict.get?_set_cases hd
    · obtain ⟨rfl, -⟩ | ⟨-, hold'⟩ := Dict.get?_set_cases hd'
      · rfl
      · exact absurd (h.live d' _ hold') (Nat.lt_irrefl _)
    · obtain ⟨rfl, rfl⟩ | ⟨-, hold'⟩ := Dict.get?_set_cases hd'
      · exact absurd (h.live d _ hold) (Nat.lt_irrefl _)
      · exact h.separate d d' r hold hold'
  queued := by
    intro r hr
    have hlt : r < l.heap.length := by
      obtain hr | hr := hevents r hr
      · exact (h.queued r hr).1
      · exact h.live dev r hr
    rw [hlength]
    refine ⟨Nat.lt_succ_of_lt hlt, fun d hd => ?_⟩
    obtain ⟨-, rfl⟩ | ⟨hne, hold⟩ := Dict.get?_set_cases hd
    · exact Nat.lt_irrefl _ hlt
    · obtain hr | hr := hevents r hr
      · exact (h.queued r hr).2 d hold
      · exact hne (h.separate d dev r hold hr)

/-- Two devices have two dictionaries. -/
theorem Owned.ne_of_device_ne {l : Listener} {buffers : Dict String Nat} (h : Owned l buffers)
    {dev d : String} {r r' : Nat} (hr : buffers.get? dev = some r) (hd : buffers.get? d = some r')
    (hne : d ≠ dev) : r' ≠ r := by
  rintro rfl
  exact hne (h.separate d dev r' hd hr)

/-- A queued dictionary is no device's any more. -/
theorem Owned.ne_of_queued {l : Listener} {buffers : Dict String Nat} (h : Owned l buffers)
    {dev : String} {r r' : Nat} (hr : buffers.get? dev = some r) (hr' : r' ∈ l.events) :
    r' ≠ r := by
  rintro rfl
  exact (h.queued r' hr').2 dev hr

/-- The listener after the native events `past` of the devices `known`. -/
structure Follows (known : List String) (past : String → List NativeEvent) (l : Listener)
    (buffers : Dict String Nat) : Prop extends Owned l buffers where
  known_iff : ∀ d, d ∈ known ↔ d ∈ buffers.keys
  past_nil : ∀ d, d ∉ known → past d = []
  current : ∀ d r, buffers.get? d = some r → l.deref r = lastBuffer ∅ (past d)
  frames_eq : ∀ d, l.queuedFor d = frames d (past d)

theorem queuedFor_congr {l l' : Listener} (hevents : l'.events = l.events)
    (hderef : ∀ r ∈ l.events, l'.deref r = l.deref r) (d : String) :
    l'.queuedFor d = l.queuedFor d := by
  rw [Listener.queuedFor, Listener.queuedFor, hevents, List.map_congr_left hderef]

theorem queuedFor_snoc {l l' : Listener} {r : Nat} {dev : String} {b : Buffer}
    (hevents : l'.events = l.events ++ [r]) (hderef : ∀ r ∈ l.events, l'.deref r = l.deref r)
    (hr : l'.deref r = b.set .device (.text dev)) (d : String) :
    l'.queuedFor d =
      l.queuedFor d ++ if d = dev then [b.set .device (.text dev)] else [] := by
  rw [Listener.queuedFor, Listener.queuedFor, hevents, List.map_append, List.filter_append,
    List.map_congr_left hderef, List.map_singleton, hr]
  congr 1
  by_cases hd : d = dev
  · simp [hd]
  · have hne : ¬(Val.text dev = Val.text d) := fun h => hd (by cases h; rfl)
    simp [hd, hne]

theorem deref_append {l : Listener} {r : Nat} (h : r < l.heap.length) (b : Buffer)
    (buffers : Option (Dict String Nat)) :
    Listener.deref { l with heap := l.heap ++ [b], buffers := buffers } r = l.deref r := by
  simp only [Listener.deref]
  rw [List.getElem?_append_left h]

/-- Only the dictionary behind the reference is written to. -/
theorem deref_handleEvent_of_ne {l : Listener} {buffers : Dict String Nat} {dev : String}
    {e : NativeEvent} {r r' : Nat} (hlt : r' < l.heap.length) (hne : r' ≠ r) :
    (l.handleEvent buffers dev e r).deref r' = l.deref r' := by
  rw [Listener.handleEvent]
  split
  · simp only [Listener.deref]
    rw [List.getElem?_append_left (by rwa [List.length_set]), List.getElem?_set_ne hne.symm]
  · simp only [Listener.deref]
    rw [List.getElem?_set_ne hne.symm]

theorem deref_handleEvent_report {l : Listener} {buffers : Dict String Nat} {dev : String}
    {e : NativeEvent} {r : Nat} (hlt : r < l.heap.length) (he : e.isReport = true) :
    (l.handleEvent buffers dev e r).deref r = (l.deref r).set .device (.text dev) := by
  rw [Listener.handleEvent, if_pos he]
  simp only [Listener.deref]
  rw [List.getElem?_append_left (by rwa [List.length_set]), List.getElem?_set_self hlt,
    Option.getD_some]

theorem events_handleEvent (l : Listener) (buffers : Dict String Nat) (dev : String)
    (e : NativeEvent) (r : Nat) :
    (l.handleEvent buffers dev e r).events = l.events ++ if e.isReport then [r] else [] := by
  rw [Listener.handleEvent]
  split
  · rfl
  · exact (List.append_nil _).symm

/-- A device is announced. -/
theorem Follows.info {known : List String} {past : String → List NativeEvent} {l : Listener}
    {buffers : Dict String Nat} (h : Follows known past l buffers) {dev : String}
    (hnew : dev ∉ known) :
    Follows (dev :: known) past (l.reportInfo dev).1 (buffers.set dev l.heap.length) ∧
      (l.reportInfo dev).2 = none := by
  have hresult : l.reportInfo dev =
      ({ l with heap := l.heap ++ [∅], buffers := some (buffers.set dev l.heap.length) },
        none) := by
    rw [Listener.reportInfo, h.has]
  have howned : Owned (l.reportInfo dev).1 (buffers.set dev l.heap.length) := by
    apply h.toOwned.fresh
    · rw [hresult]
    · rw [hresult, List.length_append, List.length_singleton]
    · intro r hr
      rw [hresult] at hr
      exact .inl hr
  rw [hresult] at howned ⊢
  refine ⟨{ howned with known_iff := ?_, past_nil := ?_, current := ?_, frames_eq := ?_ }, rfl⟩
  · intro d
    rw [List.mem_cons, Dict.mem_keys_set, h.known_iff]
  · intro d hd
    exact h.past_nil d fun hk => hd (List.mem_cons_of_mem dev hk)
  · intro d r hd
    obtain ⟨rfl, rfl⟩ | ⟨-, hd⟩ := Dict.get?_set_cases hd
    · rw [h.past_nil d hnew, lastBuffer]
      simp [Listener.deref]
    · rw [deref_append (h.live d r hd), h.current d r hd]
  · intro d
    rw [← h.frames_eq d]
    have hderef (r : Nat) (hr : r ∈ l.events) :=
      deref_append (h.queued r hr).1 ∅ (some (buffers.set dev l.heap.length))
    refine queuedFor_congr ?_ hderef d
    rfl

/-- The past of the devices with one more native event. -/
def extend (past : String → List NativeEvent) (dev : String) (e : NativeEvent) (d : String) :
    List NativeEvent :=
  if d = dev then past d ++ [e] else past d

theorem extend_self (past : String → List NativeEvent) (dev : String) (e : NativeEvent) :
    extend past dev e dev = past dev ++ [e] := if_pos rfl

theorem extend_ne (past : String → List NativeEvent) {dev d : String} (h : d ≠ dev)
    (e : NativeEvent) : extend past dev e d = past d := if_neg h

/-- An event of a known device adds to the past of no other one. -/
theorem Follows.past_nil_extend {known : List String} {past : String → List NativeEvent}
    {l : Listener} {buffers : Dict String Nat} (h : Follows known past l buffers) {dev : String}
    {r : Nat} (hr : buffers.get? dev = some r) (e : NativeEvent) {d : String} (hd : d ∉ known) :
    extend past dev e d = [] := by
  have hmem : dev ∈ known := (h.known_iff dev).mpr (Dict.mem_keys_iff.mpr ⟨r, hr⟩)
  have hne : d ≠ dev := by
    rintro rfl
    exact hd hmem
  rw [extend_ne past hne, h.past_nil d hd]

/-- An event that does not end a frame changes the dictionary of its device only. -/
theorem Follows.assign {known : List String} {past : String → List NativeEvent} {l : Listener}
    {buffers : Dict String Nat} (h : Follows known past l buffers) {dev : String} {r : Nat}
    (hr : buffers.get? dev = some r) {e : NativeEvent} (he : e.isReport = false) :
    Follows known (extend past dev e) (l.handleEvent buffers dev e r) (buffers.set dev r) := by
  have hresult : l.handleEvent buffers dev e r =
      { l with
        heap := l.heap.set r (InputEvent.assign (l.deref r) e)
        buffers := some (buffers.set dev r) } := by
    rw [Listener.handleEvent, if_neg (by simp [he])]
  have hget (d : String) : (buffers.set dev r).get? d = buffers.get? d := by
    obtain rfl | hne := eq_or_ne d dev
    · rw [Dict.get?_set_self, hr]
    · rw [Dict.get?_set_ne _ hne]
  have hself : (l.handleEvent buffers dev e r).deref r = InputEvent.assign (l.deref r) e := by
    rw [hresult]
    simp only [Listener.deref]
    rw [List.getElem?_set_self (h.live dev r hr), Option.getD_some]
  have hevents : (l.handleEvent buffers dev e r).events = l.events := by rw [hresult]
  have hlength : (l.handleEvent buffers dev e r).heap.length = l.heap.length := by
    rw [hresult, List.length_set]
  refine { has := by rw [hresult], live := ?_, separate := ?_, queued := ?_, known_iff := ?_,
           past_nil := ?_, current := ?_, frames_eq := ?_ }
  · intro d r' hd
    rw [hget] at hd
    rw [hlength]
    exact h.live d r' hd
  · intro d d' r' hd hd'
    rw [hget] at hd hd'
    exact h.separate d d' r' hd hd'
  · intro r' hr'
    rw [hevents] at hr'
    rw [hlength]
    exact ⟨(h.queued r' hr').1, fun d hd => (h.queued r' hr').2 d (by rwa [hget] at hd)⟩
  · intro d
    rw [h.known_iff, Dict.mem_keys_iff, Dict.mem_keys_iff, hget]
  · intro d hd
    exact h.past_nil_extend hr e hd
  · intro d r' hd
    rw [hget] at hd
    obtain rfl | hne := eq_or_ne d dev
    · rw [hr] at hd
      cases hd
      rw [hself, h.current d r hr, extend_self, lastBuffer_snoc, if_neg (by simp [he])]
    · have hne' := h.ne_of_device_ne hr hd hne
      rw [deref_handleEvent_of_ne (h.live d r' hd) hne', extend_ne past hne, h.current d r' hd]
  · intro d
    have hderef (r' : Nat) (hr' : r' ∈ l.events) :
        (l.handleEvent buffers dev e r).deref r' = l.deref r' :=
      deref_handleEvent_of_ne (h.queued r' hr').1 (h.ne_of_queued hr hr')
    have hsame : (l.handleEvent buffers dev e r).queuedFor d = l.queuedFor d :=
      queuedFor_congr hevents hderef d
    rw [hsame, h.frames_eq d]
    obtain rfl | hne := eq_or_ne d dev
    · rw [extend_self, frames, frames, framesFrom_snoc, if_neg (by simp [he]), List.append_nil]
    · rw [extend_ne past hne]

/-- The end of a frame queues the dictionary of the device and gives it a new one. -/
theorem Follows.report {known : List String} {past : String → List NativeEvent} {l : Listener}
    {buffers : Dict String Nat} (h : Follows known past l buffers) {dev : String} {r : Nat}
    (hr : buffers.get? dev = some r) {e : NativeEvent} (he : e.isReport = true) :
    Follows known (extend past dev e) (l.handleEvent buffers dev e r)
      (buffers.set dev l.heap.length) := by
  have hresult : l.handleEvent buffers dev e r =
      { l with
        heap := l.heap.set r ((l.deref r).set .device (.text dev)) ++ [resetBuffer]
        events := l.events ++ [r]
        buffers := some (buffers.set dev l.heap.length) } := by
    rw [Listener.handleEvent, if_pos he]
  have hlive : r < l.heap.length := h.live dev r hr
  have hnew : (l.handleEvent buffers dev e r).deref l.heap.length = resetBuffer := by
    rw [hresult]
    simp [Listener.deref]
  have hevents : (l.handleEvent buffers dev e r).events = l.events ++ [r] := by rw [hresult]
  have hlength : (l.handleEvent buffers dev e r).heap.length = l.heap.length + 1 := by
    rw [hresult, List.length_append, List.length_set, List.length_singleton]
  have howned : Owned (l.handleEvent buffers dev e r) (buffers.set dev l.heap.length) := by
    apply h.toOwned.fresh _ hlength
    · intro r' hr'
      rw [hevents, List.mem_append, List.mem_singleton] at hr'
      obtain hr' | rfl := hr'
      · exact .inl hr'
      · exact .inr hr
    · rw [hresult]
  refine { howned with known_iff := ?_, past_nil := ?_, current := ?_, frames_eq := ?_ }
  · intro d
    rw [h.known_iff, Dict.mem_keys_set]
    refine (or_iff_right_of_imp ?_).symm
    rintro rfl
    exact Dict.mem_keys_iff.mpr ⟨r, hr⟩
  · intro d hd
    exact h.past_nil_extend hr e hd
  · intro d r' hd
    obtain ⟨rfl, rfl⟩ | ⟨hne, hold⟩ := Dict.get?_set_cases hd
    · rw [hnew, extend_self, lastBuffer_snoc, if_pos he]
    · have hne' := h.ne_of_device_ne hr hold hne
      rw [deref_handleEvent_of_ne (h.live d r' hold) hne', extend_ne past hne,
        h.current d r' hold]
  · intro d
    have hderef (r' : Nat) (hr' : r' ∈ l.events) :
        (l.handleEvent buffers dev e r).deref r' = l.deref r' :=
      deref_handleEvent_of_ne (h.queued r' hr').1 (h.ne_of_queued hr hr')
    rw [queuedFor_snoc hevents hderef (deref_handleEvent_report hlive he) d, h.frames_eq d]
    obtain rfl | hne := eq_or_ne d dev
    · rw [if_pos rfl, extend_self, frames, frames, framesFrom_snoc, if_pos he, h.current d r hr]
    · rw [if_neg hne, List.append_nil, extend_ne past hne]

/-! ## Whole streams -/

theorem Follows.handleEvent {known : List String} {past : String → List NativeEvent}
    {l : Listener} {buffers : Dict String Nat} (h : Follows known past l buffers) {dev : String}
    {r : Nat} (hr : buffers.get? dev = some r) (e : NativeEvent) :
    ∃ buffers', Follows known (extend past dev e) (l.handleEvent buffers dev e r) buffers' := by
  cases he : e.isReport with
  | true => exact ⟨_, h.report hr he⟩
  | false => exact ⟨_, h.assign hr he⟩

/-- The other messages do not reach the dictionaries. -/
theorem Follows.of_same {known : List String} {past : String → List NativeEvent}
    {l l' : Listener} {buffers : Dict String Nat} (h : Follows known past l buffers)
    (hheap : l'.heap = l.heap) (hbuffers : l'.buffers = l.buffers)
    (hevents : l'.events = l.events) : Follows known past l' buffers := by
  have hderef (r : Nat) : l'.deref r = l.deref r := by rw [Listener.deref, Listener.deref, hheap]
  refine { has := by rw [hbuffers, h.has], live := ?_, separate := h.separate, queued := ?_,
           known_iff := h.known_iff, past_nil := h.past_nil, current := ?_, frames_eq := ?_ }
  · rw [hheap]
    exact h.live
  · rw [hheap, hevents]
    exact h.queued
  · intro d r hd
    rw [hderef, h.current d r hd]
  · intro d
    rw [queuedFor_congr hevents (fun r _ => hderef r), h.frames_eq]

theorem receive_info {known : List String} {past : String → List NativeEvent} {l : Listener}
    {buffers : Dict String Nat} (h : Follows known past l buffers) {dev : String}
    (hnew : dev ∉ known) (ms : List Message) :
    l.receive (.info dev :: ms) = (l.reportInfo dev).1.receive ms := by
  obtain ⟨-, hnone⟩ := h.info hnew
  simp only [Listener.receive, Listener.parseOutput]
  generalize l.reportInfo dev = result at hnone
  obtain ⟨l', e⟩ := result
  cases hnone
  rfl

theorem receive_event {known : List String} {past : String → List NativeEvent} {l : Listener}
    {buffers : Dict String Nat} (h : Follows known past l buffers) {dev : String} {r : Nat}
    (hr : buffers.get? dev = some r) (e : NativeEvent) (ms : List Message) :
    l.receive (.event dev e :: ms) = (l.handleEvent buffers dev e r).receive ms := by
  simp only [Listener.receive, Listener.parseOutput, Listener.parsePlatformEvent, h.has, hr]

/-- A well-announced stream raises nothing and extends the past of every device by its
own native events. -/
theorem Follows.receive {ms : List Message} {known : List String}
    {past : String → List NativeEvent} {l : Listener} {buffers : Dict String Nat}
    (h : Follows known past l buffers) (hms : Announced known ms) :
    (l.receive ms).2 = none ∧
      ∀ d, (l.receive ms).1.queuedFor d = frames d (past d ++ nativeOf d ms) := by
  induction ms generalizing known past l buffers with
  | nil =>
      refine ⟨rfl, fun d => ?_⟩
      rw [nativeOf, List.append_nil]
      exact h.frames_eq d
  | cons m ms ih =>
      cases m with
      | info dev =>
          obtain ⟨hnew, hrest⟩ := hms
          obtain ⟨hinfo, -⟩ := h.info hnew
          rw [receive_info h hnew]
          exact ih hinfo hrest
      | event dev e =>
          obtain ⟨hmem, hrest⟩ := hms
          obtain ⟨r, hr⟩ := Dict.mem_keys_iff.mp ((h.known_iff dev).mp hmem)
          obtain ⟨buffers', hnext⟩ := h.handleEvent hr e
          obtain ⟨hnone, hframes⟩ := ih hnext hrest
          rw [receive_event h hr]
          refine ⟨hnone, fun d => ?_⟩
          rw [hframes d]
          obtain rfl | hne := eq_or_ne d dev
          · rw [extend_self, nativeOf, if_pos rfl, List.append_assoc, List.singleton_append]
          · rw [extend_ne past hne, nativeOf, if_neg hne.symm]
      | garbage => exact ih h hms
      | error => exact ih h hms
      | other => exact ih h hms
      | sync => exact ih (h.of_same rfl rfl rfl) hms
      | ready => exact ih (h.of_same rfl rfl rfl) hms

theorem follows_initialised : Follows [] (fun _ => []) Listener.initialised ∅ where
  has := rfl
  live d r h := by rw [Dict.get?_empty] at h; cases h
  separate d d' r h := by rw [Dict.get?_empty] at h; cases h
  queued r h := absurd h List.not_mem_nil
  known_iff d := by simp
  past_nil _ _ := rfl
  current d r h := by rw [Dict.get?_empty] at h; cases h
  frames_eq _ := rfl

/-- For every interleaving of the devices' messages, the events queued for a device are
determined by its own native events, there is one for each of its `SYN_REPORT`s, and
the fields of each come from its own frame. -/
theorem queued_events_of_own_frames (ms : List Message) (announced : Announced [] ms)
    (dev : String) :
    (Listener.initialised.receive ms).2 = none ∧
    (∀ ms', Announced [] ms' → nativeOf dev ms' = nativeOf dev ms →
      (Listener.initialised.receive ms').1.queuedFor dev =
        (Listener.initialised.receive ms).1.queuedFor dev) ∧
    ((Listener.initialised.receive ms).1.queuedFor dev).length =
      (nativeOf dev ms).countP NativeEvent.isReport ∧
    ∀ (k : Nat) (b : Buffer),
      ((Listener.initialised.receive ms).1.queuedFor dev)[k]? = some b →
      ∀ (f : Field) (v : Val), b.get? f = some v →
        (f = .device ∧ v = .text dev) ∨ (f = .type ∧ v = .kind .unknown) ∨
        ∃ frame, ((nativeOf dev ms).splitOnP NativeEvent.isReport)[k]? = some frame ∧
          ∃ e ∈ frame, (f, v) ∈ e.assignments := by
  obtain ⟨hnone, hframes⟩ := follows_initialised.receive announced
  refine ⟨hnone, ?_, ?_, ?_⟩
  · intro ms' announced' hnative
    rw [hframes, (follows_initialised.receive announced').2, hnative]
  · rw [hframes]
    exact length_framesFrom dev ∅ _
  · intro k b hb f v hv
    rw [hframes] at hb
    obtain h | h | ⟨-, hempty⟩ | h := get?_framesFrom hb hv
    · exact .inl h
    · exact .inr (.inl h)
    · rw [Dict.get?_empty] at hempty
      cases hempty
    · exact .inr (.inr h)

/-- Two devices whose frames interleave. -/
def mixedStream : List Message :=
  [.info "event0", .garbage, .info "event1", .event "event0" ⟨.evKey, "KEY_A", 1⟩,
    .event "event1" ⟨.evRel, "REL_X", 5⟩, .event "event0" ⟨.evSyn, "SYN_REPORT", 0⟩,
    .event "event1" ⟨.evSyn, "SYN_REPORT", 0⟩]

theorem queued_events_of_mixedStream :
    Announced [] mixedStream ∧
      ((Listener.initialised.receive mixedStream).1.queuedFor "event0").length = 1 := by
  have announced : Announced [] mixedStream := by simp [mixedStream, Announced]
  refine ⟨announced, ?_⟩
  rw [(queued_events_of_own_frames mixedStream announced "event0").2.2.1]
  decide

end TpQemu.InputEvent

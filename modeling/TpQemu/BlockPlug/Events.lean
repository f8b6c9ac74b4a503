import Mathlib.Data.List.Infix
import TpQemu.BlockPlug.Devices
import TpQemu.Lib.Polling

/-!
# Waiting for deletion events

`_get_events_deleted` and `_wait_events_deleted`. The monitor keeps the events it
received until they are cleared; clearing by name drops the events of exactly that
name, while the module looks for the name anywhere in an event's name. Each poll
builds the list of awaited images anew and then clears the log, so what one poll
has seen is forgotten by the next.

The events that arrive between two polls are given by a schedule. What a poll sees
can then be told from the schedule alone (`Seen`), and so can the polls that are
made at all (`Made`).
-/

namespace TpQemu.BlockPlug

/-- A monitor event; `device` is the entry of its data, if there is one. -/
structure Event where
  name : String
  device : Option String
  deriving DecidableEq

def deletedEvent : String := "DEVICE_DELETED"

/-- The device whose deletion an event reports. -/
def Event.deleted (e : Event) : Option String :=
  if deletedEvent.toList <:+: e.name.toList then e.device else none

/-- `monitor.clear_event(name)`. -/
def clearEvent (name : String) (log : List Event) : List Event :=
  log.filter fun e => e.name ≠ name

/-- The body of the loop over the events. -/
def dropDeleted (eventDevs : List String) (e : Event) : List String :=
  match e.deleted with
  | some name => if name ∈ eventDevs then eventDevs.erase name else eventDevs
  | none => eventDevs

/-- `_get_events_deleted()`, on the object and the log of its monitor. -/
def getEventsDeleted (s : Plug × List Event) : Bool × Plug × List Event :=
  let eventDevs := s.2.foldl dropDeleted s.1.unpluggedDevs.keys
  (eventDevs.isEmpty, { s.1 with eventDevs := eventDevs }, clearEvent deletedEvent s.2)

/-- The events of the schedule reach the log before the poll. -/
def arrive (arrivals : Nat → List Event) (i : Nat) (s : Plug × List Event) :
    Plug × List Event :=
  (s.1, s.2 ++ arrivals i)

/-- `_wait_events_deleted(timeout)`, with `n` polls before the time is up. -/
def waitEventsDeleted (arrivals : Nat → List Event) (n : Nat) (s : Plug × List Event) :
    Except PyError Unit × Plug × List Event :=
  let r := waitFor (arrive arrivals) getEventsDeleted n 0 s
  if r.1 then (.ok (), r.2)
  else (.error (.testError ("No \"DEVICE DELETED\" event generated after unplug \"" ++
    ";".intercalate r.2.1.eventDevs ++ "\".")), r.2)

/-! ## One poll -/

theorem mem_dropDeleted {eventDevs : List String} (h : eventDevs.Nodup) (e : Event)
    (d : String) : d ∈ dropDeleted eventDevs e ↔ d ∈ eventDevs ∧ e.deleted ≠ some d := by
  rw [dropDeleted]
  split
  · rename_i name hname
    split
    · rw [h.mem_erase_iff, hname, Option.some_inj.ne, and_comm, ne_comm]
    · rename_i hmem
      rw [hname, Option.some_inj.ne]
      refine ⟨fun hd => ⟨hd, ?_⟩, And.left⟩
      rintro rfl
      exact hmem hd
  · rename_i hnone
    simp [hnone]

theorem nodup_dropDeleted {eventDevs : List String} (h : eventDevs.Nodup) (e : Event) :
    (dropDeleted eventDevs e).Nodup := by
  rw [dropDeleted]
  split
  · split
    · exact h.erase _
    · exact h
  · exact h

/-- An image is still awaited when no event of the log reports its deletion. -/
theorem mem_foldl_dropDeleted {eventDevs : List String} (h : eventDevs.Nodup)
    (log : List Event) (d : String) :
    d ∈ log.foldl dropDeleted eventDevs ↔ d ∈ eventDevs ∧ ∀ e ∈ log, e.deleted ≠ some d := by
  induction log generalizing eventDevs with
  | nil => simp
  | cons e log ih =>
      rw [List.foldl_cons, ih (nodup_dropDeleted h e), mem_dropDeleted h]
      simp only [List.forall_mem_cons, and_assoc]

theorem mem_getEventsDeleted (s : Plug × List Event) (d : String) :
    d ∈ (getEventsDeleted s).2.1.eventDevs ↔
      d ∈ s.1.unpluggedDevs.keys ∧ ∀ e ∈ s.2, e.deleted ≠ some d :=
  mem_foldl_dropDeleted s.1.unpluggedDevs.nodup_keys s.2 d

/-- A poll succeeds when its log has a deletion event for every unplugged image. -/
theorem getEventsDeleted_iff (s : Plug × List Event) :
    (getEventsDeleted s).1 = true ↔
      ∀ d ∈ s.1.unpluggedDevs.keys, ∃ e ∈ s.2, e.deleted = some d := by
  have hempty : (getEventsDeleted s).1 = true ↔ ∀ d, d ∉ (getEventsDeleted s).2.1.eventDevs := by
    rw [← List.eq_nil_iff_forall_not_mem]
    exact List.isEmpty_iff
  rw [hempty]
  refine forall_congr' fun d => ?_
  rw [mem_getEventsDeleted]
  simp only [not_and, not_forall, not_not, exists_prop]

/-! ## A schedule -/

section Schedule

variable (plug : Plug) (log : List Event) (arrivals : Nat → List Event)

/-- The events that reach the log between poll `i - 1` and poll `i`; those pending when
the waiting begins count for the first poll. -/
def arrived : Nat → List Event
  | 0 => log ++ arrivals 0
  | i + 1 => arrivals (i + 1)

/-- Poll `i` finds a deletion event of the image: one that has just arrived, or an older
one that clearing by name does not drop. -/
def Seen (i : Nat) (d : String) : Prop :=
  (∃ e ∈ arrived log arrivals i, e.deleted = some d) ∨
    ∃ j < i, ∃ e ∈ arrived log arrivals j, e.deleted = some d ∧ e.name ≠ deletedEvent

/-- Poll `i` finds deletion events of all unplugged images together. -/
def Covering (i : Nat) : Prop := ∀ d ∈ plug.unpluggedDevs.keys, Seen log arrivals i d

/-- Poll `i` takes place: there is time for it and no earlier poll succeeded. -/
def Made (n i : Nat) : Prop := i < n ∧ ∀ j < i, ¬Covering plug log arrivals j

/-- The events of all unplugged images have arrived by some poll before the time is up. -/
def AllArrived (n : Nat) : Prop :=
  ∃ i < n, ∀ d ∈ plug.unpluggedDevs.keys,
    ∃ j ≤ i, ∃ e ∈ arrived log arrivals j, e.deleted = some d

/-- The images still awaited after poll `i`. -/
def awaited (i : Nat) : List String :=
  (getEventsDeleted (stateAt (arrive arrivals) getEventsDeleted (plug, log) i)).2.1.eventDevs

/-- No deletion event is lost: the waiting ends well if all events arrive, and after
each poll the awaited images are those whose event no poll has seen yet. -/
def NoEventLost (n : Nat) : Prop :=
  (AllArrived plug log arrivals n →
    (waitEventsDeleted arrivals n (plug, log)).1 = .ok ()) ∧
  ∀ i, Made plug log arrivals n i → ∀ d, d ∈ awaited plug log arrivals i ↔
    d ∈ plug.unpluggedDevs.keys ∧ ∀ j ≤ i, ¬Seen log arrivals j d

variable {plug log arrivals}

theorem unpluggedDevs_stateAt (i : Nat) :
    (stateAt (arrive arrivals) getEventsDeleted (plug, log) i).1.unpluggedDevs =
      plug.unpluggedDevs := by
  induction i with
  | zero => rfl
  | succ i ih => exact ih

/-- The log a poll finds: what has just arrived, and what earlier clearings left. -/
theorem mem_log_stateAt (i : Nat) (e : Event) :
    e ∈ (stateAt (arrive arrivals) getEventsDeleted (plug, log) i).2 ↔
      e ∈ arrived log arrivals i ∨
        ∃ j < i, e ∈ arrived log arrivals j ∧ e.name ≠ deletedEvent := by
  induction i with
  | zero => simp [stateAt, arrive, arrived]
  | succ i ih =>
      have hstep : e ∈ (stateAt (arrive arrivals) getEventsDeleted (plug, log) (i + 1)).2 ↔
          (e ∈ (stateAt (arrive arrivals) getEventsDeleted (plug, log) i).2 ∧
            e.name ≠ deletedEvent) ∨ e ∈ arrivals (i + 1) := by
        simp [stateAt, arrive, getEventsDeleted, clearEvent]
      rw [hstep, ih, or_comm]
      refine or_congr Iff.rfl ⟨?_, ?_⟩
      · rintro ⟨hnow | ⟨j, hj, hmem, -⟩, hname⟩
        · exact ⟨i, Nat.lt_succ_self i, hnow, hname⟩
        · exact ⟨j, Nat.lt_succ_of_lt hj, hmem, hname⟩
      · rintro ⟨j, hj, hmem, hname⟩
        refine ⟨?_, hname⟩
        obtain hlt | rfl := Nat.lt_succ_iff_lt_or_eq.mp hj
        · exact .inr ⟨j, hlt, hmem, hname⟩
        · exact .inl hmem

theorem seen_iff (plug : Plug) (i : Nat) (d : String) :
    Seen log arrivals i d ↔
      ∃ e ∈ (stateAt (arrive arrivals) getEventsDeleted (plug, log) i).2, e.deleted = some d := by
  simp only [mem_log_stateAt, Seen]
  constructor
  · rintro (⟨e, hmem, hd⟩ | ⟨j, hj, e, hmem, hd, hname⟩)
    · exact ⟨e, .inl hmem, hd⟩
    · exact ⟨e, .inr ⟨j, hj, hmem, hname⟩, hd⟩
  · rintro ⟨e, hmem | ⟨j, hj, hmem, hname⟩, hd⟩
    · exact .inl ⟨e, hmem, hd⟩
    · exact .inr ⟨j, hj, e, hmem, hd, hname⟩

theorem mem_awaited (i : Nat) (d : String) :
    d ∈ awaited plug log arrivals i ↔
      d ∈ plug.unpluggedDevs.keys ∧ ¬Seen log arrivals i d := by
  rw [awaited, mem_getEventsDeleted, unpluggedDevs_stateAt, seen_iff plug, not_exists]
  simp only [not_and, ne_eq]

theorem poll_iff_covering (i : Nat) :
    (getEventsDeleted (stateAt (arrive arrivals) getEventsDeleted (plug, log) i)).1 = true ↔
      Covering plug log arrivals i := by
  rw [getEventsDeleted_iff, unpluggedDevs_stateAt]
  exact forall₂_congr fun d _ => (seen_iff plug i d).symm

/-- The waiting ends well exactly when one poll finds the events of all images. -/
theorem waitEventsDeleted_iff (n : Nat) :
    (waitEventsDeleted arrivals n (plug, log)).1 = .ok () ↔
      ∃ i < n, Covering plug log arrivals i := by
  have hok : (waitEventsDeleted arrivals n (plug, log)).1 = .ok () ↔
      (waitFor (arrive arrivals) getEventsDeleted n 0 (plug, log)).1 = true := by
    rw [waitEventsDeleted]
    split <;> simp_all
  rw [hok, waitFor_iff]
  simp only [poll_iff_covering]

/-- If no image seen once is ever missed later, the awaited images are those not yet
seen. -/
theorem mem_awaited_of_repeated {n i : Nat} (hi : Made plug log arrivals n i)
    (repeated : ∀ j, Made plug log arrivals n j → ∀ i < j, ∀ d ∈ plug.unpluggedDevs.keys,
      Seen log arrivals i d → Seen log arrivals j d) (d : String) :
    d ∈ awaited plug log arrivals i ↔
      d ∈ plug.unpluggedDevs.keys ∧ ∀ j ≤ i, ¬Seen log arrivals j d := by
  rw [mem_awaited]
  constructor
  · rintro ⟨hd, hunseen⟩
    refine ⟨hd, fun j hj hseen => hunseen ?_⟩
    obtain hlt | rfl := Nat.lt_or_eq_of_le hj
    · exact repeated i hi j hlt d hd hseen
    · exact hseen
  · rintro ⟨hd, hunseen⟩
    exact ⟨hd, hunseen i (Nat.le_refl i)⟩

theorem exists_covering_of_repeated {n : Nat} (hall : AllArrived plug log arrivals n)
    (repeated : ∀ j, Made plug log arrivals n j → ∀ i < j, ∀ d ∈ plug.unpluggedDevs.keys,
      Seen log arrivals i d → Seen log arrivals j d) :
    ∃ i < n, Covering plug log arrivals i := by
  obtain ⟨i, hi, harrived⟩ := hall
  by_contra hnone
  have hmade : Made plug log arrivals n i :=
    ⟨hi, fun j hj hcover => hnone ⟨j, Nat.lt_trans hj hi, hcover⟩⟩
  refine hnone ⟨i, hi, fun d hd => ?_⟩
  obtain ⟨j, hj, hevent⟩ := harrived d hd
  obtain hlt | rfl := Nat.lt_or_eq_of_le hj
  · exact repeated i hmade j hlt d hd (.inl hevent)
  · exact .inl hevent

/-- Events are not lost exactly when every image seen at one poll is seen again at each
later poll that is made; for the outcome alone it is enough that one poll finds the
events of all images together. -/
theorem noEventLost_iff (plug : Plug) (log : List Event) (arrivals : Nat → List Event)
    (n : Nat) :
    (NoEventLost plug log arrivals n ↔
      ∀ j, Made plug log arrivals n j → ∀ i < j, ∀ d ∈ plug.unpluggedDevs.keys,
        Seen log arrivals i d → Seen log arrivals j d) ∧
    ((AllArrived plug log arrivals n →
        (waitEventsDeleted arrivals n (plug, log)).1 = .ok ()) ↔
      (AllArrived plug log arrivals n → ∃ i < n, Covering plug log arrivals i)) := by
  refine ⟨⟨?_, ?_⟩, ?_⟩
  · intro hlost j hj i hij d hd hseen
    by_contra hunseen
    have hmem : d ∈ awaited plug log arrivals j := (mem_awaited j d).mpr ⟨hd, hunseen⟩
    exact ((hlost.2 j hj d).mp hmem).2 i (Nat.le_of_lt hij) hseen
  · intro repeated
    refine ⟨fun hall => ?_, fun i hi d => mem_awaited_of_repeated hi repeated d⟩
    exact (waitEventsDeleted_iff n).mpr (exists_covering_of_repeated hall repeated)
  · rw [waitEventsDeleted_iff]

end Schedule

/-- A fresh object that has unplugged two images. -/
def twoUnplugged : Plug where
  imgs := ["stg0", "stg1"]
  hotpluggedDevs := ∅
  unpluggedDevs := ((∅ : Dict String (List Device)).set "stg0" []).set "stg1" []
  eventDevs := []

/-- The events of the two images fall into different polling intervals. -/
def oneByOne : Nat → List Event
  | 0 => [⟨"DEVICE_DELETED", some "stg0"⟩]
  | 1 => [⟨"DEVICE_DELETED", some "stg1"⟩]
  | _ => []

/-- Both events have arrived by the second poll, and the waiting still raises. -/
theorem oneByOne_raises :
    AllArrived twoUnplugged [] oneByOne 3 ∧
      (waitEventsDeleted oneByOne 3 (twoUnplugged, [])).1 ≠ .ok () ∧
      ¬NoEventLost twoUnplugged [] oneByOne 3 := by
  have hall : AllArrived twoUnplugged [] oneByOne 3 := by
    refine ⟨1, by decide, fun d hd => ?_⟩
    have hkeys : d = "stg0" ∨ d = "stg1" := by simpa [twoUnplugged, or_comm] using hd
    obtain rfl | rfl := hkeys
    · exact ⟨0, by decide, ⟨"DEVICE_DELETED", some "stg0"⟩, by decide, by decide⟩
    · exact ⟨1, by decide, ⟨"DEVICE_DELETED", some "stg1"⟩, by decide, by decide⟩
  have hraise : (waitEventsDeleted oneByOne 3 (twoUnplugged, [])).1 ≠ .ok () := by
    intro h
    have hpoll : (waitFor (arrive oneByOne) getEventsDeleted 3 0 (twoUnplugged, [])).1 = false := by
      decide
    rw [waitEventsDeleted, hpoll] at h
    cases h
  exact ⟨hall, hraise, fun hlost => hraise (hlost.1 hall)⟩

end TpQemu.BlockPlug

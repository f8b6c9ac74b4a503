import TpQemu.Lib.Dict
import TpQemu.Lib.Python
import TpQemu.Lib.Steps

/-!
# Exporting an image again

`InternalNBDExportImage` in `provider/nbd_image_export.py` and `get_event_by_condition` in
`provider/job_utils.py`. Removing an export is asynchronous: `block-export-del` returns at
once, and `wait_till_export_removed` polls the log of the monitor for the event that
reports the removal. The event is recognised by the id of the export, which is the same in
every cycle, and nothing empties the log.

The export is a machine of the caller's steps and of the arrivals of events. An event
carries, as a ghost, the number of the cycle whose `block-export-del` has caused it; every
accepted command causes one event, at any later time.
-/

namespace TpQemu.NbdExport

/-- A monitor event; the data is empty if there is none. -/
structure Event where
  event : String
  data : Dict String String

/-- The events `get_event_by_condition` keeps. -/
def selects (eventName : String) (condition : List (String × String)) (e : Event) : Bool :=
  e.event = eventName && (condition.isEmpty ||
    (!e.data.entries.isEmpty && condition.all fun item => e.data.get? item.1 = some item.2))

def deletedEvent : String := "BLOCK_EXPORT_DELETED"

/-- What does not change between the cycles. -/
structure Config where
  /-- `block_export_uid`, or the default made from the node name. -/
  exportUid : String
  /-- `block_export_del_timeout`. -/
  tmo : Nat
  /-- The monitor knows `block-export-add` and `block-export-del`. -/
  supported : Bool

/-- The events `wait_till_export_removed` looks for. -/
def Config.removal (c : Config) (e : Event) : Bool :=
  selects deletedEvent [("id", c.exportUid)] e

inductive Phase where
  /-- No call is in progress and nothing is exported. -/
  | idle
  /-- `export_image` has returned. -/
  | exported
  /-- `wait_till_export_removed` has this many polls left. -/
  | waiting (polls : Nat)
  /-- `wait_till_export_removed` has returned normally. -/
  | removed
  deriving DecidableEq

structure State where
  phase : Phase
  /-- The number of the current cycle. -/
  cycle : Nat
  exportUid : Option String
  /-- The events the monitor has received, each with the cycle that has caused it. -/
  log : List (Event × Option Nat)
  /-- The cycles whose command has been accepted and whose event has not arrived. -/
  pending : List Nat

/-- How `export_image` ends. -/
inductive ExportResult where
  | ok
  /-- `nbd_server_start` has raised. -/
  | startRaises
  /-- The command that adds the export has raised, with the uid already set. -/
  | addRaises

inductive Label where
  | exportImage (result : ExportResult)
  /-- `remove_nbd_image()`, which may raise. -/
  | removeNbdImage (raises : Bool)
  /-- One round of `get_event_by_condition`, or its end. -/
  | poll
  | stopNbdServer
  /-- QEMU reports the removal of the export of a cycle. -/
  | reportRemoval (k : Nat) (e : Event)
  /-- The monitor receives any other event. -/
  | arrive (e : Event)

def step (c : Config) (s : State) : Label → Option State
  | .exportImage result =>
      if s.phase = .idle then
        let uid := if c.supported then some c.exportUid else none
        match result with
        | .ok => some { s with phase := .exported, cycle := s.cycle + 1, exportUid := uid }
        | .startRaises => some { s with cycle := s.cycle + 1 }
        | .addRaises => some { s with cycle := s.cycle + 1, exportUid := uid }
      else none
  | .removeNbdImage raises =>
      if s.phase = .exported then
        if raises then some { s with phase := .idle }
        else some { s with
          pending := if c.supported then s.pending ++ [s.cycle] else s.pending
          phase := if s.exportUid = none then .removed else .waiting c.tmo }
      else none
  | .poll =>
      match s.phase with
      | .waiting (n + 1) =>
          if s.log.any fun e => c.removal e.1 then
            some { s with phase := .removed, exportUid := none }
          else some { s with phase := .waiting n }
      -- `TestFail`
      | .waiting 0 => some { s with phase := .idle }
      | _ => none
  | .stopNbdServer => if s.phase = .removed then some { s with phase := .idle } else none
  | .reportRemoval k e =>
      if k ∈ s.pending ∧ c.removal e then
        some { s with log := s.log ++ [(e, some k)], pending := s.pending.erase k }
      else none
  | .arrive e =>
      if c.removal e then none else some { s with log := s.log ++ [(e, none)] }

/-- A new object; the log holds events of other kinds. -/
def initial : State where
  phase := .idle
  cycle := 0
  exportUid := none
  log := []
  pending := []

/-- If the wait of a cycle has returned, the event of this cycle has been received. -/
def Received (c : Config) (s : State) : Prop :=
  s.phase = .removed → c.supported = true → ∃ e ∈ s.log, e.2 = some s.cycle

/-! ## The steps -/

section Steps

variable {c : Config} {s s' : State}

theorem step_exportImage {result : ExportResult} (h : step c s (.exportImage result) = some s') :
    s.phase = .idle ∧ s'.cycle = s.cycle + 1 ∧ s'.log = s.log ∧ s'.pending = s.pending ∧
      (s'.phase = .idle ∨
        s'.phase = .exported ∧ s'.exportUid = if c.supported then some c.exportUid else none) := by
  simp only [step] at h
  split at h
  · rename_i hphase
    cases result with
    | ok =>
        cases h
        exact ⟨hphase, rfl, rfl, rfl, .inr ⟨rfl, rfl⟩⟩
    | startRaises =>
        cases h
        exact ⟨hphase, rfl, rfl, rfl, .inl hphase⟩
    | addRaises =>
        cases h
        exact ⟨hphase, rfl, rfl, rfl, .inl hphase⟩
  · cases h

theorem step_removeNbdImage {raises : Bool} (h : step c s (.removeNbdImage raises) = some s') :
    s.phase = .exported ∧ s'.cycle = s.cycle ∧ s'.log = s.log ∧
      (raises = true ∧ s'.phase = .idle ∧ s'.pending = s.pending ∨
        raises = false ∧
          s'.pending = (if c.supported then s.pending ++ [s.cycle] else s.pending) ∧
          s'.phase = if s.exportUid = none then .removed else .waiting c.tmo) := by
  simp only [step] at h
  split at h
  · rename_i hphase
    cases raises with
    | true =>
        cases h
        exact ⟨hphase, rfl, rfl, .inl ⟨rfl, rfl, rfl⟩⟩
    | false =>
        cases h
        exact ⟨hphase, rfl, rfl, .inr ⟨rfl, rfl, rfl⟩⟩
  · cases h

theorem step_poll (h : step c s .poll = some s') :
    s'.cycle = s.cycle ∧ s'.log = s.log ∧ s'.pending = s.pending ∧
      ((∃ n, s.phase = .waiting (n + 1) ∧ s'.phase = .removed ∧
          ∃ e ∈ s.log, c.removal e.1 = true) ∨
        (∃ n, s.phase = .waiting (n + 1) ∧ s'.phase = .waiting n) ∨
        (s.phase = .waiting 0 ∧ s'.phase = .idle)) := by
  simp only [step] at h
  split at h
  · rename_i n hphase
    split at h
    · rename_i hany
      cases h
      exact ⟨rfl, rfl, rfl, .inl ⟨n, hphase, rfl, List.any_eq_true.mp hany⟩⟩
    · cases h
      exact ⟨rfl, rfl, rfl, .inr (.inl ⟨n, hphase, rfl⟩)⟩
  · rename_i hphase
    cases h
    exact ⟨rfl, rfl, rfl, .inr (.inr ⟨hphase, rfl⟩)⟩
  · cases h

theorem step_stopNbdServer (h : step c s .stopNbdServer = some s') :
    s.phase = .removed ∧ s' = { s with phase := .idle } := by
  simp only [step] at h
  split at h
  · rename_i hphase
    cases h
    exact ⟨hphase, rfl⟩
  · cases h

theorem step_reportRemoval {k : Nat} {e : Event} (h : step c s (.reportRemoval k e) = some s') :
    k ∈ s.pending ∧ c.removal e = true ∧
      s' = { s with log := s.log ++ [(e, some k)], pending := s.pending.erase k } := by
  simp only [step] at h
  split at h
  · rename_i hk
    cases h
    exact ⟨hk.1, hk.2, rfl⟩
  · cases h

theorem step_arrive {e : Event} (h : step c s (.arrive e) = some s') :
    c.removal e = false ∧ s' = { s with log := s.log ++ [(e, none)] } := by
  simp only [step] at h
  split at h
  · cases h
  · rename_i he
    cases h
    exact ⟨Bool.eq_false_iff.mpr he, rfl⟩

end Steps

/-! ## Runs in which nothing is left of an earlier cycle -/

/-- When an export is removed, no removal has been reported and none is to come. -/
def Fresh (c : Config) (s : State) : Label → Prop
  | .removeNbdImage false => s.pending = [] ∧ ∀ e ∈ s.log, c.removal e.1 = false
  | _ => True

/-- Whatever a wait can find is the removal of its own cycle. -/
structure Own (c : Config) (s : State) : Prop where
  uid : s.phase = .exported → c.supported = true → s.exportUid ≠ none
  awaited : ∀ n, s.phase = .waiting n → (∀ k ∈ s.pending, k = s.cycle) ∧
    ∀ e ∈ s.log, c.removal e.1 = true → e.2 = some s.cycle
  received : Received c s

section Phases

variable {c : Config} {s : State}

/-- Nothing is claimed of an idle object. -/
theorem Own.of_idle (h : s.phase = .idle) : Own c s where
  uid := fun h' => nomatch h.symm.trans h'
  awaited := fun _ h' => nomatch h.symm.trans h'
  received := fun h' => nomatch h.symm.trans h'

theorem Own.of_exported (h : s.phase = .exported)
    (huid : c.supported = true → s.exportUid ≠ none) : Own c s where
  uid := fun _ => huid
  awaited := fun _ h' => nomatch h.symm.trans h'
  received := fun h' => nomatch h.symm.trans h'

theorem Own.of_waiting {n : Nat} (h : s.phase = .waiting n)
    (hpending : ∀ k ∈ s.pending, k = s.cycle)
    (hlog : ∀ e ∈ s.log, c.removal e.1 = true → e.2 = some s.cycle) : Own c s where
  uid := fun h' => nomatch h.symm.trans h'
  awaited := fun _ _ => ⟨hpending, hlog⟩
  received := fun h' => nomatch h.symm.trans h'

theorem Own.of_removed (h : s.phase = .removed)
    (hreceived : c.supported = true → ∃ e ∈ s.log, e.2 = some s.cycle) : Own c s where
  uid := fun h' => nomatch h.symm.trans h'
  awaited := fun _ h' => nomatch h.symm.trans h'
  received := fun _ => hreceived

end Phases

theorem own_remove {c : Config} {s s' : State} (hown : Own c s)
    (hfresh : Fresh c s (.removeNbdImage false))
    (h : step c s (.removeNbdImage false) = some s') : Own c s' := by
  obtain ⟨hphase, hcycle, hlog, ⟨hraises, -⟩ | ⟨-, hpending, hnext⟩⟩ := step_removeNbdImage h
  · cases hraises
  · obtain ⟨hnone, hclean⟩ := hfresh
    by_cases huid : s.exportUid = none
    · rw [if_pos huid] at hnext
      exact Own.of_removed hnext fun hsupported => absurd huid (hown.uid hphase hsupported)
    · rw [if_neg huid] at hnext
      apply Own.of_waiting hnext
      · intro k hk
        rw [hpending, hnone] at hk
        split at hk
        · rw [hcycle]
          exact List.mem_singleton.mp hk
        · cases hk
      · intro e he hremoval
        rw [hlog] at he
        exact absurd hremoval (Bool.eq_false_iff.mp (hclean e he))

theorem own_poll {c : Config} {s s' : State} (hown : Own c s) (h : step c s .poll = some s') :
    Own c s' := by
  obtain ⟨hcycle, hlog, hpending, ⟨n, hphase, hnext, e, he, hremoval⟩ | ⟨n, hphase, hnext⟩ |
    ⟨-, hnext⟩⟩ := step_poll h
  · apply Own.of_removed hnext
    intro _
    rw [hlog, hcycle]
    exact ⟨e, he, (hown.awaited _ hphase).2 e he hremoval⟩
  · obtain ⟨howned, hfound⟩ := hown.awaited _ hphase
    apply Own.of_waiting hnext
    · rw [hpending, hcycle]
      exact howned
    · rw [hlog, hcycle]
      exact hfound
  · exact Own.of_idle hnext

theorem own_reportRemoval {c : Config} {s s' : State} {k : Nat} {e : Event} (hown : Own c s)
    (h : step c s (.reportRemoval k e) = some s') : Own c s' := by
  obtain ⟨hk, -, rfl⟩ := step_reportRemoval h
  refine ⟨hown.uid, fun n hphase => ?_, fun hphase hsupported => ?_⟩
  · obtain ⟨hpending, hlog⟩ := hown.awaited n hphase
    refine ⟨fun j hj => hpending j (List.mem_of_mem_erase hj), fun e' he' hremoval => ?_⟩
    rcases List.mem_append.mp he' with hold | hnew
    · exact hlog e' hold hremoval
    · rw [List.mem_singleton.mp hnew, ← hpending k hk]
  · obtain ⟨e', he', hcause⟩ := hown.received hphase hsupported
    exact ⟨e', List.mem_append_left _ he', hcause⟩

theorem own_arrive {c : Config} {s s' : State} {e : Event} (hown : Own c s)
    (h : step c s (.arrive e) = some s') : Own c s' := by
  obtain ⟨hother, rfl⟩ := step_arrive h
  refine ⟨hown.uid, fun n hphase => ?_, fun hphase hsupported => ?_⟩
  · obtain ⟨hpending, hlog⟩ := hown.awaited n hphase
    refine ⟨hpending, fun e' he' hremoval => ?_⟩
    rcases List.mem_append.mp he' with hold | hnew
    · exact hlog e' hold hremoval
    · rw [List.mem_singleton.mp hnew, hother] at hremoval
      cases hremoval
  · obtain ⟨e', he', hcause⟩ := hown.received hphase hsupported
    exact ⟨e', List.mem_append_left _ he', hcause⟩

theorem own_step {c : Config} (s : State) (l : Label) (s' : State) (hown : Own c s)
    (hfresh : Fresh c s l) (h : step c s l = some s') : Own c s' := by
  cases l with
  | exportImage result =>
      obtain ⟨-, -, -, -, hidle | ⟨hexported, huid⟩⟩ := step_exportImage h
      · exact Own.of_idle hidle
      · apply Own.of_exported hexported
        intro hsupported
        rw [huid, if_pos hsupported]
        exact Option.some_ne_none _
  | removeNbdImage raises =>
      cases raises with
      | true =>
          obtain ⟨-, -, -, ⟨-, hidle, -⟩ | ⟨hraises, -⟩⟩ := step_removeNbdImage h
          · exact Own.of_idle hidle
          · cases hraises
      | false => exact own_remove hown hfresh h
  | poll => exact own_poll hown h
  | stopNbdServer =>
      obtain ⟨-, rfl⟩ := step_stopNbdServer h
      exact Own.of_idle rfl
  | reportRemoval k e => exact own_reportRemoval hown h
  | arrive e => exact own_arrive hown h

/-! ## Runs in which something is left -/

/-- The cycles whose removal has been reported or is to come. -/
def State.issued (s : State) : List Nat := s.pending ++ s.log.filterMap Prod.snd

/-- A command belongs to a cycle that has been exported before. -/
structure Earlier (c : Config) (s : State) : Prop where
  uid : s.phase = .exported → c.supported = true → s.exportUid ≠ none
  le : ∀ k ∈ s.issued, k ≤ s.cycle
  lt : s.phase = .exported → ∀ k ∈ s.issued, k < s.cycle

theorem Earlier.of_ne {c : Config} {s : State} (hphase : s.phase ≠ .exported)
    (hle : ∀ k ∈ s.issued, k ≤ s.cycle) : Earlier c s where
  uid := fun h => absurd h hphase
  le := hle
  lt := fun h => absurd h hphase

/-- The arrival of an event. -/
theorem Earlier.of_arrival {c : Config} {s : State} {log : List (Event × Option Nat)}
    {pending : List Nat} (hs : Earlier c s)
    (hissued : ∀ k ∈ State.issued { s with log := log, pending := pending }, k ∈ s.issued) :
    Earlier c { s with log := log, pending := pending } where
  uid := hs.uid
  le := fun k hk => hs.le k (hissued k hk)
  lt := fun h k hk => hs.lt h k (hissued k hk)

/-- A new cycle is behind all that has been issued. -/
theorem earlier_export {c : Config} {s s' : State} {result : ExportResult} (hs : Earlier c s)
    (h : step c s (.exportImage result) = some s') : Earlier c s' := by
  obtain ⟨-, hcycle, hlog, hpending, hphase⟩ := step_exportImage h
  have hissued : s'.issued = s.issued := by rw [State.issued, hlog, hpending, State.issued]
  have hlt : ∀ k ∈ s'.issued, k < s'.cycle := by
    intro k hk
    rw [hissued] at hk
    have hle := hs.le k hk
    omega
  refine ⟨fun hexported hsupported => ?_, fun k hk => Nat.le_of_lt (hlt k hk), fun _ => hlt⟩
  obtain hidle | ⟨-, huid⟩ := hphase
  · exact nomatch hidle.symm.trans hexported
  · rw [huid, if_pos hsupported]
    exact Option.some_ne_none _

/-- The command is one of the current cycle. -/
theorem earlier_remove {c : Config} {s s' : State} {raises : Bool} (hs : Earlier c s)
    (h : step c s (.removeNbdImage raises) = some s') : Earlier c s' := by
  obtain ⟨-, hcycle, hlog, ⟨-, hphase, hpending⟩ | ⟨-, hpending, hphase⟩⟩ :=
    step_removeNbdImage h
  · apply Earlier.of_ne (by simp [hphase])
    rw [State.issued, hlog, hpending, hcycle]
    exact hs.le
  · apply Earlier.of_ne (by rw [hphase]; split <;> simp)
    intro k hk
    rw [State.issued, hlog, hpending] at hk
    rw [hcycle]
    rcases List.mem_append.mp hk with hk | hk
    · split at hk
      · rcases List.mem_append.mp hk with hk | hk
        · exact hs.le k (List.mem_append_left _ hk)
        · exact Nat.le_of_eq (List.mem_singleton.mp hk)
      · exact hs.le k (List.mem_append_left _ hk)
    · exact hs.le k (List.mem_append_right _ hk)

theorem earlier_step {c : Config} (s : State) (l : Label) (s' : State) (hs : Earlier c s)
    (h : step c s l = some s') : Earlier c s' := by
  cases l with
  | exportImage result => exact earlier_export hs h
  | removeNbdImage raises => exact earlier_remove hs h
  | poll =>
      obtain ⟨hcycle, hlog, hpending, hphase⟩ := step_poll h
      apply Earlier.of_ne
      · obtain ⟨n, -, hnext, -⟩ | ⟨n, -, hnext⟩ | ⟨-, hnext⟩ := hphase <;> simp [hnext]
      · rw [State.issued, hlog, hpending, hcycle]
        exact hs.le
  | stopNbdServer =>
      obtain ⟨-, rfl⟩ := step_stopNbdServer h
      exact Earlier.of_ne (by simp) hs.le
  | reportRemoval k e =>
      obtain ⟨hk, -, rfl⟩ := step_reportRemoval h
      apply hs.of_arrival
      intro j hj
      rcases List.mem_append.mp hj with hj | hj
      · exact List.mem_append_left _ (List.mem_of_mem_erase hj)
      · rw [List.filterMap_append] at hj
        rcases List.mem_append.mp hj with hj | hj
        · exact List.mem_append_right _ hj
        · rw [List.mem_singleton.mp hj]
          exact List.mem_append_left _ hk
  | arrive e =>
      obtain ⟨-, rfl⟩ := step_arrive h
      apply hs.of_arrival
      intro j hj
      rw [State.issued, List.filterMap_append] at hj
      simpa [State.issued] using hj

/-- The event that reports the removal of an export. -/
def Config.deleted (c : Config) : Event where
  event := deletedEvent
  data := Dict.empty.set "id" c.exportUid

theorem Config.removal_deleted (c : Config) : c.removal c.deleted = true := by
  simp [Config.removal, selects, Config.deleted, Dict.set, Dict.setEntries, Dict.empty, Dict.get?]

/-- A wait that finds the removal of an earlier cycle returns at its first poll. -/
theorem returns_early {c : Config} {s : State} {n : Nat} (hphase : s.phase = .waiting (n + 1))
    (hsupported : c.supported = true) (hlog : ∃ e ∈ s.log, c.removal e.1 = true)
    (hearlier : ∀ e ∈ s.log, ∀ k, e.2 = some k → k < s.cycle) :
    ∃ t, step c s .poll = some t ∧ ¬Received c t := by
  refine ⟨{ s with phase := .removed, exportUid := none }, ?_, ?_⟩
  · simp only [step, hphase]
    rw [if_pos (List.any_eq_true.mpr hlog)]
  · intro hreceived
    obtain ⟨e, he, hcause⟩ := hreceived rfl hsupported
    exact Nat.lt_irrefl _ (hearlier e he _ hcause)

theorem returns_early_of_not_fresh {c : Config} {s : State} (hs : Earlier c s)
    (hphase : s.phase = .exported) (hsupported : c.supported = true) (htmo : 0 < c.tmo)
    (hleft : ¬Fresh c s (.removeNbdImage false)) :
    ∃ ls t, runSteps (step c) s (.removeNbdImage false :: ls) = some t ∧ ¬Received c t := by
  obtain ⟨n, htmo⟩ := Nat.exists_eq_add_one.mpr htmo
  let s₁ : State := { s with pending := s.pending ++ [s.cycle], phase := .waiting (n + 1) }
  have hremove : step c s (.removeNbdImage false) = some s₁ := by
    simp [step, hphase, hsupported, hs.uid hphase hsupported, htmo, s₁]
  have hearlier : ∀ e ∈ s.log, ∀ k, e.2 = some k → k < s.cycle := fun e he k hk =>
    hs.lt hphase k (List.mem_append_right _ (List.mem_filterMap.mpr ⟨e, he, hk⟩))
  by_cases hlog : ∃ e ∈ s.log, c.removal e.1 = true
  · obtain ⟨t, ht, hbad⟩ := returns_early (s := s₁) rfl hsupported hlog hearlier
    refine ⟨[.poll], t, ?_, hbad⟩
    rw [runSteps_cons hremove, runSteps_cons ht]
    rfl
  · -- The removal of an earlier cycle arrives during the wait.
    have hpending : s.pending ≠ [] := fun hnone =>
      hleft ⟨hnone, fun e he => Bool.eq_false_iff.mpr fun h => hlog ⟨e, he, h⟩⟩
    obtain ⟨k, hk⟩ := List.exists_mem_of_ne_nil _ hpending
    let s₂ : State := { s₁ with
      log := s.log ++ [(c.deleted, some k)], pending := s₁.pending.erase k }
    have hreport : step c s₁ (.reportRemoval k c.deleted) = some s₂ :=
      if_pos ⟨List.mem_append_left _ hk, c.removal_deleted⟩
    have hfound : ∃ e ∈ s₂.log, c.removal e.1 = true :=
      ⟨_, List.mem_append_right _ (List.mem_singleton.mpr rfl), c.removal_deleted⟩
    have hold : ∀ e ∈ s₂.log, ∀ j, e.2 = some j → j < s₂.cycle := by
      intro e he j hj
      rcases List.mem_append.mp he with he | he
      · exact hearlier e he j hj
      · rw [List.mem_singleton.mp he] at hj
        cases hj
        exact hs.lt hphase k (List.mem_append_left _ hk)
    obtain ⟨t, ht, hbad⟩ := returns_early (s := s₂) rfl hsupported hfound hold
    refine ⟨[.reportRemoval k c.deleted, .poll], t, ?_, hbad⟩
    rw [runSteps_cons hremove, runSteps_cons hreport, runSteps_cons ht]
    rfl

/-- The waits of a run report their own cycles if every export is removed while nothing is
left of an earlier removal. Where something is left, the wait can return too early. -/
theorem received_of_fresh_and_early_of_left (c : Config) :
    (∀ ls s, AllSteps (step c) (Fresh c) initial ls → runSteps (step c) initial ls = some s →
      Received c s) ∧
    ∀ ls s, runSteps (step c) initial ls = some s → s.phase = .exported →
      c.supported = true → 0 < c.tmo → ¬Fresh c s (.removeNbdImage false) →
      ∃ ms t, runSteps (step c) initial (ls ++ .removeNbdImage false :: ms) = some t ∧
        ¬Received c t := by
  constructor
  · intro ls s hfresh hrun
    exact (runSteps_invariant_of own_step (Own.of_idle rfl) hfresh hrun).received
  · intro ls s hrun hphase hsupported htmo hleft
    have hs : Earlier c s := runSteps_invariant earlier_step
      (Earlier.of_ne (by simp [initial]) (by simp [initial, State.issued])) hrun
    obtain ⟨ms, t, ht, hbad⟩ := returns_early_of_not_fresh hs hphase hsupported htmo hleft
    refine ⟨ms, t, ?_, hbad⟩
    rw [runSteps_append, hrun]
    exact ht

/-- The second cycle returns on the event of the first one. -/
theorem second_wait_returns_early :
    ¬∀ c ls s, runSteps (step c) initial ls = some s → Received c s := by
  intro h
  let c : Config := ⟨"block_export_drive_image1", 60, true⟩
  let first : List Label := [.exportImage .ok, .removeNbdImage false,
    .reportRemoval 1 c.deleted, .poll, .stopNbdServer]
  let second : List Label := [.exportImage .ok, .removeNbdImage false, .poll]
  let s : State := ⟨.removed, 2, none, [(c.deleted, some 1)], [2]⟩
  have hrun : runSteps (step c) initial (first ++ second) = some s := by rfl
  obtain ⟨e, he, hcause⟩ := h c _ s hrun rfl rfl
  rw [List.mem_singleton.mp he] at hcause
  cases hcause

end TpQemu.NbdExport

import TpQemu.Lib.Effects
import Mathlib.Data.List.Basic
import Mathlib.Logic.Function.Basic

/-!
# Binding the devices of an IOMMU group

`PFDevice` in `provider/hostdev/__init__.py` over a model of sysfs. A write to the files
`bind`, `unbind` and `driver_override` does what it says or raises `OSError`, in any
pattern. `config` binds the whole group to one driver; `restore` binds the whole group to
the driver the managed slot had before.
-/

namespace TpQemu.Hostdev

structure Sysfs where
  /-- The driver a slot is bound to. -/
  driver : String → Option String
  /-- The content of `driver_override`, if the file exists. -/
  override : String → Option String
  /-- The number of writes so far. -/
  writes : Nat

inductive HostDeviceError where
  /-- `Failed to set the driver override` -/
  | overrideFailed (slotId : String)
  /-- `Failed to assign the new ID` -/
  | newIdFailed (slotId driver : String)
  /-- `HostDeviceBindError` -/
  | bindError (slotId driver : String)
  /-- `refused to restore "driver_override" to empty string` -/
  | restoreRefused (slotId : String)

structure PFDevice where
  slotId : String
  driver : String
  originDriver : Option String

/-- The part of the constructor that the other methods use. -/
def PFDevice.init (slotId driver : String) (s : Sysfs) : PFDevice :=
  ⟨slotId, driver, s.driver slotId⟩

section Definitions

variable (fails : Nat → Bool)

/-- A write, which raises if its number is among the failing ones. -/
def write (e : HostDeviceError) (effect : Sysfs → Sysfs) : EStateM HostDeviceError Sysfs Unit :=
  fun s =>
    if fails s.writes then .error e { s with writes := s.writes + 1 }
    else .ok () { effect s with writes := s.writes + 1 }

def setDriver (slotId : String) (driver : Option String) (s : Sysfs) : Sysfs :=
  { s with driver := Function.update s.driver slotId driver }

def setOverride (slotId content : String) (s : Sysfs) : Sysfs :=
  { s with override := Function.update s.override slotId (some content) }

/-- `unbind_one`, which makes an exception object and does not raise it. -/
def unbindOne (slotId : String) : EStateM HostDeviceError Sysfs Unit := fun s =>
  match s.driver slotId with
  | none => .ok () s
  | some _ =>
      if fails s.writes then .ok () { s with writes := s.writes + 1 }
      else .ok () { setDriver slotId none s with writes := s.writes + 1 }

/-- The part of `bind_one` behind the check of the current driver. -/
def bindUnbound (slotId driver : String) : EStateM HostDeviceError Sysfs Unit := do
  let s ← get
  if (s.override slotId).isSome then
    write fails (.overrideFailed slotId) (setOverride slotId driver)
  else
    write fails (.newIdFailed slotId driver) id
  write fails (.bindError slotId driver) (setDriver slotId (some driver))
  let s ← get
  if (s.override slotId).isSome then
    -- The kernel takes the one NUL character for an empty string.
    write fails (.restoreRefused slotId) (setOverride slotId "")

def bindOne (slotId driver : String) : EStateM HostDeviceError Sysfs Unit := do
  let s ← get
  match s.driver slotId with
  | some currentDriver =>
      if currentDriver = driver then
        return
      unbindOne fails slotId
  | none => pure ()
  bindUnbound fails slotId driver

/-- `bind_all` on the devices of the IOMMU group. -/
def bindAll (driver : String) (group : List String) : EStateM HostDeviceError Sysfs Unit :=
  group.forM fun slotId => bindOne fails slotId driver

def PFDevice.config (dev : PFDevice) (group : List String) : EStateM HostDeviceError Sysfs Unit :=
  bindAll fails dev.driver group

def PFDevice.restore (dev : PFDevice) (group : List String) : EStateM HostDeviceError Sysfs Unit :=
  match dev.originDriver with
  | some driver => bindAll fails driver group
  | none => pure ()

end Definitions

/-! ## What the methods do when they return -/

section Methods

variable {fails : Nat → Bool} {slotId driver : String} {s s' : Sysfs}

theorem write_ok {e : HostDeviceError} {effect : Sysfs → Sysfs}
    (h : write fails e effect s = .ok () s') : s' = { effect s with writes := s.writes + 1 } := by
  rw [write] at h
  split at h
  · cases h
  · cases h
    rfl

/-- The slot is bound to the driver and its override is empty; nothing else changes. -/
structure Bound (slotId driver : String) (s s' : Sysfs) : Prop where
  driver : s'.driver = Function.update s.driver slotId (some driver)
  override : s'.override = Function.update s.override slotId ((s.override slotId).map fun _ => "")

theorem bindUnbound_ok (h : bindUnbound fails slotId driver s = .ok () s') :
    Bound slotId driver s s' := by
  obtain ⟨_, _, hget, h⟩ := ok_of_bind h
  cases hget
  cases hover : s.override slotId with
  | none =>
      simp only [hover, Option.isSome_none, Bool.false_eq_true, if_false] at h
      obtain ⟨_, s₁, h₁, h⟩ := ok_of_bind h
      obtain ⟨_, s₂, h₂, h⟩ := ok_of_bind h
      obtain ⟨_, _, hget, h⟩ := ok_of_bind h
      cases hget
      have e₁ := write_ok h₁
      have e₂ := write_ok h₂
      subst e₁ e₂
      simp only [setDriver, id, hover, Option.isSome_none, Bool.false_eq_true, if_false] at h
      cases h
      refine ⟨rfl, ?_⟩
      rw [hover, Option.map_none, ← hover, Function.update_eq_self]
  | some content =>
      simp only [hover, Option.isSome_some, if_true] at h
      obtain ⟨_, s₁, h₁, h⟩ := ok_of_bind h
      obtain ⟨_, s₂, h₂, h⟩ := ok_of_bind h
      obtain ⟨_, _, hget, h⟩ := ok_of_bind h
      cases hget
      have e₁ := write_ok h₁
      have e₂ := write_ok h₂
      subst e₁ e₂
      simp only [setDriver, setOverride, Function.update_self, Option.isSome_some, if_true] at h
      have e₃ := write_ok h
      subst e₃
      refine ⟨rfl, ?_⟩
      simp [setOverride, hover]

theorem unbindOne_ok (h : unbindOne fails slotId s = .ok () s') :
    s'.override = s.override ∧ ∀ d, d ≠ slotId → s'.driver d = s.driver d := by
  rw [unbindOne] at h
  split at h
  · cases h
    exact ⟨rfl, fun d _ => rfl⟩
  · split at h
    · cases h
      exact ⟨rfl, fun d _ => rfl⟩
    · cases h
      exact ⟨rfl, fun d hd => Function.update_of_ne hd _ _⟩

theorem bindOne_ok (h : bindOne fails slotId driver s = .ok () s') :
    s.driver slotId = some driver ∧ s' = s ∨
      s.driver slotId ≠ some driver ∧ Bound slotId driver s s' := by
  obtain ⟨_, _, hget, h⟩ := ok_of_bind h
  cases hget
  cases hcurrent : s.driver slotId with
  | none =>
      simp only [hcurrent] at h
      exact .inr ⟨by simp, bindUnbound_ok h⟩
  | some current =>
      simp only [hcurrent] at h
      by_cases hsame : current = driver
      · rw [if_pos hsame] at h
        cases h
        exact .inl ⟨by rw [hsame], rfl⟩
      · rw [if_neg hsame] at h
        obtain ⟨_, t, hunbind, h⟩ := ok_of_bind h
        obtain ⟨hoverride, hother⟩ := unbindOne_ok hunbind
        have hbound := bindUnbound_ok h
        refine .inr ⟨by simp [hsame], ?_, ?_⟩
        · rw [hbound.driver]
          funext d
          by_cases hd : d = slotId
          · simp [hd]
          · simp [hd, hother d hd]
        · rw [hbound.override, hoverride]

/-- What `bind_one` does to any slot. -/
theorem bindOne_apply (h : bindOne fails slotId driver s = .ok () s') (d : String) :
    (s'.driver d = if d = slotId then some driver else s.driver d) ∧
      s'.override d = if d = slotId ∧ s.driver d ≠ some driver
        then (s.override d).map fun _ => "" else s.override d := by
  obtain ⟨hsame, rfl⟩ | ⟨hother, hbound⟩ := bindOne_ok h
  · by_cases hd : d = slotId
    · simp [hd, hsame]
    · simp [hd]
  · rw [hbound.driver, hbound.override]
    by_cases hd : d = slotId
    · simp [hd, hother]
    · simp [hd]

/-- After `bind_all` the whole group is bound; the slots that were bound before are skipped
and keep their override. -/
theorem bindAll_apply {group : List String} (h : bindAll fails driver group s = .ok () s')
    (d : String) :
    (s'.driver d = if d ∈ group then some driver else s.driver d) ∧
      s'.override d = if d ∈ group ∧ s.driver d ≠ some driver
        then (s.override d).map fun _ => "" else s.override d := by
  induction group generalizing s with
  | nil =>
      cases h
      simp
  | cons slotId group ih =>
      obtain ⟨_, t, hone, hrest⟩ := ok_of_bind h
      obtain ⟨hdriver, hoverride⟩ := bindOne_apply hone d
      obtain ⟨hdriver', hoverride'⟩ := ih hrest
      rw [hdriver', hoverride', hdriver, hoverride]
      by_cases hd : d = slotId
      · simp [hd]
      · simp [hd]

end Methods

/-! ## Configuring and restoring -/

/-- The override is empty, or the kernel has none. -/
def EmptyOverride (s : Sysfs) (d : String) : Prop :=
  ∀ content, s.override d = some content → content = ""

/-- Every device of the group is as it was, with an empty override. -/
def Restored (group : List String) (s s' : Sysfs) : Prop :=
  ∀ d ∈ group, s'.driver d = s.driver d ∧ EmptyOverride s' d

theorem emptyOverride_of_map {s : Sysfs} {d : String} {o : Option String}
    (h : s.override d = o.map fun _ => "") : EmptyOverride s d := by
  intro content hcontent
  rw [h, Option.map_eq_some_iff] at hcontent
  obtain ⟨_, -, rfl⟩ := hcontent
  rfl

/-- The override of a device that is bound to a driver and then to the one it had before. -/
theorem emptyOverride_of_bindAll_iff {fails : Nat → Bool} {driver origin d : String}
    {group : List String} {s s₁ s₂ : Sysfs} (hbind : bindAll fails driver group s = .ok () s₁)
    (hback : bindAll fails origin group s₁ = .ok () s₂) (hd : d ∈ group)
    (hsame : s.driver d = some origin) :
    EmptyOverride s₂ d ↔ (origin = driver → EmptyOverride s d) := by
  have hbound : s₁.driver d = some driver := by rw [(bindAll_apply hbind d).1, if_pos hd]
  by_cases horigin : origin = driver
  · -- Both loops skip a device that already has the driver it is configured for.
    subst horigin
    have hkept : s₂.override d = s.override d := by
      rw [(bindAll_apply hback d).2, if_neg (fun hne => hne.2 hbound),
        (bindAll_apply hbind d).2, if_neg (fun hne => hne.2 hsame)]
    simp only [EmptyOverride, hkept, forall_const]
  · have hne : s₁.driver d ≠ some origin := by
      rw [hbound]
      exact fun heq => horigin (Option.some.inj heq).symm
    have hempty : EmptyOverride s₂ d := by
      apply emptyOverride_of_map (o := s₁.override d)
      rw [(bindAll_apply hback d).2, if_pos ⟨hd, hne⟩]
    exact ⟨fun _ heq => absurd heq horigin, fun _ => hempty⟩

/-- The group comes back exactly if all its devices had one and the same driver, and their
overrides were empty in case this is the driver they are configured for. -/
theorem restored_iff {fails : Nat → Bool} {slotId driver : String} {group : List String}
    {s s₁ s₂ : Sysfs} (hslot : slotId ∈ group)
    (hconfig : (PFDevice.init slotId driver s).config fails group s = .ok () s₁)
    (hrestore : (PFDevice.init slotId driver s).restore fails group s₁ = .ok () s₂) :
    Restored group s s₂ ↔ ∃ origin, ∀ d ∈ group, s.driver d = some origin ∧
      (origin = driver → EmptyOverride s d) := by
  have hbind : bindAll fails driver group s = .ok () s₁ := hconfig
  cases horigin : s.driver slotId with
  | none =>
      have hskip : s₂ = s₁ := by
        simp only [PFDevice.restore, PFDevice.init, horigin] at hrestore
        cases hrestore
        rfl
      subst hskip
      constructor
      · intro h
        have hsame := (h slotId hslot).1
        rw [(bindAll_apply hbind slotId).1, if_pos hslot, horigin] at hsame
        cases hsame
      · rintro ⟨origin, h⟩
        have hsome := (h slotId hslot).1
        rw [horigin] at hsome
        cases hsome
  | some origin =>
      simp only [PFDevice.restore, PFDevice.init, horigin] at hrestore
      have hdriver : ∀ d ∈ group, s₂.driver d = some origin := by
        intro d hd
        rw [(bindAll_apply hrestore d).1, if_pos hd]
      constructor
      · intro h
        refine ⟨origin, fun d hd => ?_⟩
        have hsame : s.driver d = some origin := by rw [← (h d hd).1, hdriver d hd]
        exact ⟨hsame, (emptyOverride_of_bindAll_iff hbind hrestore hd hsame).mp (h d hd).2⟩
      · rintro ⟨origin', h⟩ d hd
        have horigin' : origin' = origin := by
          have hslotId := (h slotId hslot).1
          rw [horigin] at hslotId
          exact (Option.some.inj hslotId).symm
        subst horigin'
        have hsame := (h d hd).1
        refine ⟨by rw [hdriver d hd, hsame], ?_⟩
        exact (emptyOverride_of_bindAll_iff hbind hrestore hd hsame).mpr (h d hd).2

/-- A group of two functions of one network card. -/
theorem restored_two_ports :
    let s : Sysfs := ⟨fun _ => some "igb", fun _ => some "", 0⟩
    let group := ["0000:01:00.0", "0000:01:00.1"]
    let dev := PFDevice.init "0000:01:00.0" "vfio-pci" s
    Restored group s
      (after (dev.restore (fun _ => false) group (after (dev.config (fun _ => false) group s)))) := by
  intro s group dev
  have hconfig : dev.config (fun _ => false) group s =
      .ok () (after (dev.config (fun _ => false) group s)) := rfl
  have hrestore : dev.restore (fun _ => false) group (after (dev.config (fun _ => false) group s)) =
      .ok () (after (dev.restore (fun _ => false) group
        (after (dev.config (fun _ => false) group s)))) := rfl
  apply (restored_iff List.mem_cons_self hconfig hrestore).mpr
  exact ⟨"igb", fun d _ => ⟨rfl, fun hsame => absurd hsame (by decide)⟩⟩

/-- The second device of the group had another driver. -/
theorem mixed_group_not_restored :
    ¬∀ fails slotId driver group s s₁ s₂, slotId ∈ group →
      (PFDevice.init slotId driver s).config fails group s = .ok () s₁ →
      (PFDevice.init slotId driver s).restore fails group s₁ = .ok () s₂ →
      Restored group s s₂ := by
  intro h
  let s : Sysfs := ⟨fun d => if d = "0000:01:00.1" then some "snd_hda_intel" else some "nouveau",
    fun _ => some "", 0⟩
  let group := ["0000:01:00.0", "0000:01:00.1"]
  let dev := PFDevice.init "0000:01:00.0" "vfio-pci" s
  let s₁ := after (dev.config (fun _ => false) group s)
  have hrestored := h (fun _ => false) "0000:01:00.0" "vfio-pci" group s s₁
    (after (dev.restore (fun _ => false) group s₁)) List.mem_cons_self rfl rfl
  have hdriver : some "nouveau" = some "snd_hda_intel" :=
    (hrestored "0000:01:00.1" (List.mem_cons_of_mem _ List.mem_cons_self)).1
  exact absurd hdriver (by decide)

end TpQemu.Hostdev

import TpQemu.Hostdev.Binding

/-!
# Setting up the host devices

`hostdev_setup` in `provider/hostdev/dev_setup.py`, over any way `config_hostdev`, the body
of the `with` statement and `restore` can act on the host and raise. The loop that
configures the devices stands before the `try`, and the loop that restores them stops at
the first `restore` that raises.
-/

namespace TpQemu.Hostdev

variable {ε σ Slot Dev : Type}

/-- What happens on the host. -/
structure Host (ε σ Slot Dev : Type) where
  /-- `(PCI_DEV_PATH / slot).exists()` -/
  present : σ → Slot → Bool
  configHostdev : Slot → EStateM ε σ Dev
  body : EStateM ε σ Unit
  restore : Dev → EStateM ε σ Unit

/-- The host and the calls of one `hostdev_setup`. -/
structure Calls (σ Dev : Type) where
  world : σ
  /-- `host_devs`: the devices whose configuration has completed. -/
  configured : List Dev
  /-- The devices `restore()` has been called on. -/
  restored : List Dev

/-- Code that acts on the host. -/
def onHost {α : Type} (m : EStateM ε σ α) : EStateM ε (Calls σ Dev) α := fun c =>
  match m c.world with
  | .ok a w => .ok a { c with world := w }
  | .error e w => .error e { c with world := w }

section Definitions

variable (host : Host ε σ Slot Dev)

/-- One slot of the set-up loop. -/
def setUpOne (slot : Slot) : EStateM ε (Calls σ Dev) Unit := do
  let c ← get
  if host.present c.world slot then
    let dev ← onHost (host.configHostdev slot)
    modify fun c => { c with configured := c.configured ++ [dev] }

def setUp (slots : List Slot) : EStateM ε (Calls σ Dev) Unit := slots.forM (setUpOne host)

/-- The call is counted before it can raise. -/
def restoreOne (dev : Dev) : EStateM ε (Calls σ Dev) Unit := do
  modify fun c => { c with restored := c.restored ++ [dev] }
  onHost (host.restore dev)

def cleanUp (devs : List Dev) : EStateM ε (Calls σ Dev) Unit := devs.forM (restoreOne host)

def hostdevSetup (slots : List Slot) : EStateM ε (Calls σ Dev) Unit := fun c =>
  match setUp host slots c with
  | .error e c => .error e c
  | .ok _ c =>
      match onHost host.body c with
      | .ok _ c => cleanUp host c.configured.reverse c
      | .error e c =>
          match cleanUp host c.configured.reverse c with
          | .ok _ c => .error e c
          | .error e' c => .error e' c

/-- `restore()` has been called once on each device configured, the last one first. -/
def AllRestored (slots : List Slot) (w : σ) : Prop :=
  let c := after (hostdevSetup host slots ⟨w, [], []⟩)
  c.restored = c.configured.reverse

/-- A configuration raises only if none has completed before. -/
def ConfigClean : List Slot → Bool → σ → Prop
  | [], _, _ => True
  | slot :: slots, completed, w =>
      if host.present w slot then
        match host.configHostdev slot w with
        | .ok _ w' => ConfigClean slots true w'
        | .error _ _ => completed = false
      else ConfigClean slots completed w

/-- Only the last of the devices may raise when they are restored in this order. -/
def RestoreClean : List Dev → σ → Prop
  | dev :: dev' :: devs, w => ∃ w', host.restore dev w = .ok () w' ∧ RestoreClean (dev' :: devs) w'
  | _, _ => True

end Definitions

variable {host : Host ε σ Slot Dev}

/-! ## The two loops -/

theorem setUpOne_absent {slot : Slot} {c : Calls σ Dev} (h : host.present c.world slot = false) :
    setUpOne host slot c = .ok () c := by
  unfold setUpOne
  rw [bind_of_ok (rfl : (get : EStateM ε (Calls σ Dev) _) c = .ok c c), h]
  rfl

theorem setUpOne_ok {slot : Slot} {c : Calls σ Dev} {dev : Dev} {w : σ}
    (h : host.present c.world slot = true) (hdev : host.configHostdev slot c.world = .ok dev w) :
    setUpOne host slot c =
      .ok () { c with world := w, configured := c.configured ++ [dev] } := by
  unfold setUpOne
  have hhost : onHost (host.configHostdev slot) c = .ok dev { c with world := w } := by
    rw [onHost, hdev]
  rw [bind_of_ok (rfl : (get : EStateM ε (Calls σ Dev) _) c = .ok c c), if_pos h, bind_of_ok hhost]
  rfl

theorem setUpOne_error {slot : Slot} {c : Calls σ Dev} {e : ε} {w : σ}
    (h : host.present c.world slot = true) (hdev : host.configHostdev slot c.world = .error e w) :
    setUpOne host slot c = .error e { c with world := w } := by
  unfold setUpOne
  rw [bind_of_ok (rfl : (get : EStateM ε (Calls σ Dev) _) c = .ok c c), if_pos h]
  apply bind_of_error
  rw [onHost, hdev]

/-- The set-up loop restores nothing; if it raises, the devices configured so far are left. -/
theorem setUp_cases (host : Host ε σ Slot Dev) (slots : List Slot) (c : Calls σ Dev) :
    (∃ c', setUp host slots c = .ok () c' ∧ c'.restored = c.restored ∧
      ConfigClean host slots (!c.configured.isEmpty) c.world) ∨
    ∃ e c', setUp host slots c = .error e c' ∧ c'.restored = c.restored ∧
      (ConfigClean host slots (!c.configured.isEmpty) c.world ↔ c'.configured = []) := by
  induction slots generalizing c with
  | nil => exact .inl ⟨c, rfl, rfl, trivial⟩
  | cons slot slots ih =>
      cases hpresent : host.present c.world slot with
      | false =>
          have hskip : setUp host (slot :: slots) c = setUp host slots c :=
            bind_of_ok (setUpOne_absent hpresent) _
          simpa only [hskip, ConfigClean, hpresent, Bool.false_eq_true, if_false] using ih c
      | true =>
          cases hdev : host.configHostdev slot c.world with
          | ok dev w =>
              have hnext : setUp host (slot :: slots) c = setUp host slots _ :=
                bind_of_ok (setUpOne_ok hpresent hdev) _
              have hsome : (!(c.configured ++ [dev]).isEmpty) = true := by simp
              have hrest := ih { c with world := w, configured := c.configured ++ [dev] }
              rw [hsome] at hrest
              simpa only [hnext, ConfigClean, hpresent, hdev, if_true] using hrest
          | error e w =>
              have hstop : setUp host (slot :: slots) c = .error e { c with world := w } :=
                bind_of_error (setUpOne_error hpresent hdev) _
              refine .inr ⟨e, _, hstop, rfl, ?_⟩
              simp [ConfigClean, hpresent, hdev]

theorem restoreOne_eq (dev : Dev) (c : Calls σ Dev) :
    restoreOne host dev c =
      onHost (host.restore dev) { c with restored := c.restored ++ [dev] } := rfl

/-- The clean-up loop reaches every device exactly if only the last one may raise. -/
theorem cleanUp_spec (host : Host ε σ Slot Dev) (devs : List Dev) (c : Calls σ Dev) :
    (after (cleanUp host devs c)).configured = c.configured ∧
      ((after (cleanUp host devs c)).restored = c.restored ++ devs ↔
        RestoreClean host devs c.world) := by
  induction devs generalizing c with
  | nil => exact ⟨rfl, fun _ => trivial, fun _ => (List.append_nil _).symm⟩
  | cons dev devs ih =>
      cases hdev : host.restore dev c.world with
      | ok u w =>
          have hnext : cleanUp host (dev :: devs) c = cleanUp host devs
              { c with world := w, restored := c.restored ++ [dev] } := by
            apply bind_of_ok
            rw [restoreOne_eq, onHost, hdev]
          obtain ⟨hconfigured, hrestored⟩ :=
            ih { c with world := w, restored := c.restored ++ [dev] }
          have hclean : RestoreClean host devs w ↔ RestoreClean host (dev :: devs) c.world := by
            cases devs with
            | nil => exact Iff.rfl
            | cons dev' devs => simp [RestoreClean, hdev]
          rw [hnext]
          refine ⟨hconfigured, Iff.trans ?_ hclean⟩
          simpa using hrestored
      | error e w =>
          have hstop : cleanUp host (dev :: devs) c =
              .error e { c with world := w, restored := c.restored ++ [dev] } := by
            apply bind_of_error
            rw [restoreOne_eq, onHost, hdev]
          rw [hstop]
          refine ⟨rfl, ?_⟩
          cases devs with
          | nil => simp [RestoreClean]
          | cons dev' devs => simp [RestoreClean, hdev]

/-! ## All or nothing -/

/-- The result of the body does not change what the clean-up loop does. -/
theorem after_hostdevSetup_of_ok {slots : List Slot} {c c' : Calls σ Dev}
    (h : setUp host slots c = .ok () c') :
    after (hostdevSetup host slots c) = after (cleanUp host c'.configured.reverse
      { c' with world := after (host.body c'.world) }) := by
  rw [hostdevSetup, h]
  dsimp only
  cases hbody : host.body c'.world with
  | ok u w =>
      have hon : onHost host.body c' = .ok u { c' with world := w } := by rw [onHost, hbody]
      rw [hon]
      rfl
  | error e w =>
      have hon : onHost host.body c' = .error e { c' with world := w } := by rw [onHost, hbody]
      rw [hon]
      dsimp only [after]
      cases cleanUp host c'.configured.reverse { c' with world := w } with
      | ok u c'' => rfl
      | error e' c'' => rfl

/-- Every configured device is restored exactly if no configuration raises once a device is
configured, and no `restore` raises but that of the device configured first. -/
theorem allRestored_iff (host : Host ε σ Slot Dev) (slots : List Slot) (w : σ) :
    AllRestored host slots w ↔
      ConfigClean host slots false w ∧
        ∀ c, setUp host slots ⟨w, [], []⟩ = .ok () c →
          RestoreClean host c.configured.reverse (after (host.body c.world)) := by
  obtain ⟨c, hok, hrestored, hclean⟩ | ⟨e, c, herror, hrestored, hclean⟩ :=
    setUp_cases host slots ⟨w, [], []⟩
  · obtain ⟨hconfigured, hspec⟩ := cleanUp_spec host c.configured.reverse
      { c with world := after (host.body c.world) }
    have hall : AllRestored host slots w ↔
        RestoreClean host c.configured.reverse (after (host.body c.world)) := by
      rw [← hspec, AllRestored, after_hostdevSetup_of_ok hok, hconfigured, hrestored]
      rfl
    rw [hall]
    refine ⟨fun h => ⟨hclean, fun c' hc' => ?_⟩, fun h => h.2 c hok⟩
    rw [hok] at hc'
    cases hc'
    exact h
  · have hall : AllRestored host slots w ↔ c.configured = [] := by
      rw [AllRestored, hostdevSetup, herror]
      dsimp only [after]
      rw [hrestored, eq_comm, List.reverse_eq_nil_iff]
    rw [hall, ← hclean]
    refine ⟨fun h => ⟨h, fun c' hc' => ?_⟩, fun h => h.1⟩
    rw [herror] at hc'
    cases hc'

/-- Physical functions, each alone in its IOMMU group. -/
def pfHost (fails : Nat → Bool) (driver : String) :
    Host HostDeviceError Sysfs String PFDevice where
  present := fun _ _ => true
  configHostdev := fun slot => do
    let s ← get
    let dev := PFDevice.init slot driver s
    dev.config fails [slot]
    return dev
  body := pure ()
  restore := fun dev => dev.restore fails [dev.slotId]

/-- The second slot cannot be bound, and the first one stays configured. -/
theorem second_slot_raises_without_restore :
    ¬∀ (host : Host HostDeviceError Sysfs String PFDevice) slots w, AllRestored host slots w := by
  intro h
  have hall := h (pfHost (fun n => n = 6) "vfio-pci") ["0000:01:00.0", "0000:02:00.0"]
    ⟨fun _ => some "igb", fun _ => some "", 0⟩
  have hlength : 0 = 1 := congrArg List.length hall
  cases hlength

end TpQemu.Hostdev

import Mathlib.Data.List.ReduceOption
import TpQemu.Lib.HashSet
import TpQemu.Lib.Python

/-!
# Choosing a host disk

`auto_select_disk` and `choose_fastest_disk` in `qemu/tests/block_performance_test.py`, over the
trees of devices that `lsblk` reports. The chosen disk is formatted by `process_selected_disk` and
wiped after the test.
-/

namespace TpQemu.BlockPerformance

/-- A device in the output of `lsblk -O -J`. -/
structure Device where
  name : String
  type : String
  fstype : Option String
  mountpoint : Option String
  size : Int
  children : Option (List Device)

namespace Device

variable (d : Device)

/-- `d.get("mountpoint")` is true. -/
def mounted : Bool := d.mountpoint.any (· ≠ "")

/-- `d.get("children")` as a list, which is true if it is not empty. -/
def childList : List Device := d.children.getD []

/-- A device further down in the tree. -/
inductive Below : Device → Device → Prop where
  | child {d c : Device} (h : c ∈ d.childList) : Below d c
  | deeper {d c e : Device} (h : c ∈ d.childList) (hbelow : Below c e) : Below d e

def MountedBelow : Prop := ∃ e, Below d e ∧ e.mounted = true

/-- Neither the device nor any device below it has a mountpoint. -/
def Unused : Prop := d.mounted = false ∧ ¬ d.MountedBelow

theorem below_iff {d e : Device} :
    d.Below e ↔ e ∈ d.childList ∨ ∃ c ∈ d.childList, c.Below e := by
  constructor
  · intro h
    cases h with
    | child hc => exact .inl hc
    | deeper hc hbelow => exact .inr ⟨_, hc, hbelow⟩
  · rintro (hc | ⟨c, hc, hbelow⟩)
    · exact .child hc
    · exact .deeper hc hbelow

theorem not_below_of_childList {d : Device} (h : d.childList = []) (e : Device) : ¬ d.Below e := by
  rw [below_iff, h]
  simp

theorem not_mountedBelow_of_childList (h : d.childList = []) : ¬ d.MountedBelow := by
  rintro ⟨e, hbelow, -⟩
  exact not_below_of_childList h e hbelow

end Device

/-- The devices of the host. A device may be reported below several others, and then with the same
devices below it. -/
structure Forest where
  blockdevices : List Device
  coherent : ∀ disk ∈ blockdevices, ∀ disk' ∈ blockdevices, ∀ d d',
    d = disk ∨ disk.Below d → d' = disk' ∨ disk'.Below d' → d.name = d'.name → d = d'

structure Params where
  selectDiskRequest : String
  selectDiskName : String
  selectDiskMinimumSize : Int
  hostTestFile : String

/-- What the commands on the host print. -/
structure Host where
  forest : Forest
  /-- `lsblk` for the named disk, if it succeeds. -/
  named : Option (List Device)
  wipefs : String → String
  /-- `get_disk_iops` -/
  iops : String → Except PyError Int
  order : SetOrder String

/-- What ends the function early. -/
inductive Raised where
  | cancel (msg : String)
  | python (e : PyError)

/-- The disk that `process_selected_disk` is called with, and on which path. -/
inductive Selected where
  | named (disk : String)
  | automatic (disk : String)

section Definitions

variable (p : Params) (h : Host)

def Params.sizeReq : Int := 1024 * 1024 * 1024 * p.selectDiskMinimumSize

/-- The named disk is taken. -/
def takeNamed (named : Option (List Device)) : Except Raised Bool :=
  if p.selectDiskName = "" then .ok false
  else
    match named with
    | some (disk :: _) =>
        if disk.fstype = some "mpath_member" then
          .error (.cancel "Please use mpath instead of raw device")
        else if disk.mounted ∨ (disk.childList ≠ [] ∧ disk.type ≠ "mpath") then .ok false
        else .ok true
    | _ => .ok false

/-- The reasons to continue with the next disk. -/
def Skipped (wipefs : String → String) (disk : Device) : Prop :=
  (disk.type ≠ "disk" ∧ disk.type ≠ "mpath") ∨ disk.mounted = true ∨ disk.size < p.sizeReq ∨
    (disk.childList ≠ [] ∧ disk.fstype ≠ some "mpath_member") ∨ wipefs disk.name ≠ ""

instance (wipefs : String → String) (disk : Device) : Decidable (Skipped p wipefs disk) :=
  inferInstanceAs (Decidable (_ ∨ _ ∨ _ ∨ (disk.childList ≠ [] ∧ _) ∨ _))

/-- The name that the loop over the disks adds for a disk. -/
def candidate (wipefs : String → String) (disk : Device) : Except PyError (Option String) :=
  if Skipped p wipefs disk then .ok none
  else if disk.type = "disk" ∧ disk.fstype = some "mpath_member" then
    match disk.children with
    | none => .error .typeError
    | some [mpath] => .ok (if mpath.mounted then none else some mpath.name)
    | some _ => .ok none
  else .ok (some disk.name)

/-- One disk in the loop of `choose_fastest_disk`. -/
def faster (iops : String → Except PyError Int) (best : Int × String) (disk : String) :
    Except PyError (Int × String) := do
  let speed ← iops disk
  return if best.1 < speed then (speed, disk) else best

/-- `choose_fastest_disk` -/
def chooseFastestDisk (iops : String → Except PyError Int) (disks : List String) :
    Except PyError String :=
  match disks with
  | [] => .error .indexError
  | [disk] => .ok disk
  | first :: _ => Prod.snd <$> disks.foldlM (faster iops) (0, first)

/-- The automatic path. -/
def chooseDisk : Except PyError (Option String) := do
  let found ← h.forest.blockdevices.mapM (candidate p h.wipefs)
  let disks := found.reduceOption
  if disks = [] then return none
  let disk ← chooseFastestDisk h.iops (h.order.list (disks ++ [p.hostTestFile]).toFinset)
  return if disk ≠ p.hostTestFile then some disk else none

/-- `auto_select_disk` -/
def autoSelectDisk : Except Raised (Option Selected) :=
  if p.selectDiskRequest ≠ "yes" then .ok none
  else
    match takeNamed p h.named with
    | .error e => .error e
    | .ok true => .ok (some (.named p.selectDiskName))
    | .ok false =>
        match chooseDisk p h with
        | .error e => .error (.python e)
        | .ok disk => .ok (disk.map .automatic)

end Definitions

/-! ## Which disks are taken -/

section Safety

variable (p : Params)

/-- The disk of a call is unused in the report it is taken from, and on the automatic path it is
a large enough disk or sits on one. -/
def Safe (h : Host) : Selected → Prop
  | .named _ => ∀ disk rest, h.named = some (disk :: rest) → disk.Unused
  | .automatic name =>
      (∀ disk ∈ h.forest.blockdevices, ∀ d, d = disk ∨ disk.Below d → d.name = name → d.Unused) ∧
        ∃ disk ∈ h.forest.blockdevices, p.sizeReq ≤ disk.size ∧
          (disk.name = name ∨ ∃ d ∈ disk.childList, d.name = name)

/-- The multipath device that is taken for a disk. -/
def mpathOf (disk : Device) : Option Device :=
  if disk.fstype ≠ some "mpath_member" then none
  else if disk.type = "mpath" then some disk
  else if disk.type = "disk" then
    match disk.children with
    | some [mpath] => if mpath.mounted then none else some mpath
    | _ => none
  else none

/-- No device is mounted below a multipath device that may be taken. -/
def MpathsUnused (forest : Forest) : Prop :=
  ∀ disk ∈ forest.blockdevices, disk.mounted = false → p.sizeReq ≤ disk.size →
    ∀ mpath, mpathOf disk = some mpath → mpath.name ≠ p.hostTestFile → ¬ mpath.MountedBelow

/-- The same of the named disk, if it is taken. -/
def Spared (forest : Forest) (named : Option (List Device)) : Prop :=
  p.selectDiskRequest = "yes" →
    match takeNamed p named with
    | .error _ => True
    | .ok true => ∀ disk rest, named = some (disk :: rest) → ¬ disk.MountedBelow
    | .ok false => MpathsUnused p forest

variable {p} {wipefs : String → String} {disk : Device}

theorem of_mpathOf_eq_some {mpath : Device} (hdisk : disk.mounted = false)
    (h : mpathOf disk = some mpath) :
    mpath.mounted = false ∧ (mpath = disk ∨ mpath ∈ disk.childList) := by
  rw [mpathOf] at h
  split_ifs at h with hfstype htype htype'
  · cases h
    exact ⟨hdisk, .inl rfl⟩
  · split at h
    next only hchildren =>
      split_ifs at h with hmounted
      cases h
      refine ⟨Bool.eq_false_iff.mpr hmounted, .inr ?_⟩
      rw [Device.childList, hchildren]
      exact List.mem_singleton_self _
    next => cases h

/-- What is added for a disk is its multipath device or, if nothing is below it, the disk. -/
theorem of_candidate_eq_some {name : String} (h : candidate p wipefs disk = .ok (some name)) :
    disk.mounted = false ∧ p.sizeReq ≤ disk.size ∧
      ∃ d : Device, d.name = name ∧ (mpathOf disk = some d ∨ d = disk ∧ disk.childList = []) := by
  rw [candidate] at h
  by_cases hskipped : Skipped p wipefs disk
  · rw [if_pos hskipped] at h
    cases h
  rw [if_neg hskipped] at h
  simp only [Skipped, not_or, not_and_or, not_not, not_lt, Bool.not_eq_true] at hskipped
  obtain ⟨htype, hmounted, hsize, hempty, -⟩ := hskipped
  refine ⟨hmounted, hsize, ?_⟩
  split_ifs at h with hmember
  · split at h
    next => cases h
    next mpath hchildren =>
      split_ifs at h with hchild
      · cases h
      · cases h
        refine ⟨mpath, rfl, .inl ?_⟩
        simp [mpathOf, hmember.1, hmember.2, hchildren, hchild]
    next => cases h
  · cases h
    refine ⟨disk, rfl, ?_⟩
    by_cases hfstype : disk.fstype = some "mpath_member"
    · have hmpath : disk.type = "mpath" :=
        htype.resolve_left fun hdisk => hmember ⟨hdisk, hfstype⟩
      exact .inl (by simp [mpathOf, hfstype, hmpath])
    · exact .inr ⟨rfl, hempty.resolve_right hfstype⟩

theorem candidate_of_mpathOf {mpath : Device} (hmounted : disk.mounted = false)
    (hsize : p.sizeReq ≤ disk.size) (hwipefs : wipefs disk.name = "")
    (h : mpathOf disk = some mpath) : candidate p wipefs disk = .ok (some mpath.name) := by
  rw [mpathOf] at h
  split_ifs at h with hfstype htype htype'
  · cases h
    have hskipped : ¬ Skipped p wipefs disk := by
      simp [Skipped, htype, hmounted, hsize, hwipefs, not_not.mp hfstype]
    rw [candidate, if_neg hskipped, if_neg (by simp [htype])]
  · have hskipped : ¬ Skipped p wipefs disk := by
      simp [Skipped, htype', hmounted, hsize, hwipefs, not_not.mp hfstype]
    rw [candidate, if_neg hskipped, if_pos ⟨htype', not_not.mp hfstype⟩]
    split at h
    next only hchildren =>
      split_ifs at h with hchild
      cases h
      simp [hchildren, hchild]
    next => cases h

theorem candidate_of_wipefs (h : wipefs disk.name ≠ "") : candidate p wipefs disk = .ok none :=
  if_pos (.inr (.inr (.inr (.inr h))))

end Safety

/-! ## The fastest disk -/

section Fastest

variable {iops : String → Except PyError Int}

theorem faster_mem {best best' : Int × String} {disks l : List String}
    (hbest : best.2 ∈ disks) (hl : l ⊆ disks) (h : l.foldlM (faster iops) best = .ok best') :
    best'.2 ∈ disks := by
  induction l generalizing best with
  | nil =>
      cases h
      exact hbest
  | cons disk l ih =>
      obtain ⟨hdisk, hl⟩ := List.cons_subset.mp hl
      rw [List.foldlM_cons] at h
      obtain ⟨next, hnext, h⟩ := ok_of_bind_eq_ok h
      obtain ⟨speed, -, hnext⟩ := ok_of_bind_eq_ok hnext
      refine ih ?_ hl h
      cases hnext
      split_ifs
      · exact hdisk
      · exact hbest

theorem chooseFastestDisk_mem {disks : List String} {disk : String}
    (h : chooseFastestDisk iops disks = .ok disk) : disk ∈ disks := by
  rw [chooseFastestDisk.eq_def] at h
  split at h
  next => cases h
  next only =>
    cases h
    exact List.mem_singleton_self _
  next first rest _ =>
    obtain ⟨best, hbest, rfl⟩ := ok_of_map_eq_ok h
    exact faster_mem List.mem_cons_self (List.Subset.refl _) hbest

/-- One disk is fast. -/
def onlyFast (disk : String) : String → Except PyError Int :=
  fun name => .ok (if name = disk then 1 else 0)

theorem foldlM_onlyFast_found (disk : String) (l : List String) :
    l.foldlM (faster (onlyFast disk)) (1, disk) = .ok (1, disk) := by
  induction l with
  | nil => rfl
  | cons name l ih =>
      have hstep : faster (onlyFast disk) (1, disk) name = .ok (1, disk) := by
        by_cases hname : name = disk
        · simp [faster, onlyFast, hname]
        · simp [faster, onlyFast, hname]
      rw [List.foldlM_cons, bind_of_eq_ok hstep, ih]

theorem foldlM_onlyFast {disk : String} {l : List String} (h : disk ∈ l) (first : String) :
    l.foldlM (faster (onlyFast disk)) (0, first) = .ok (1, disk) := by
  induction l with
  | nil => exact absurd h List.not_mem_nil
  | cons name l ih =>
      by_cases hname : name = disk
      · have hstep : faster (onlyFast disk) (0, first) name = .ok (1, disk) := by
          simp [faster, onlyFast, hname]
        rw [List.foldlM_cons, bind_of_eq_ok hstep, foldlM_onlyFast_found]
      · have hstep : faster (onlyFast disk) (0, first) name = .ok (0, first) := by
          simp [faster, onlyFast, hname]
        have hrest : disk ∈ l := (List.mem_cons.mp h).resolve_left fun heq => hname heq.symm
        rw [List.foldlM_cons, bind_of_eq_ok hstep, ih hrest]

theorem chooseFastestDisk_onlyFast {disk : String} {disks : List String} (h : disk ∈ disks) :
    chooseFastestDisk (onlyFast disk) disks = .ok disk := by
  rw [chooseFastestDisk.eq_def]
  split
  next => exact absurd h List.not_mem_nil
  next only => rw [List.mem_singleton.mp h]
  next first rest _ =>
    rw [foldlM_onlyFast h]
    rfl

end Fastest

/-! ## The automatic path -/

section Automatic

variable {p : Params} {h : Host} {name : String}

theorem Forest.eq_of_name (forest : Forest) {disk disk' d d' : Device}
    (hdisk : disk ∈ forest.blockdevices) (hdisk' : disk' ∈ forest.blockdevices)
    (hd : d = disk ∨ d ∈ disk.childList) (hd' : d' = disk' ∨ disk'.Below d')
    (hname : d.name = d'.name) : d = d' :=
  forest.coherent disk hdisk disk' hdisk' d d' (hd.imp_right .child) hd' hname

/-- The disk that is chosen was added for some disk. -/
theorem exists_candidate_of_chooseDisk (hchoose : chooseDisk p h = .ok (some name)) :
    name ≠ p.hostTestFile ∧
      ∃ disk ∈ h.forest.blockdevices, candidate p h.wipefs disk = .ok (some name) := by
  rw [chooseDisk] at hchoose
  obtain ⟨found, hfound, hchoose⟩ := ok_of_bind_eq_ok hchoose
  dsimp only at hchoose
  split at hchoose
  next => cases hchoose
  next =>
    obtain ⟨disk, hdisk, hchoose⟩ := ok_of_bind_eq_ok hchoose
    have hmem := chooseFastestDisk_mem hdisk
    rw [h.order.mem_iff, List.mem_toFinset, List.mem_append, List.mem_singleton,
      List.reduceOption_mem_iff] at hmem
    split_ifs at hchoose with hhost
    · cases hchoose
      exact ⟨hhost, exists_of_mem_mapM hfound (hmem.resolve_right hhost)⟩
    · cases hchoose

theorem safe_of_chooseDisk (hunused : MpathsUnused p h.forest)
    (hchoose : chooseDisk p h = .ok (some name)) : Safe p h (.automatic name) := by
  obtain ⟨hhost, disk, hdisk, hcandidate⟩ := exists_candidate_of_chooseDisk hchoose
  obtain ⟨hmounted, hsize, d, rfl, hd⟩ := of_candidate_eq_some hcandidate
  have hplace : d.Unused ∧ (d = disk ∨ d ∈ disk.childList) := by
    rcases hd with hmpath | ⟨rfl, hempty⟩
    · obtain ⟨hfree, hplace⟩ := of_mpathOf_eq_some hmounted hmpath
      exact ⟨⟨hfree, hunused disk hdisk hmounted hsize d hmpath hhost⟩, hplace⟩
    · exact ⟨⟨hmounted, d.not_mountedBelow_of_childList hempty⟩, .inl rfl⟩
  constructor
  · intro disk' hdisk' d' hd' hname
    rw [← h.forest.eq_of_name hdisk hdisk' hplace.2 hd' hname.symm]
    exact hplace.1
  · refine ⟨disk, hdisk, hsize, ?_⟩
    rcases hplace.2 with rfl | hchild
    · exact .inl rfl
    · exact .inr ⟨d, hchild, rfl⟩

/-- Only one disk is without a signature. -/
def onlyClean (disk : String) : String → String := fun name => if name = disk then "" else "LVM2"

/-- Every multipath device that may be taken is taken on some host. -/
theorem chooseDisk_onlyClean {forest : Forest} (named : Option (List Device))
    (order : SetOrder String) {disk mpath : Device} (hdisk : disk ∈ forest.blockdevices)
    (hmounted : disk.mounted = false) (hsize : p.sizeReq ≤ disk.size)
    (hmpath : mpathOf disk = some mpath) (hhost : mpath.name ≠ p.hostTestFile) :
    chooseDisk p ⟨forest, named, onlyClean disk.name, onlyFast mpath.name, order⟩ =
      .ok (some mpath.name) := by
  have hfound : forest.blockdevices.mapM (candidate p (onlyClean disk.name)) =
      .ok (forest.blockdevices.map fun d =>
        if d.name = disk.name then some mpath.name else none) := by
    refine mapM_eq_map fun d hd => ?_
    split_ifs with hname
    · rw [← forest.eq_of_name hdisk hd (.inl rfl) (.inl rfl) hname.symm]
      exact candidate_of_mpathOf hmounted hsize (if_pos rfl) hmpath
    · refine candidate_of_wipefs ?_
      rw [onlyClean, if_neg hname]
      decide
  have hmem : mpath.name ∈ (forest.blockdevices.map fun d =>
      if d.name = disk.name then some mpath.name else none).reduceOption := by
    rw [List.reduceOption_mem_iff]
    exact List.mem_map.mpr ⟨disk, hdisk, if_pos rfl⟩
  rw [chooseDisk, bind_of_eq_ok hfound]
  dsimp only
  rw [if_neg (List.ne_nil_of_mem hmem), bind_of_eq_ok (chooseFastestDisk_onlyFast _), if_pos hhost]
  · rfl
  · rw [order.mem_iff, List.mem_toFinset]
    exact List.mem_append_left _ hmem

end Automatic

section Results

variable (p : Params) (forest : Forest) (named : Option (List Device))

/-- Whatever the other commands print, a disk that is taken is unused. -/
def AlwaysSafe : Prop :=
  ∀ (wipefs : String → String) (iops : String → Except PyError Int) (order : SetOrder String)
    (selected : Selected),
    autoSelectDisk p ⟨forest, named, wipefs, iops, order⟩ = .ok (some selected) →
      Safe p ⟨forest, named, wipefs, iops, order⟩ selected

noncomputable def someOrder : SetOrder String where
  list s := s.toList
  nodup s := s.nodup_toList
  mem_iff _ _ := Finset.mem_toList

variable {p forest named}

theorem mounted_of_takeNamed {disk : Device} {rest : List Device}
    (h : takeNamed p (some (disk :: rest)) = .ok true) : disk.mounted = false := by
  rw [takeNamed] at h
  split_ifs at h with hname hfstype hrejected
  · cases h
  · cases h
  · exact Bool.eq_false_iff.mpr fun hmounted => hrejected (.inl hmounted)

/-- On the automatic path. -/
theorem alwaysSafe_iff_mpathsUnused (hyes : p.selectDiskRequest = "yes")
    (h : takeNamed p named = .ok false) : AlwaysSafe p forest named ↔ MpathsUnused p forest := by
  constructor
  · rintro hsafe disk hdisk hmounted hsize mpath hmpath hhost hbelow
    have hchoose := chooseDisk_onlyClean named someOrder hdisk hmounted hsize hmpath hhost
    have hplace := (of_mpathOf_eq_some hmounted hmpath).2
    have hsafe := hsafe (onlyClean disk.name) (onlyFast mpath.name) someOrder
      (.automatic mpath.name) (by simp [autoSelectDisk, hyes, h, hchoose])
    exact (hsafe.1 disk hdisk mpath (hplace.imp_right .child) rfl).2 hbelow
  · intro hunused wipefs iops order selected hselect
    rw [autoSelectDisk, if_neg (not_not.mpr hyes), h] at hselect
    cases hchoose : chooseDisk p ⟨forest, named, wipefs, iops, order⟩ with
    | error e =>
        rw [hchoose] at hselect
        cases hselect
    | ok disk =>
        rw [hchoose] at hselect
        cases disk with
        | none => cases hselect
        | some name =>
            cases hselect
            exact safe_of_chooseDisk hunused hchoose

/-- On the path for a named disk. -/
theorem alwaysSafe_iff_of_taken (hyes : p.selectDiskRequest = "yes")
    (h : takeNamed p named = .ok true) :
    AlwaysSafe p forest named ↔ ∀ disk rest, named = some (disk :: rest) → ¬ disk.MountedBelow := by
  have hselect : ∀ wipefs iops order,
      autoSelectDisk p ⟨forest, named, wipefs, iops, order⟩ =
        .ok (some (.named p.selectDiskName)) := by
    intro wipefs iops order
    simp [autoSelectDisk, hyes, h]
  constructor
  · rintro hsafe disk rest rfl
    exact (hsafe (fun _ => "") (onlyFast "") someOrder _ (hselect _ _ _) disk rest rfl).2
  · intro hbelow wipefs iops order selected hselected
    cases (hselect wipefs iops order).symm.trans hselected
    rintro disk rest rfl
    exact ⟨mounted_of_takeNamed h, hbelow disk rest rfl⟩

variable (p forest named)

/-- Taken disks are unused, whatever the commands print, exactly if no device is mounted below a
multipath device that may be taken. -/
theorem alwaysSafe_iff_spared : AlwaysSafe p forest named ↔ Spared p forest named := by
  by_cases hyes : p.selectDiskRequest = "yes"
  · rw [Spared, forall_prop_of_true hyes]
    cases htake : takeNamed p named with
    | error e =>
        refine iff_of_true (fun wipefs iops order selected hselect => ?_) trivial
        rw [autoSelectDisk, if_neg (not_not.mpr hyes), htake] at hselect
        cases hselect
    | ok taken =>
        cases taken with
        | false => exact alwaysSafe_iff_mpathsUnused hyes htake
        | true => exact alwaysSafe_iff_of_taken hyes htake
  · refine iff_of_true (fun wipefs iops order selected hselect => ?_) (absurd · hyes)
    rw [autoSelectDisk, if_pos hyes] at hselect
    cases hselect

/-- A partition with the root file system. -/
def root : Device :=
  { name := "/dev/mapper/mpatha1", type := "part", fstype := some "xfs", mountpoint := some "/"
    size := 1024 * 1024 * 1024, children := none }

def mpatha : Device :=
  { name := "/dev/mapper/mpatha", type := "mpath", fstype := none, mountpoint := none
    size := 1024 * 1024 * 1024, children := some [root] }

/-- One path of a multipath device. -/
def sda : Device :=
  { name := "/dev/sda", type := "disk", fstype := some "mpath_member", mountpoint := none
    size := 1024 * 1024 * 1024, children := some [mpatha] }

theorem below_sda {d : Device} (h : d = sda ∨ sda.Below d) : d = sda ∨ d = mpatha ∨ d = root := by
  have hsda : sda.childList = [mpatha] := rfl
  have hmpatha : mpatha.childList = [root] := rfl
  simpa [Device.below_iff (d := sda), hsda, Device.below_iff (d := mpatha), hmpatha,
    Device.not_below_of_childList (d := root) rfl] using h

def multipathHost : Forest where
  blockdevices := [sda]
  coherent := by
    rintro disk hdisk disk' hdisk' d d' hd hd' hname
    rw [List.mem_singleton.mp hdisk] at hd
    rw [List.mem_singleton.mp hdisk'] at hd'
    obtain rfl | rfl | rfl := below_sda hd <;> obtain rfl | rfl | rfl := below_sda hd' <;>
      first | rfl | exact absurd hname (by decide)

def select (name : String) : Params :=
  { selectDiskRequest := "yes", selectDiskName := name, selectDiskMinimumSize := 1
    hostTestFile := "/mnt/test.img" }

/-- The root file system is on a partition of a multipath device that is taken, on the automatic
path and by its name. -/
theorem root_not_safe :
    root.mounted = true ∧ mpatha.Below root ∧
      autoSelectDisk (select "") ⟨multipathHost, none, onlyClean sda.name, onlyFast mpatha.name,
        someOrder⟩ = .ok (some (.automatic mpatha.name)) ∧
      ¬ AlwaysSafe (select "") multipathHost none ∧
      ¬ AlwaysSafe (select mpatha.name) multipathHost (some [mpatha]) := by
  have hbelow : mpatha.Below root := .child List.mem_cons_self
  have hmounted : mpatha.MountedBelow := ⟨root, hbelow, by decide⟩
  have hmpath : mpathOf sda = some mpatha := by simp [mpathOf, sda, mpatha, Device.mounted]
  refine ⟨by decide, hbelow, ?_, ?_, ?_⟩
  · have hchoose : chooseDisk (select "") ⟨multipathHost, none, onlyClean sda.name,
        onlyFast mpatha.name, someOrder⟩ = .ok (some mpatha.name) :=
      chooseDisk_onlyClean none someOrder List.mem_cons_self rfl (by decide) hmpath (by decide)
    rw [autoSelectDisk, hchoose]
    rfl
  · rw [alwaysSafe_iff_mpathsUnused rfl rfl]
    intro h
    exact h sda List.mem_cons_self rfl (by decide) mpatha hmpath (by decide) hmounted
  · rw [alwaysSafe_iff_of_taken rfl rfl]
    exact fun h => h mpatha [] rfl hmounted

end Results

end TpQemu.BlockPerformance

import TpQemu.Lib.Dict
import TpQemu.Lib.Loop
import TpQemu.Lib.Python
import TpQemu.StgParams.Parsers

/-!
# Configuring the disks

The loop of `configure_images_params` in `qemu/tests/multi_disk_random_hotplug.py`. Each round
takes one of the formats at random and makes a disk of it, except that a usb disk beyond the
last usb port is skipped: the round ends without counting the disk. The loop is meant to end
with a warning when no format is left, but no round takes a format away, and from the first
skipped disk on every usb disk is skipped.

The random numbers are a stream, and `random.choice` takes the next one. The image name with
the number put in, `params_matrix["stg_image_name"] % i`, is a function here that may raise. The
call of `preprocess_image` is taken to return.
-/

namespace TpQemu.StgParams

/-! ## The loop -/

/-- A key of the matrix with the values to choose from: its list, or the letters of the image
name, which is a text. -/
structure ImageOption where
  key : Text
  values : List Text
  nonempty : values ≠ []

/-- What `configure_images_params` reads. -/
structure DiskSetup where
  /-- The values of `fmt`, or the `drive_format`, which may be missing. -/
  formats : List (Option Text)
  options : List ImageOption
  imageName : Nat → Except PyError Text
  /-- The number of usb ports, unless it is no number. -/
  usbMaxPort : Option Int
  setDriveBus : Bool
  noDisks : Int

/-- The dictionary `args`. -/
abbrev DiskArgs := Dict Text (Option Text)

structure ConfigState where
  i : Nat
  usbPortOccupied : Nat
  /-- The random numbers used so far. -/
  drawn : Nat
  /-- The `args` of the disks made so far. -/
  disks : List DiskArgs

/-- How the loop is left. -/
inductive ConfigEnd where
  /-- The condition of the loop is false. -/
  | done (disks : List DiskArgs)
  /-- No format is left: `test.error`. -/
  | nothing
  /-- No format is left: a warning. -/
  | warned (disks : List DiskArgs)
  | raised (e : PyError)

/-- `random.choice(xs)` on a list that is not empty, with this random number. -/
def choose {α : Type} [Inhabited α] (rand : Nat) (xs : List α) : α :=
  xs.getD (rand % xs.length) default

/-- `fmt == "usb2" or fmt == "usb3"` -/
def isUsb (fmt : Option Text) : Bool := fmt = some "usb2".toList || fmt = some "usb3".toList

/-- The format and the adapter of the disk. -/
def formatArgs (fmt : Option Text) (args : DiskArgs) : DiskArgs :=
  let scsi (hba : String) :=
    (args.set "fmt".toList (some "scsi-hd".toList)).set "scsi_hba".toList (some hba.toList)
  if fmt = some "virtio_scsi".toList then scsi "virtio-scsi-pci"
  else if fmt = some "lsi_scsi".toList then scsi "lsi53c895a"
  else if fmt = some "spapr_vscsi".toList then scsi "spapr-vscsi"
  else args.set "fmt".toList fmt

section Rounds

variable (setup : DiskSetup) (rand : Nat → Nat)

/-- The arguments of a disk, with the random numbers from `drawn` on. -/
def diskArgs (i drawn : Nat) (filename : Text) (fmt : Option Text) : DiskArgs :=
  let number := (toString i).toList
  let driveBus := if setup.setDriveBus ∧ fmt ≠ some "virtio".toList then some number else none
  let args := ((∅ : DiskArgs).set "name".toList (some ("stg".toList ++ number))).set
    "filename".toList (some filename)
  let args := (formatArgs fmt args).set "drive_bus".toList driveBus
  setup.options.zipIdx.foldl
    (fun args o => args.set o.1.key (some (choose (rand (drawn + o.2)) o.1.values))) args

/-- The end of a round in which a disk is made. -/
def ConfigState.addDisk (s : ConfigState) (filename : Text) (fmt : Option Text)
    (usbPortOccupied : Nat) : ConfigState where
  i := s.i + 1
  usbPortOccupied := usbPortOccupied
  drawn := s.drawn + 1 + setup.options.length
  disks := s.disks ++ [diskArgs setup rand s.i (s.drawn + 1) filename fmt]

/-- One round of the loop. -/
def configRound (s : ConfigState) : ConfigState ⊕ ConfigEnd :=
  if (s.i : Int) < setup.noDisks then
    if setup.formats.length < 1 then .inr (if s.i = 0 then .nothing else .warned s.disks)
    else
      match setup.imageName s.i with
      | .error e => .inr (.raised e)
      | .ok filename =>
          let fmt := choose (rand s.drawn) setup.formats
          if isUsb fmt then
            match setup.usbMaxPort with
            | none => .inr (.raised .valueError)
            | some usbMaxPort =>
                if (s.usbPortOccupied + 1 : Int) > usbMaxPort then
                  .inl { s with usbPortOccupied := s.usbPortOccupied + 1, drawn := s.drawn + 1 }
                else .inl (s.addDisk setup rand filename fmt (s.usbPortOccupied + 1))
          else .inl (s.addDisk setup rand filename fmt s.usbPortOccupied)
  else .inr (.done s.disks)

end Rounds

def ConfigState.initial : ConfigState := ⟨0, 0, 0, []⟩

/-- All disks are there, or no format was left. -/
def ConfigEnd.Complete (setup : DiskSetup) : ConfigEnd → Prop
  | .done disks => (disks.length : Int) = max setup.noDisks 0
  | .nothing | .warned _ => True
  | .raised _ => False

/-- There is a usb port for every disk if there are usb disks at all, and every image has a
name. -/
def DiskSetup.Fits (setup : DiskSetup) : Prop :=
  setup.noDisks ≤ 0 ∨ setup.formats = [] ∨
    ((∀ i : Nat, (i : Int) < setup.noDisks → (setup.imageName i).isOk = true) ∧
      ∀ fmt ∈ setup.formats, isUsb fmt = true →
        ∃ usbMaxPort ∈ setup.usbMaxPort, setup.noDisks ≤ usbMaxPort)

/-! ## Rounds -/

theorem choose_mem {α : Type} [Inhabited α] (rand : Nat) {xs : List α} (h : xs ≠ []) :
    choose rand xs ∈ xs := by
  have hlt : rand % xs.length < xs.length := Nat.mod_lt _ (List.length_pos_iff.mpr h)
  rw [choose, List.getD_eq_getElem?_getD, List.getElem?_eq_getElem hlt]
  exact List.getElem_mem hlt

theorem exists_choose_eq {α : Type} [Inhabited α] {x : α} {xs : List α} (h : x ∈ xs) :
    ∃ rand, choose rand xs = x := by
  obtain ⟨n, hlt, rfl⟩ := List.getElem_of_mem h
  refine ⟨n, ?_⟩
  rw [choose, Nat.mod_eq_of_lt hlt, List.getD_eq_getElem?_getD, List.getElem?_eq_getElem hlt]
  rfl

/-- What a round can do while disks are missing and there are formats. -/
inductive ConfigStep (setup : DiskSetup) (rand : Nat → Nat) (s : ConfigState) :
    ConfigState ⊕ ConfigEnd → Prop
  | badName (e : PyError) (hname : setup.imageName s.i = .error e) :
      ConfigStep setup rand s (.inr (.raised e))
  | badPort (husb : isUsb (choose (rand s.drawn) setup.formats) = true)
      (hmax : setup.usbMaxPort = none) : ConfigStep setup rand s (.inr (.raised .valueError))
  | skipped (usbMaxPort : Int) (husb : isUsb (choose (rand s.drawn) setup.formats) = true)
      (hmax : setup.usbMaxPort = some usbMaxPort)
      (hport : usbMaxPort < (s.usbPortOccupied + 1 : Int)) :
      ConfigStep setup rand s
        (.inl { s with usbPortOccupied := s.usbPortOccupied + 1, drawn := s.drawn + 1 })
  | usb (filename : Text) (usbMaxPort : Int) (hname : setup.imageName s.i = .ok filename)
      (hmax : setup.usbMaxPort = some usbMaxPort)
      (hport : (s.usbPortOccupied + 1 : Int) ≤ usbMaxPort) :
      ConfigStep setup rand s (.inl (s.addDisk setup rand filename
        (choose (rand s.drawn) setup.formats) (s.usbPortOccupied + 1)))
  | other (filename : Text) (hname : setup.imageName s.i = .ok filename)
      (husb : isUsb (choose (rand s.drawn) setup.formats) = false) :
      ConfigStep setup rand s (.inl (s.addDisk setup rand filename
        (choose (rand s.drawn) setup.formats) s.usbPortOccupied))

section Rounds

variable {setup : DiskSetup} {rand : Nat → Nat} {s : ConfigState}

theorem configRound_step (hi : (s.i : Int) < setup.noDisks) (hformats : setup.formats ≠ []) :
    ConfigStep setup rand s (configRound setup rand s) := by
  have hlength : ¬setup.formats.length < 1 := by
    have hpos := List.length_pos_iff.mpr hformats
    omega
  rw [configRound, if_pos hi, if_neg hlength]
  cases hname : setup.imageName s.i with
  | error e => exact .badName e hname
  | ok filename =>
      cases husb : isUsb (choose (rand s.drawn) setup.formats) with
      | false =>
          simp only [husb, Bool.false_eq_true, if_false]
          exact .other filename hname husb
      | true =>
          simp only [husb, if_true]
          cases hmax : setup.usbMaxPort with
          | none => exact .badPort husb hmax
          | some usbMaxPort =>
              by_cases hport : (s.usbPortOccupied + 1 : Int) > usbMaxPort
              · simp only [if_pos hport]
                exact .skipped usbMaxPort husb hmax hport
              · simp only [if_neg hport]
                exact .usb filename usbMaxPort hname hmax (by omega)

theorem configRound_done (hi : ¬(s.i : Int) < setup.noDisks) :
    configRound setup rand s = .inr (.done s.disks) := if_neg hi

/-! ## Setups for which the loop ends -/

/-- No more ports are occupied than disks made. -/
structure Counted (setup : DiskSetup) (s : ConfigState) : Prop where
  disks : s.disks.length = s.i
  ports : s.usbPortOccupied ≤ s.i
  bound : (s.i : Int) ≤ max setup.noDisks 0

/-- With a port for every disk each round makes a disk. -/
theorem counted_round (hformats : setup.formats ≠ [])
    (hnames : ∀ i : Nat, (i : Int) < setup.noDisks → (setup.imageName i).isOk = true)
    (hports : ∀ fmt ∈ setup.formats, isUsb fmt = true →
      ∃ usbMaxPort ∈ setup.usbMaxPort, setup.noDisks ≤ usbMaxPort) (hs : Counted setup s) :
    (∃ s', configRound setup rand s = .inl s' ∧ Counted setup s' ∧
        (setup.noDisks - s'.i).toNat < (setup.noDisks - s.i).toNat) ∨
      ∃ e, configRound setup rand s = .inr e ∧ e.Complete setup := by
  obtain ⟨hdisks, hoccupied, hbound⟩ := hs
  by_cases hi : (s.i : Int) < setup.noDisks
  · have hstep : ConfigStep setup rand s (configRound setup rand s) :=
      configRound_step hi hformats
    have hmem := choose_mem (rand s.drawn) hformats
    have hmade (filename : Text) {occupied : Nat} (hle : occupied ≤ s.i + 1) :
        Counted setup (s.addDisk setup rand filename (choose (rand s.drawn) setup.formats)
          occupied) := by
      refine ⟨?_, hle, ?_⟩
      · rw [ConfigState.addDisk, List.length_append, List.length_singleton, hdisks]
      · show ((s.i + 1 : Nat) : Int) ≤ _
        omega
    generalize configRound setup rand s = result at hstep
    cases hstep with
    | badName e hname =>
        have hok := hnames s.i hi
        rw [hname] at hok
        cases hok
    | badPort husb hmax =>
        obtain ⟨usbMaxPort, hport, -⟩ := hports _ hmem husb
        rw [hmax] at hport
        cases hport
    | skipped usbMaxPort husb hmax hport =>
        obtain ⟨usbMaxPort', hport', hle⟩ := hports _ hmem husb
        rw [hmax] at hport'
        cases hport'
        omega
    | usb filename usbMaxPort hname hmax hport =>
        refine .inl ⟨_, rfl, hmade filename (by omega), ?_⟩
        show (setup.noDisks - (s.i + 1 : Nat)).toNat < _
        omega
    | other filename hname husb =>
        refine .inl ⟨_, rfl, hmade filename (by omega), ?_⟩
        show (setup.noDisks - (s.i + 1 : Nat)).toNat < _
        omega
  · refine .inr ⟨_, configRound_done hi, ?_⟩
    show (s.disks.length : Int) = _
    rw [hdisks]
    omega

/-! ## Setups for which it does not -/

/-- A disk without a name is never passed. -/
theorem raised_of_badName (hformats : setup.formats ≠ []) {n : Nat}
    (hn : (n : Int) < setup.noDisks) {e : PyError} (hname : setup.imageName n = .error e)
    (hs : s.i ≤ n) :
    (∃ s', configRound setup rand s = .inl s' ∧ s'.i ≤ n) ∨
      ∃ a, configRound setup rand s = .inr a ∧ ¬a.Complete setup := by
  have hstep : ConfigStep setup rand s (configRound setup rand s) :=
    configRound_step (by omega) hformats
  have hnext {filename : Text} (hok : setup.imageName s.i = .ok filename) : s.i + 1 ≤ n := by
    have hne : s.i ≠ n := by
      rintro hi
      rw [hi, hname] at hok
      cases hok
    omega
  generalize configRound setup rand s = result at hstep
  cases hstep with
  | badName e hname => exact .inr ⟨_, rfl, id⟩
  | badPort husb hmax => exact .inr ⟨_, rfl, id⟩
  | skipped usbMaxPort husb hmax hport => exact .inl ⟨_, rfl, hs⟩
  | usb filename usbMaxPort hok hmax hport => exact .inl ⟨_, rfl, hnext hok⟩
  | other filename hok husb => exact .inl ⟨_, rfl, hnext hok⟩

/-- When every disk is a usb disk and there are too few ports, the last disk is never made. -/
theorem stuck_round (hformats : setup.formats ≠ [])
    (husb : ∀ k, isUsb (choose (rand k) setup.formats) = true)
    (hports : ∀ usbMaxPort ∈ setup.usbMaxPort, usbMaxPort < setup.noDisks)
    (hs : s.i ≤ s.usbPortOccupied ∧ (s.i : Int) < setup.noDisks) :
    (∃ s', configRound setup rand s = .inl s' ∧
        s'.i ≤ s'.usbPortOccupied ∧ (s'.i : Int) < setup.noDisks) ∨
      ∃ a, configRound setup rand s = .inr a ∧ ¬a.Complete setup := by
  obtain ⟨hle, hi⟩ := hs
  have hstep : ConfigStep setup rand s (configRound setup rand s) :=
    configRound_step hi hformats
  generalize configRound setup rand s = result at hstep
  cases hstep with
  | badName e hname => exact .inr ⟨_, rfl, id⟩
  | badPort husb hmax => exact .inr ⟨_, rfl, id⟩
  | skipped usbMaxPort husb hmax hport =>
      exact .inl ⟨_, rfl, Nat.le_succ_of_le hle, hi⟩
  | usb filename usbMaxPort hname hmax hport =>
      have hlt := hports usbMaxPort hmax
      refine .inl ⟨_, rfl, Nat.succ_le_succ hle, ?_⟩
      show ((s.i + 1 : Nat) : Int) < setup.noDisks
      omega
  | other filename hname hother =>
      rw [husb] at hother
      cases hother

end Rounds

/-- The loop ends with all disks, or without a format, whatever the random numbers are, exactly
when there is a port for every disk or no usb disk, and every image has a name. -/
theorem config_completes_iff (setup : DiskSetup) :
    (∀ rand : Nat → Nat, ∃ a, LeavesWith (configRound setup rand) .initial a ∧
        a.Complete setup) ↔
      setup.Fits := by
  constructor
  · intro h
    by_cases hdisks : setup.noDisks ≤ 0
    · exact .inl hdisks
    by_cases hformats : setup.formats = []
    · exact .inr (.inl hformats)
    refine .inr (.inr ⟨fun n hn => ?_, fun fmt hfmt husb => ?_⟩)
    · by_contra hname
      cases hresult : setup.imageName n with
      | ok filename =>
          rw [hresult] at hname
          exact hname rfl
      | error e =>
          obtain ⟨a, hleaves, hcomplete⟩ := h fun _ => 0
          have hround (s : ConfigState) (hs : s.i ≤ n) :
              (∃ s', configRound setup (fun _ => 0) s = .inl s' ∧ s'.i ≤ n) ∨
                ∃ a, configRound setup (fun _ => 0) s = .inr a ∧ ¬a.Complete setup :=
            raised_of_badName hformats hn hresult hs
          have hbad : ¬a.Complete setup := post_of_leavesWith hround (Nat.zero_le n) hleaves
          exact hbad hcomplete
    · by_contra hports
      -- Every random number picks the usb format.
      obtain ⟨k, hk⟩ := exists_choose_eq hfmt
      obtain ⟨a, hleaves, hcomplete⟩ := h fun _ => k
      have hchoose (j : Nat) : isUsb (choose ((fun _ => k) j) setup.formats) = true := by
        rw [hk]
        exact husb
      have hlt (usbMaxPort : Int) (hmax : usbMaxPort ∈ setup.usbMaxPort) :
          usbMaxPort < setup.noDisks := by
        by_contra hge
        exact hports ⟨usbMaxPort, hmax, by omega⟩
      have hround (s : ConfigState)
          (hs : s.i ≤ s.usbPortOccupied ∧ (s.i : Int) < setup.noDisks) :=
        stuck_round hformats hchoose hlt hs
      have hinitial : ConfigState.initial.i ≤ ConfigState.initial.usbPortOccupied ∧
          (ConfigState.initial.i : Int) < setup.noDisks :=
        ⟨Nat.le_refl 0, Int.not_le.mp hdisks⟩
      have hbad : ¬a.Complete setup := post_of_leavesWith hround hinitial hleaves
      exact hbad hcomplete
  · intro h rand
    by_cases hdisks : setup.noDisks ≤ 0
    · refine ⟨_, leavesWith_of_inr (configRound_done ?_), ?_⟩
      · show ¬((0 : Nat) : Int) < setup.noDisks
        omega
      · show ((0 : Nat) : Int) = max setup.noDisks 0
        omega
    · by_cases hformats : setup.formats = []
      · refine ⟨.nothing, leavesWith_of_inr ?_, trivial⟩
        have hi : ((ConfigState.initial.i : Nat) : Int) < setup.noDisks := by
          show ((0 : Nat) : Int) < setup.noDisks
          omega
        rw [configRound, if_pos hi, hformats]
        rfl
      · obtain hle | hnil | ⟨hnames, hports⟩ := h
        · exact absurd hle hdisks
        · exact absurd hnil hformats
        · apply leavesWith_of_measure (fun s => (setup.noDisks - s.i).toNat)
            (fun s hs => counted_round hformats hnames hports hs)
          exact ⟨rfl, Nat.le_refl 0, Int.le_max_right _ _⟩

/-- One disk more than there are usb ports by default. -/
def sevenUsbDisks : DiskSetup where
  formats := [some "usb2".toList]
  options := []
  imageName i := .ok ("images/stg".toList ++ (toString i).toList)
  usbMaxPort := some 6
  setDriveBus := false
  noDisks := 7

theorem sevenUsbDisks_round {s : ConfigState}
    (hs : s.i ≤ s.usbPortOccupied ∧ (s.i : Int) < 7) :
    ∃ s', configRound sevenUsbDisks (fun _ => 0) s = .inl s' ∧
      s'.i ≤ s'.usbPortOccupied ∧ (s'.i : Int) < 7 := by
  have hstep : ConfigStep sevenUsbDisks (fun _ => 0) s (configRound sevenUsbDisks (fun _ => 0) s) :=
    configRound_step hs.2 (by decide)
  generalize configRound sevenUsbDisks (fun _ => 0) s = result at hstep
  cases hstep with
  | badName e hname => cases hname
  | badPort husb hmax => cases hmax
  | skipped usbMaxPort husb hmax hport => exact ⟨_, rfl, Nat.le_succ_of_le hs.1, hs.2⟩
  | usb filename usbMaxPort hname hmax hport =>
      obtain rfl : 6 = usbMaxPort := Option.some.inj hmax
      refine ⟨_, rfl, Nat.succ_le_succ hs.1, ?_⟩
      show ((s.i + 1 : Nat) : Int) < 7
      omega
  | other filename hname husb => exact absurd husb (by decide)

/-- The seventh usb disk is tried forever. -/
theorem sevenUsbDisks_never_done :
    (∀ a, ¬LeavesWith (configRound sevenUsbDisks fun _ => 0) .initial a) ∧
      ¬∀ rand : Nat → Nat, ∃ a,
        LeavesWith (configRound sevenUsbDisks rand) .initial a ∧ a.Complete sevenUsbDisks := by
  have hnever : ∀ a, ¬LeavesWith (configRound sevenUsbDisks fun _ => 0) .initial a := by
    rintro a ⟨n, hn⟩
    rw [loop_eq_none_of_invariant (fun s hs => sevenUsbDisks_round hs)
      ⟨Nat.le_refl 0, by decide⟩] at hn
    cases hn
  refine ⟨hnever, fun h => ?_⟩
  obtain ⟨a, hleaves, -⟩ := h fun _ => 0
  exact hnever a hleaves

end TpQemu.StgParams

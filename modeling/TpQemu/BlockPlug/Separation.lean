import Mathlib.Data.List.TakeWhile
import TpQemu.BlockPlug.Devices

/-!
# Which devices an unplug collects

`_unplug_devs` takes, for each image, every device up to the disk of the image
whose name starts with the name of the image and an underscore, then the disk
itself and, behind it, the HBA that was hot plugged for the image, if the disk is
the last device on its bus. `collected` is this list in closed form.

Nothing in the prefix test tells the helper devices of an image from the devices of
another image: with images `stg` and `stg_1` the disk of the second one, or its secret,
is collected for the first one when it stands before it. `_create_devices` looks only at
the devices that are defined for one image, and admits one with the prefix only if it is
a secret object.
-/

namespace TpQemu.BlockPlug

/-- The devices `_unplug_devs` looks at. -/
def selectable (vm : Vm) : List Device :=
  vm.devices.filter fun dev => dev.cls = .qDevice ∨ dev.cls = .qObject

/-- The disk of an image: the first device of its name. -/
def disk? (devs : List Device) (img : String) : Option Device :=
  devs.find? fun dev => dev.qid = img

/-- The devices with the prefix of the image that stand before its disk. -/
def helpers (devs : List Device) (img : String) : List Device :=
  (devs.takeWhile fun dev => dev.qid ≠ img).filter fun dev => startsWithImage dev.qid img

/-- The first bus of the name, if there is one, holds one device. -/
def holdsOne (busName : List Char) (buses : List Bus) : Bool :=
  (buses.find? fun bus => busName = stem bus.busid).any fun bus => bus.size = 1

/-- The device names a bus and is the last device on it. -/
def lastOnBus (vm : Vm) (dev : Device) : Bool :=
  dev.bus.any fun bus => bus ≠ "" && (vm.buses dev).any (holdsOne (stem bus))

/-- The HBA that goes with the image whose disk is among the devices. -/
def hbaOf (vm : Vm) (hbas : Hbas) (img : String) (devs : List Device) : Option Device :=
  (disk? devs img).bind fun dev => if lastOnBus vm dev then hbas.get? img else none

/-- Everything that is collected for an image. -/
def collected (vm : Vm) (hbas : Hbas) (img : String) : List Device :=
  (disk? (selectable vm) img).toList ++ (helpers (selectable vm) img).reverse ++
    (hbaOf vm hbas img (selectable vm)).toList

/-! ## The loop over the devices -/

theorem collectImage_eq {devs : List Device} {img : String} {dev : Device}
    (h : disk? devs img = some dev) (found : List Device) :
    collectImage img devs found = (dev :: ((helpers devs img).reverse ++ found), true) := by
  induction devs generalizing found with
  | nil => cases h
  | cons d devs ih =>
      rw [disk?, List.find?_cons] at h
      by_cases hd : d.qid = img
      · simp only [hd, decide_true, Option.some.injEq] at h
        subst h
        simp [collectImage, helpers, hd]
      · simp only [hd, decide_false] at h
        rw [collectImage, if_neg hd]
        split
        · rename_i hstarts
          rw [ih h]
          simp [helpers, hd, hstarts]
        · rename_i hstarts
          rw [ih h]
          simp [helpers, hd, hstarts]

/-- The loop over the images, when each of them has its disk. -/
theorem collectImages_spec {devs : List Device} {images : List String}
    (h : ∀ img ∈ images, (disk? devs img).isSome) (d : Dict String (List Device)) :
    ∃ d', collectImages devs images d = (d', none) ∧
      (∀ img ∈ images,
        d'.get? img = some ((disk? devs img).toList ++ (helpers devs img).reverse)) ∧
      ∀ k, k ∉ images → d'.get? k = d.get? k := by
  induction images generalizing d with
  | nil => exact ⟨d, rfl, by simp, by simp⟩
  | cons img images ih =>
      obtain ⟨dev, hdev⟩ := Option.isSome_iff_exists.mp (h img List.mem_cons_self)
      have hlist : collectImage img devs [] =
          ((disk? devs img).toList ++ (helpers devs img).reverse, true) := by
        rw [collectImage_eq hdev, hdev]
        simp
      obtain ⟨d', hd', hin, hout⟩ := ih (fun i hi => h i (List.mem_cons_of_mem img hi))
        (d.set img ((disk? devs img).toList ++ (helpers devs img).reverse))
      refine ⟨d', ?_, ?_, ?_⟩
      · simp only [collectImages, hlist, if_true]
        exact hd'
      · intro k hk
        by_cases hmem : k ∈ images
        · exact hin k hmem
        · obtain rfl : k = img := (List.mem_cons.mp hk).resolve_right hmem
          rw [hout k hmem, Dict.get?_set_self]
      · intro k hk
        rw [List.mem_cons, not_or] at hk
        rw [hout k hk.2, Dict.get?_set_ne _ hk.1]

/-! ## The search for the HBA -/

/-- The buses of one parent. -/
def popHba (img : String) (busName : List Char) (acc : List Device × Hbas) (buses : List Bus) :
    List Device × Hbas :=
  if holdsOne busName buses then
    match acc.2.get? img with
    | some hba => (acc.1 ++ [hba], acc.2.erase img)
    | none => acc
  else acc

theorem searchBuses_eq_foldl (vm : Vm) (img : String) (dev : Device) (busName : List Char)
    (acc : List Device × Hbas) :
    searchBuses vm img dev busName acc = (vm.buses dev).foldl (popHba img busName) acc := by
  rw [searchBuses]
  congr 1
  funext acc buses
  rw [popHba, holdsOne]
  cases buses.find? fun bus => busName = stem bus.busid with
  | none => rfl
  | some bus => cases acc.2.get? img <;> simp

/-- The HBA of the image is taken once, if at all, and no other one is. -/
theorem foldl_popHba (img : String) (busName : List Char) (parents : List (List Bus))
    (devs : List Device) (hbas : Hbas) :
    let r := parents.foldl (popHba img busName) (devs, hbas)
    r.1 = devs ++ (if parents.any (holdsOne busName) then hbas.get? img else none).toList ∧
      ∀ k, k ≠ img → r.2.get? k = hbas.get? k := by
  induction parents generalizing devs hbas with
  | nil => simp
  | cons buses parents ih =>
      rw [List.foldl_cons, popHba]
      cases hone : holdsOne busName buses with
      | false =>
          simp only [Bool.false_eq_true, if_false, List.any_cons, hone, Bool.false_or]
          exact ih devs hbas
      | true =>
          cases hget : hbas.get? img with
          | none =>
              obtain ⟨hdevs, hrest⟩ := ih devs hbas
              refine ⟨?_, ?_⟩
              · simpa [hget] using hdevs
              · simpa [hget] using hrest
          | some hba =>
              obtain ⟨hdevs, hrest⟩ := ih (devs ++ [hba]) (hbas.erase img)
              refine ⟨?_, ?_⟩
              · simpa [hget, hone, Dict.get?_erase_self] using hdevs
              · intro k hk
                rw [← Dict.get?_erase_ne hbas hk]
                simpa [hget] using hrest k hk

theorem hbaOf_congr {vm : Vm} {hbas hbas' : Hbas} {img : String}
    (h : hbas'.get? img = hbas.get? img) (devs : List Device) :
    hbaOf vm hbas' img devs = hbaOf vm hbas img devs := by
  rw [hbaOf, hbaOf, h]

/-- One image of the search: its devices get the HBA behind them, everything else
stays. -/
theorem searchHbas_cons (vm : Vm) {img : String} (imgs : List String)
    {d : Dict String (List Device)} (hbas : Hbas) {devs : List Device}
    (hdevs : d.get? img = some devs) (hdisk : (disk? devs img).isSome) :
    ∃ d' hbas', searchHbas vm (img :: imgs) d hbas = searchHbas vm imgs d' hbas' ∧
      d'.get? img = some (devs ++ (hbaOf vm hbas img devs).toList) ∧
      (∀ k, k ≠ img → d'.get? k = d.get? k) ∧ ∀ k, k ≠ img → hbas'.get? k = hbas.get? k := by
  obtain ⟨dev, hdev⟩ := Option.isSome_iff_exists.mp hdisk
  have hfind : devs.find? (fun dev => dev.qid = img) = some dev := hdev
  have hnone : lastOnBus vm dev = false →
      d.get? img = some (devs ++ (hbaOf vm hbas img devs).toList) := by
    intro hlast
    simp [hbaOf, hdev, hlast, hdevs]
  cases hbus : dev.bus with
  | none =>
      refine ⟨d, hbas, ?_, hnone (by simp [lastOnBus, hbus]), fun _ _ => rfl, fun _ _ => rfl⟩
      simp only [searchHbas, hdevs, hfind, hbus]
  | some bus =>
      by_cases hempty : bus = ""
      · refine ⟨d, hbas, ?_, hnone (by simp [lastOnBus, hbus, hempty]), fun _ _ => rfl,
          fun _ _ => rfl⟩
        simp only [searchHbas, hdevs, hfind, hbus, hempty, if_true]
      · obtain ⟨hlist, hrest⟩ := foldl_popHba img (stem bus) (vm.buses dev) devs hbas
        rw [← searchBuses_eq_foldl] at hlist hrest
        refine ⟨d.set img (searchBuses vm img dev (stem bus) (devs, hbas)).1, _, ?_, ?_,
          fun k hk => Dict.get?_set_ne _ hk _, hrest⟩
        · simp only [searchHbas, hdevs, hfind, hbus, if_neg hempty]
        · rw [Dict.get?_set_self, hlist]
          cases hany : (vm.buses dev).any (holdsOne (stem bus)) <;>
            simp [hbaOf, hdev, lastOnBus, hbus, hempty, hany]

theorem searchHbas_spec (vm : Vm) {imgs : List String} (nodup : imgs.Nodup)
    {d : Dict String (List Device)} (hbas : Hbas)
    (h : ∀ img ∈ imgs, ∃ devs, d.get? img = some devs ∧ (disk? devs img).isSome) :
    ∃ d' hbas', searchHbas vm imgs d hbas = (d', hbas', none) ∧
      (∀ img ∈ imgs, ∀ devs, d.get? img = some devs →
        d'.get? img = some (devs ++ (hbaOf vm hbas img devs).toList)) ∧
      ∀ k, k ∉ imgs → d'.get? k = d.get? k := by
  induction imgs generalizing d hbas with
  | nil => exact ⟨d, hbas, rfl, by simp, by simp⟩
  | cons img imgs ih =>
      obtain ⟨hnot, nodup⟩ := List.nodup_cons.mp nodup
      obtain ⟨devs, hdevs, hdisk⟩ := h img List.mem_cons_self
      obtain ⟨d₁, hbas₁, hstep, hself, hother, hhbas⟩ :=
        searchHbas_cons vm imgs hbas hdevs hdisk
      have hne : ∀ k ∈ imgs, k ≠ img := by
        rintro k hk rfl
        exact hnot hk
      have rest : ∀ k ∈ imgs, ∃ devs, d₁.get? k = some devs ∧ (disk? devs k).isSome := by
        intro k hk
        obtain ⟨devs', hdevs', hdisk'⟩ := h k (List.mem_cons_of_mem img hk)
        exact ⟨devs', (hother k (hne k hk)).trans hdevs', hdisk'⟩
      obtain ⟨d', hbas', hrun, hin, hout⟩ := ih nodup hbas₁ rest
      refine ⟨d', hbas', hstep.trans hrun, ?_, ?_⟩
      · intro k hk devs' hdevs'
        rcases List.mem_cons.mp hk with rfl | hk
        · cases hdevs.symm.trans hdevs'
          rw [hout k hnot, hself]
        · rw [hin k hk devs' ((hother k (hne k hk)).trans hdevs'),
            hbaOf_congr (hhbas k (hne k hk))]
      · intro k hk
        rw [List.mem_cons, not_or] at hk
        rw [hout k hk.2, hother k hk.1]

/-! ## The collection -/

theorem disk?_front {devs : List Device} {img : String} {dev : Device}
    (h : disk? devs img = some dev) (rest : List Device) :
    disk? ((disk? devs img).toList ++ rest) img = disk? devs img := by
  have hname : dev.qid = img := by simpa using List.find?_some h
  rw [h]
  simp [disk?, hname]

/-- When every image has its disk, the collection succeeds and is the list in closed
form. -/
theorem collectDevices_spec {vm : Vm} {images : List String} (hbas : Hbas)
    (h : ∀ img ∈ images, (disk? (selectable vm) img).isSome) :
    ∃ d hbas', collectDevices vm images hbas = (d, hbas', none) ∧
      ∀ img ∈ images, d.get? img = some (collected vm hbas img) := by
  obtain ⟨d, hd, hin, -⟩ := collectImages_spec h ∅
  have hkeys := mem_keys_collectImages hd
  have hdisks : ∀ img ∈ d.keys, ∃ devs, d.get? img = some devs ∧ (disk? devs img).isSome := by
    intro img himg
    have hmem : img ∈ images := by simpa using (hkeys img).mp himg
    obtain ⟨dev, hdev⟩ := Option.isSome_iff_exists.mp (h img hmem)
    refine ⟨_, hin img hmem, ?_⟩
    rw [disk?_front hdev, hdev]
    rfl
  obtain ⟨d', hbas', hrun, hlists, -⟩ := searchHbas_spec vm d.nodup_keys hbas hdisks
  refine ⟨d', hbas', ?_, ?_⟩
  · rw [collectDevices]
    simp only [show collectImages (vm.devices.filter fun dev =>
      dev.cls = .qDevice ∨ dev.cls = .qObject) images ∅ = (d, none) from hd]
    exact hrun
  · intro img himg
    obtain ⟨dev, hdev⟩ := Option.isSome_iff_exists.mp (h img himg)
    have hkey : img ∈ d.keys := (hkeys img).mpr (.inl himg)
    rw [hlists img hkey _ (hin img himg), hbaOf, disk?_front hdev]
    rfl

/-! ## The devices of the other images -/

/-- The devices that `_create_devices` files for an image. -/
def filed (vm : Vm) (hbas : Hbas) (img : String) : List Device :=
  ((createDevices vm [img] hbas).1.get? img).getD []

/-- A device of an image: it has the name of the image, or it is one of those that were filed
for the image when they were plugged. -/
def Owns (devicesOf : String → List Device) (img : String) (dev : Device) : Prop :=
  dev.qid = img ∨ dev ∈ devicesOf img

instance (devicesOf : String → List Device) (img : String) (dev : Device) :
    Decidable (Owns devicesOf img dev) := inferInstanceAs (Decidable (_ ∨ _))

/-- The devices collected for an image have none of another image of the machine among them, so
that these stay plugged, but they have the disk of the image. -/
def Separated (vm : Vm) (devicesOf : String → List Device) (vmImages images : List String)
    (hbas : Hbas) : Prop :=
  ∃ d hbas', collectDevices vm images hbas = (d, hbas', none) ∧
    ∀ img ∈ images, ∃ devs, d.get? img = some devs ∧
      (∀ dev ∈ devs, ∀ other ∈ vmImages, other ≠ img → ¬Owns devicesOf other dev) ∧
      ∃ dev ∈ devs, dev.qid = img

/-- No device of another image stands before the disk of the image and has its prefix, and
neither this disk nor the HBA that goes with the image is one of another image. -/
structure Distinguished (vm : Vm) (devicesOf : String → List Device) (vmImages : List String)
    (hbas : Hbas) (img : String) : Prop where
  before : ∀ dev ∈ (selectable vm).takeWhile (fun dev => dev.qid ≠ img), ∀ other ∈ vmImages,
    other ≠ img → Owns devicesOf other dev → startsWithImage dev.qid img = false
  disk : ∀ dev ∈ disk? (selectable vm) img, ∀ other ∈ vmImages, other ≠ img →
    dev ∉ devicesOf other
  hba : ∀ dev ∈ hbaOf vm hbas img (selectable vm), ∀ other ∈ vmImages, other ≠ img →
    ¬Owns devicesOf other dev

theorem separated_collected_iff {vm : Vm} {devicesOf : String → List Device}
    {vmImages : List String} {hbas : Hbas} {img : String} :
    (∀ dev ∈ collected vm hbas img, ∀ other ∈ vmImages, other ≠ img → ¬Owns devicesOf other dev) ↔
      Distinguished vm devicesOf vmImages hbas img := by
  constructor
  · intro h
    refine ⟨?_, ?_, ?_⟩
    · intro dev hdev other hother hne howns
      by_contra hstarts
      rw [Bool.not_eq_false] at hstarts
      have hhelper : dev ∈ helpers (selectable vm) img := List.mem_filter.mpr ⟨hdev, hstarts⟩
      exact h dev (by simp [collected, hhelper]) other hother hne howns
    · intro dev hdev other hother hne hfiled
      have hdisk : disk? (selectable vm) img = some dev := hdev
      exact h dev (by simp [collected, hdisk]) other hother hne (.inr hfiled)
    · intro dev hdev other hother hne
      have hmem : dev ∈ (hbaOf vm hbas img (selectable vm)).toList := by simpa using hdev
      exact h dev (List.mem_append_right _ hmem) other hother hne
  · intro h dev hdev other hother hne howns
    rcases List.mem_append.mp hdev with hdev | hdev
    · rcases List.mem_append.mp hdev with hdev | hdev
      · have hdisk : disk? (selectable vm) img = some dev := by simpa using hdev
        have himg : dev.qid = img := by simpa using List.find?_some hdisk
        obtain hname | hfiled := howns
        · exact hne (hname.symm.trans himg)
        · exact h.disk dev hdisk other hother hne hfiled
      · obtain ⟨hbefore, hstarts⟩ := List.mem_filter.mp (List.mem_reverse.mp hdev)
        have hfree := h.before dev hbefore other hother hne howns
        rw [hstarts] at hfree
        cases hfree
    · exact h.hba dev (by simpa using hdev) other hother hne howns

/-- The collection keeps the images apart unless the name of a device of one of them starts with
the name of another one and an underscore and stands before its disk. -/
theorem separated_iff {vm : Vm} {devicesOf : String → List Device} {vmImages images : List String}
    {hbas : Hbas}
    (disks : ∀ img ∈ images, ∃ dev ∈ vm.devices,
      dev.qid = img ∧ (dev.cls = .qDevice ∨ dev.cls = .qObject)) :
    Separated vm devicesOf vmImages images hbas ↔
      ∀ img ∈ images, Distinguished vm devicesOf vmImages hbas img := by
  have hdisks : ∀ img ∈ images, (disk? (selectable vm) img).isSome := by
    intro img himg
    obtain ⟨dev, hdev, hname, hcls⟩ := disks img himg
    refine List.find?_isSome.mpr ⟨dev, List.mem_filter.mpr ⟨hdev, by simpa using hcls⟩, ?_⟩
    simpa using hname
  obtain ⟨d, hbas', hrun, hlists⟩ := collectDevices_spec hbas hdisks
  constructor
  · rintro ⟨d₁, hbas₁, hrun₁, hsep⟩ img himg
    cases hrun.symm.trans hrun₁
    obtain ⟨devs, hdevs, hother, -⟩ := hsep img himg
    cases (hlists img himg).symm.trans hdevs
    exact separated_collected_iff.mp hother
  · intro hall
    refine ⟨d, hbas', hrun, fun img himg => ?_⟩
    obtain ⟨dev, hdev⟩ := Option.isSome_iff_exists.mp (hdisks img himg)
    refine ⟨_, hlists img himg, separated_collected_iff.mpr (hall img himg), dev, ?_, ?_⟩
    · simp [collected, hdev]
    · simpa using List.find?_some hdev

/-- Two images, each with a disk on the PCI bus, and the second one with a secret, before anything
is plugged. -/
def twoImages : Vm where
  devices := []
  created img :=
    if img = "stg" then [⟨"stg", .qDevice, none, none⟩]
    else [⟨"stg_1_encrypt0", .qObject, some "secret", none⟩, ⟨"stg_1", .qDevice, none, none⟩]
  buses _ := []

/-- A disk on a bus of its own, with the devices of the other image behind it. -/
theorem separated_hotplugged :
    Separated
      { twoImages with
        devices := [⟨"stg", .qDevice, none, some "hba0.0"⟩,
          ⟨"stg_1_encrypt0", .qObject, some "secret", none⟩, ⟨"stg_1", .qDevice, none, none⟩]
        buses := fun _ => [[⟨"hba0.0", 1⟩]] }
      (filed twoImages ∅) ["stg", "stg_1"] ["stg"]
      ((∅ : Hbas).set "stg" ⟨"hba0", .qDevice, none, some "pci.0"⟩) :=
  (separated_iff (by decide)).mpr (by
    intro img himg
    rw [List.mem_singleton] at himg
    subst himg
    exact ⟨by decide, by decide, by decide⟩)

/-- The disk of `stg_1` stands first and is collected for `stg`, or its secret does and is. -/
theorem not_separated_prefix :
    ¬Separated
        { twoImages with
          devices := [⟨"stg_1", .qDevice, none, none⟩, ⟨"stg", .qDevice, none, none⟩] }
        (filed twoImages ∅) ["stg", "stg_1"] ["stg"] ∅ ∧
      ¬Separated
        { twoImages with
          devices := [⟨"stg_1_encrypt0", .qObject, some "secret", none⟩,
            ⟨"stg", .qDevice, none, none⟩, ⟨"stg_1", .qDevice, none, none⟩] }
        (filed twoImages ∅) ["stg", "stg_1"] ["stg"] ∅ := by
  constructor
  · rintro ⟨d, hbas', hrun, hsep⟩
    obtain ⟨devs, hdevs, hother, -⟩ := hsep "stg" (by decide)
    cases hrun
    cases hdevs
    exact hother ⟨"stg_1", .qDevice, none, none⟩ (by decide) "stg_1" (by decide) (by decide)
      (.inl rfl)
  · rintro ⟨d, hbas', hrun, hsep⟩
    obtain ⟨devs, hdevs, hother, -⟩ := hsep "stg" (by decide)
    cases hrun
    cases hdevs
    exact hother ⟨"stg_1_encrypt0", .qObject, some "secret", none⟩ (by decide) "stg_1" (by decide)
      (by decide) (.inr (by decide))

end TpQemu.BlockPlug

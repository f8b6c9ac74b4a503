import TpQemu.Lib.Dict
import TpQemu.Lib.Python

/-!
# Devices of a plug operation

The data of `provider/block_devices_plug.py` and the two functions that select the
devices of an operation: `_create_devices` for a hot plug and the first half of
`_unplug_devs` for an unplug. What virttest knows of the virtual machine at the
moment of the call (its devices and buses, and the devices it would define for an
image) is the argument `vm`.

The functions change the object and a module dictionary as they go and may raise
halfway, so they return what they have changed together with the exception.
-/

namespace TpQemu.BlockPlug

/-- The classes of `virttest.qemu_devices.qdevices` the module tells apart. -/
inductive DeviceClass where
  | qDevice
  | qObject
  | other
  deriving DecidableEq

structure Device where
  qid : String
  cls : DeviceClass
  /-- `get_param("backend")` -/
  backend : Option String
  /-- `get_param("bus")` -/
  bus : Option String
  deriving DecidableEq

structure Bus where
  busid : String
  /-- `len(bus)` -/
  size : Nat

/-- The virtual machine as virttest presents it. -/
structure Vm where
  /-- `vm.devices` -/
  devices : List Device
  /-- The devices defined for an image by its parameters. -/
  created : String → List Device
  /-- `vm.devices.get_buses(parent_bus, True)` for each parent bus of a device. -/
  buses : Device → List (List Bus)

/-- The fields of a `BlockDevicesPlug` object that the plug operations use. -/
structure Plug where
  imgs : List String
  hotpluggedDevs : Dict String (List Device)
  unpluggedDevs : Dict String (List Device)
  eventDevs : List String

/-- `HOTPLUGGED_HBAS`. -/
abbrev Hbas := Dict String Device

/-- `s.rsplit(".")[0]`. -/
def stem (s : String) : List Char := s.toList.takeWhile (· ≠ '.')

/-- `s.startswith("%s_" % img)`. -/
def startsWithImage (s img : String) : Bool := (img ++ "_").toList.isPrefixOf s.toList

/-- `s.endswith("_%s" % img)`. -/
def endsWithImage (s img : String) : Bool := ("_" ++ img).toList.isSuffixOf s.toList

/-! ## Hot plug -/

/-- `list.insert(-1, x)`. -/
def insertBeforeLast {α : Type} (x : α) (l : List α) : List α :=
  l.dropLast ++ x :: l.getLast?.toList

/-- The local state of `_create_devices` while it handles one image. -/
structure Creating where
  devs : List Device
  busName : Option (List Char)
  hbas : Hbas

/-- One device of the inner loop of `_create_devices`. -/
def createStep (vm : Vm) (img : String) (c : Creating) (dev : Device) : Creating :=
  if dev.cls = .qObject ∧ dev.backend = some "secret" ∧ startsWithImage dev.qid img then
    { c with devs := dev :: c.devs }
  else if endsWithImage dev.qid img ∨ dev.qid = img then
    match dev.bus with
    | some bus =>
        if bus = "" then { c with devs := dev :: c.devs }
        else { c with devs := dev :: c.devs, busName := some (stem bus) }
    | none => { c with devs := dev :: c.devs }
  else if c.busName = some dev.qid.toList ∧ dev ∉ vm.devices then
    { c with devs := insertBeforeLast dev c.devs, hbas := c.hbas.set img dev }
  else c

/-- `_create_devices(images, pci_bus)`; the bus only reaches virttest. -/
def createDevices (vm : Vm) (images : List String) (hbas : Hbas) :
    Dict String (List Device) × Hbas :=
  images.foldl (fun acc img =>
    let c := (vm.created img).reverse.foldl (createStep vm img) ⟨[], none, acc.2⟩
    (acc.1.set img c.devs, c.hbas)) (∅, hbas)

/-! ## Unplug -/

/-- The loop over the devices of the machine for one image, and whether it was left
by `break`. -/
def collectImage (img : String) : List Device → List Device → List Device × Bool
  | [], found => (found, false)
  | dev :: devs, found =>
      if dev.qid = img then (dev :: found, true)
      else if startsWithImage dev.qid img then collectImage img devs (dev :: found)
      else collectImage img devs found

/-- The loop over the images in `_unplug_devs`. -/
def collectImages (devs : List Device) :
    List String → Dict String (List Device) → Dict String (List Device) × Option PyError
  | [], d => (d, none)
  | img :: imgs, d =>
      let r := collectImage img devs []
      if r.2 then collectImages devs imgs (d.set img r.1)
      else (d.set img r.1,
        some (.testError ("No such device '" ++ img ++ "' in VM's devices.")))

/-- The buses of the device of an image: an HBA that was hot plugged for the image is
unplugged with it when the device is the last one on its bus. -/
def searchBuses (vm : Vm) (img : String) (dev : Device) (busName : List Char)
    (acc : List Device × Hbas) : List Device × Hbas :=
  (vm.buses dev).foldl (fun acc buses =>
    match buses.find? (fun bus => busName = stem bus.busid) with
    | some bus =>
        match acc.2.get? img with
        | some hba => if bus.size = 1 then (acc.1 ++ [hba], acc.2.erase img) else acc
        | none => acc
    | none => acc) acc

/-- The loop that searches the HBA of every collected image. -/
def searchHbas (vm : Vm) : List String → Dict String (List Device) → Hbas →
    Dict String (List Device) × Hbas × Option PyError
  | [], d, hbas => (d, hbas, none)
  | img :: imgs, d, hbas =>
      match d.get? img with
      | none => (d, hbas, some .keyError)
      | some devs =>
          match devs.find? (fun dev => dev.qid = img) with
          | none => (d, hbas, some .stopIteration)
          | some dev =>
              match dev.bus with
              | none => searchHbas vm imgs d hbas
              | some bus =>
                  if bus = "" then searchHbas vm imgs d hbas
                  else
                    let acc := searchBuses vm img dev (stem bus) (devs, hbas)
                    searchHbas vm imgs (d.set img acc.1) acc.2

/-- The first half of `_unplug_devs`: which devices each image consists of. -/
def collectDevices (vm : Vm) (images : List String) (hbas : Hbas) :
    Dict String (List Device) × Hbas × Option PyError :=
  let devs := vm.devices.filter fun dev => dev.cls = .qDevice ∨ dev.cls = .qObject
  match collectImages devs images ∅ with
  | (d, some e) => (d, hbas, some e)
  | (d, none) => searchHbas vm d.keys d hbas

theorem mem_keys_collectImages {devs : List Device} {imgs : List String}
    {d d' : Dict String (List Device)} (h : collectImages devs imgs d = (d', none)) (k : String) :
    k ∈ d'.keys ↔ k ∈ imgs ∨ k ∈ d.keys := by
  induction imgs generalizing d with
  | nil =>
      cases h
      simp
  | cons img imgs ih =>
      rw [collectImages] at h
      split at h
      · rw [ih h, Dict.mem_keys_set, List.mem_cons]
        tauto
      · cases h

theorem keys_searchHbas (vm : Vm) {imgs : List String} {d d' : Dict String (List Device)}
    {hbas hbas' : Hbas} {e : Option PyError} (h : searchHbas vm imgs d hbas = (d', hbas', e))
    (k : String) : k ∈ d'.keys ↔ k ∈ d.keys := by
  induction imgs generalizing d hbas with
  | nil =>
      cases h
      rfl
  | cons img imgs ih =>
      rw [searchHbas] at h
      split at h
      · cases h
        rfl
      · rename_i devs hdevs
        split at h
        · cases h
          rfl
        · split at h
          · exact ih h
          · split at h
            · exact ih h
            · rw [ih h, Dict.mem_keys_set]
              refine or_iff_right_of_imp ?_
              rintro rfl
              exact Dict.mem_keys_iff.mpr ⟨devs, hdevs⟩

/-- A collection that does not raise has the requested images as its keys. -/
theorem mem_keys_collectDevices {vm : Vm} {images : List String} {hbas hbas' : Hbas}
    {d : Dict String (List Device)} (h : collectDevices vm images hbas = (d, hbas', none))
    (k : String) : k ∈ d.keys ↔ k ∈ images := by
  rw [collectDevices] at h
  split at h
  · cases h
  · rename_i d₀ hcollect
    rw [keys_searchHbas vm h, mem_keys_collectImages hcollect]
    simp

end TpQemu.BlockPlug

import TpQemu.Lib.Dict
import TpQemu.Lib.Numeral
import TpQemu.Lib.Python

/-!
# The buses of the PCI test

The first half of `run` in `qemu/tests/pci_devices.py`: the text of the setup is read line by
line, and each line goes down a path of buses. A bus is an object that the path and the list of
the buses to use share, so that a slot taken later is also taken for a bus already listed;
here both hold references to the objects in the order they were made.
-/

namespace TpQemu.PciDevices

/-- A value of the parameters: a text, or an address the test puts there. -/
inductive Value where
  | text (s : String)
  | addr (n : Int)
  deriving DecidableEq

abbrev Params := Dict String Value

/-- A bus of qemu_devices, as far as it is read. -/
structure QBus where
  type : String
  firstPort : List Int
  addrLengths : List Int

/-- A device of qemu_devices, as far as it is read. -/
structure QDevice where
  aobject : String
  childBus : List QBus

/-- `PCIBusInfo`; the type tells PCI from PCIE. -/
structure PCIBusInfo where
  name : String
  type : Bool
  first : Int
  last : Int
  deriving DecidableEq

/-- `PCIBusInfo.__init__` -/
def pciBusInfo (device : QDevice) : Except PyError PCIBusInfo :=
  match device.childBus with
  | [] => .ok ⟨device.aobject, true, 0, 32⟩
  | bus :: _ => do
      let first ← orRaise .indexError bus.firstPort.head?
      let last ← orRaise .indexError bus.addrLengths.head?
      return ⟨device.aobject, bus.type = "PCI", first, last⟩

/-- `params[key] += text` -/
def addText (params : Params) (key text : String) : Except PyError Params :=
  match params.get? key with
  | some (.text s) => .ok (params.set key (.text (s ++ text)))
  | some (.addr _) => .error .typeError
  | none => .error .keyError

/-- `not params.get(key)` -/
def falsy (params : Params) (key : String) : Bool :=
  match params.get? key with
  | some (.text s) => s = ""
  | some (.addr n) => n = 0
  | none => true

/-! ## The text of the setup -/

/-- The pieces of a text, with this many characters left of the last separator. -/
def splitFrom (sep : List Char) : Nat → List Char → List Char → List (List Char)
  | _, piece, [] => [piece]
  | k + 1, piece, _ :: s => splitFrom sep k piece s
  | 0, piece, c :: s =>
      if sep <+: c :: s then piece :: splitFrom sep (sep.length - 1) [] s
      else splitFrom sep 0 (piece ++ [c]) s

/-- `s.split(sep)` -/
def split (s sep : String) : List String :=
  (splitFrom sep.toList 0 [] s.toList).map String.ofList

/-- The devices of a line. -/
def pieces (line : String) : List String :=
  (split line "->").map fun device => String.ofList (Numeral.strip device.toList)

/-! ## The loop -/

structure Topology where
  params : Params
  /-- the bus objects, in the order they were made -/
  buses : List PCIBusInfo
  lasts : List Nat
  useBuses : List Nat
  names : Dict String Nat
  log : List String

section Loop

-- `qdev.pcic_by_params(name, params.object_params(name))`, which is not of this repository.
variable (pcic : String → Params → Except PyError QDevice)

/-- The type of the controller. -/
def controllerType (busType : String) (parentBus : PCIBusInfo) : String :=
  if busType = "bridge" then
    if parentBus.type = true then "pci-bridge" else "i82801b11-bridge"
  else if busType = "switch" then "x3130"
  else if busType = "root" then "ioh3420"
  else busType

/-- `add_bus` -/
def addBus (params : Params) (busType name : String) (parentBus : PCIBusInfo) :
    Except PyError (Params × PCIBusInfo) := do
  let params ← addText params "pci_controllers" (" " ++ name)
  let params := params.set ("type_" ++ name) (.text (controllerType busType parentBus))
  let params := params.set ("pci_bus_" ++ name) (.text parentBus.name)
  let device ← pcic name params
  let bus ← pciBusInfo device
  return (params, bus)

/-- The bus object at a place of the path. -/
def Topology.last (t : Topology) (idx : Nat) : Except PyError (Nat × PCIBusInfo) := do
  let ref ← orRaise .indexError t.lasts[idx]?
  let bus ← orRaise .indexError t.buses[ref]?
  return (ref, bus)

/-- A device that is a bus is put into the bus at this place of the path, which becomes the
path to the new bus; gives also the name. -/
def insertBus (t : Topology) (idx : Nat) (device : String) :
    Except PyError (Topology × String) := do
  let number := (t.names.get? device).getD 0 + 1
  let name := "test_pci_" ++ device ++ Numeral.decimal number
  let (ref, parentBus) ← t.last idx
  let (params, bus) ← addBus pcic t.params device name parentBus
  -- we inserted a device, increase the upper bus first idx
  let buses := t.buses.modify ref fun bus => { bus with first := bus.first + 1 }
  return ({ t with
    params := params
    buses := buses ++ [bus]
    lasts := t.lasts.take (idx + 1) ++ [t.buses.length]
    names := t.names.set device number }, name)

/-- The rest of a line, from this place of the path on. -/
def runLine : List String → Topology → Nat → String → Except PyError Topology
  | [], t, _, out => .ok { t with log := t.log ++ [out] }
  | device :: rest, t, idx, out =>
      if device = "" then do
        let (_, bus) ← t.last (idx + 1)
        runLine rest t (idx + 1) (out ++ String.ofList (List.replicate (bus.name.length + 2) ' '))
      else if device = "devices" then do
        let (ref, _) ← t.last idx
        return { t with
          useBuses := t.useBuses ++ [ref]
          log := t.log ++ [out ++ "->(test_devices)"] }
      else do
        let (t, name) ← insertBus pcic t idx device
        runLine rest t (idx + 1) (out ++ "->" ++ name)

/-- What the loop starts with, for the devices that are found as `pci.0`. -/
def start (params : Params) (found : List QDevice) : Except PyError Topology := do
  let params := if falsy params "pci_controllers" then params.set "pci_controllers" (.text "")
    else params
  let device ← orRaise .indexError found.head?
  let bus ← pciBusInfo device
  return {
    params := params
    -- first 6 slots might be already occupied on pci.0, last port is usually used by the VM
    buses := [{ bus with first := 7, last := bus.last - 1 }]
    lasts := [0]
    useBuses := []
    names := ∅
    log := [] }

/-- The loop over the lines; they are separated by a backslash and an n. -/
def topology (params : Params) (found : List QDevice) (testSetup : String) :
    Except PyError Topology := do
  let t ← start params found
  (split testSetup "\\n").foldlM (fun t line => runLine pcic (pieces line) t 0 "") t

end Loop

/-- The buses to use, as the loop leaves them. -/
def Topology.used (t : Topology) : List PCIBusInfo := t.useBuses.filterMap (t.buses[·]?)

/-! ## The loop -/

section Induction

variable {pcic : String → Params → Except PyError QDevice}

/-- What a line preserves is preserved by the whole loop. -/
theorem topology_induction {P : Topology → Prop} {params : Params} {found : List QDevice}
    {testSetup : String} {t : Topology} (h : topology pcic params found testSetup = .ok t)
    (hstart : ∀ t₀, start params found = .ok t₀ → P t₀)
    (hline : ∀ t₀ t₁ line, P t₀ → runLine pcic (pieces line) t₀ 0 "" = .ok t₁ → P t₁) : P t := by
  rw [topology] at h
  obtain ⟨t₀, ht₀, h⟩ := ok_of_bind_eq_ok h
  have hP := hstart t₀ ht₀
  clear ht₀
  generalize split testSetup "\\n" = lines at h
  induction lines generalizing t₀ with
  | nil =>
      cases h
      exact hP
  | cons line lines ih =>
      rw [List.foldlM_cons] at h
      obtain ⟨t₁, ht₁, h⟩ := ok_of_bind_eq_ok h
      exact ih t₁ (hline t₀ t₁ line hP ht₁) h

end Induction

end TpQemu.PciDevices

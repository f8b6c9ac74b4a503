import TpQemu.PciDevices.Topology
import Mathlib.Data.List.Nodup

/-!
# Placing the test devices

The second half of `run` in `qemu/tests/pci_devices.py`: every bus to use gets its test devices,
at its first slot, at all its slots, or at the first, a random and the last one. Nothing is
recorded on the bus, so that a bus listed twice gets its devices twice at the same slots.
-/

namespace TpQemu.PciDevices

/-- A test device, as the log has it. -/
structure Placed where
  name : String
  type : String
  bus : String
  addr : Int
  deriving DecidableEq

/-- Where a device sits. -/
def Placed.place (d : Placed) : String × Int := (d.bus, d.addr)

/-- The numbers drawn at random, for ports and for the types of devices. -/
structure Choices where
  port : Nat → Nat
  variant : Nat → Nat

/-- `test_devices` -/
inductive Mode where
  | first
  | all
  | random
  deriving DecidableEq

def mode (testDevices : String) : Mode :=
  if testDevices = "first" then .first else if testDevices = "all" then .all else .random

structure Placement where
  params : Params
  nameIdxs : Dict String Nat
  portsDrawn : Nat
  variantsDrawn : Nat
  /-- the devices logged so far -/
  devices : List Placed

/-! ## Adding a device -/

/-- `%x` -/
def hex (n : Int) : String :=
  let digits := String.ofList (Nat.toDigits 16 n.natAbs)
  if n < 0 then "-" ++ digits else digits

/-- The last lines of the functions that add a device. -/
def reserveSlot (params : Params) (parentBus : String) (addr : Int) : Except PyError Params :=
  let key := "reserved_slots_" ++ parentBus
  let params := if falsy params key then params.set key (.text "") else params
  addText params key (" 0x" ++ hex addr ++ "-0x0")

/-- What describes a USB controller. -/
def setUsb (params : Params) (name parentBus : String) (addr : Int) (type : String) : Params :=
  let params := params.set ("pci_bus_" ++ name) (.text parentBus)
  let params := params.set ("pci_addr_" ++ name) (.addr addr)
  params.set ("usb_type_" ++ name) (.text type)

/-- `add_device_usb` -/
def addDeviceUsb (s : Placement) (parentBus : String) (addr : Int) (device : String × String) :
    Except PyError Placement := do
  let idx := (s.nameIdxs.get? device.1).getD 0 + 1
  let name := "test_" ++ device.1 ++ Numeral.decimal idx
  let params ← addText s.params "usbs" (" " ++ name)
  let params ← reserveSlot (setUsb params name parentBus addr device.2) parentBus addr
  return { s with
    params := params
    nameIdxs := s.nameIdxs.set device.1 idx
    devices := s.devices ++ [⟨name, device.2, parentBus, addr⟩] }

def addDeviceUsbUhci (s : Placement) (parentBus : String) (addr : Int) :
    Except PyError Placement :=
  addDeviceUsb s parentBus addr ("uhci", "ich9-usb-uhci1")

def addDeviceUsbEhci (s : Placement) (parentBus : String) (addr : Int) :
    Except PyError Placement :=
  addDeviceUsb s parentBus addr ("ehci", "usb-ehci")

def addDeviceUsbXhci (s : Placement) (parentBus : String) (addr : Int) :
    Except PyError Placement :=
  addDeviceUsb s parentBus addr ("xhci", "nec-usb-xhci")

/-- What describes a disk. -/
def setDisk (params : Params) (name parentBus : String) (addr : Int) : Params :=
  let params := params.set ("image_name_" ++ name) (.text ("images/" ++ name))
  let params := params.set ("pci_bus_" ++ name) (.text parentBus)
  let params := params.set ("drive_bus_" ++ name) (.addr addr)
  let params := params.set ("drive_format_" ++ name) (.text "virtio")
  let params := params.set ("force_create_image_" ++ name) (.text "yes")
  let params := params.set ("remove_image_" ++ name) (.text "yes")
  params.set ("image_size_" ++ name) (.text "1M")

/-- `add_virtio_disk` -/
def addVirtioDisk (s : Placement) (parentBus : String) (addr : Int) :
    Except PyError Placement := do
  let idx := (s.nameIdxs.get? "virtio_disk").getD 0 + 1
  let name := "test_virtio_disk" ++ Numeral.decimal idx
  let params ← addText s.params "images" (" " ++ name)
  let params ← reserveSlot (setDisk params name parentBus addr) parentBus addr
  return { s with
    params := params
    nameIdxs := s.nameIdxs.set "virtio_disk" idx
    devices := s.devices ++ [⟨name, "virtio_disk", parentBus, addr⟩] }

section Random

variable (choices : Choices)

/-- `add_device_random` -/
def addDeviceRandom (s : Placement) (parentBus : String) (addr : Int) :
    Except PyError Placement :=
  let drawn := { s with variantsDrawn := s.variantsDrawn + 1 }
  match choices.variant s.variantsDrawn % 4 with
  | 0 => addDeviceUsbUhci drawn parentBus addr
  | 1 => addDeviceUsbEhci drawn parentBus addr
  | 2 => addDeviceUsbXhci drawn parentBus addr
  | _ => addVirtioDisk drawn parentBus addr

/-- The function for `test_device_type`. -/
def addDevice (testDeviceType : String) :
    Placement → String → Int → Except PyError Placement :=
  if testDeviceType = "uhci" then addDeviceUsbUhci
  else if testDeviceType = "ehci" then addDeviceUsbEhci
  else if testDeviceType = "xhci" then addDeviceUsbXhci
  else if testDeviceType = "virtio_disk" then addVirtioDisk
  else addDeviceRandom choices

/-! ## Adding the devices of a bus -/

/-- `random.randrange` -/
def randrange (s : Placement) (lower upper : Int) : Except PyError (Int × Placement) :=
  if lower < upper then
    .ok (lower + (choices.port s.portsDrawn : Int) % (upper - lower),
      { s with portsDrawn := s.portsDrawn + 1 })
  else .error .valueError

variable (add : Placement → String → Int → Except PyError Placement)

def addDevicesFirst (s : Placement) (bus : PCIBusInfo) : Except PyError Placement :=
  add s bus.name bus.first

def addDevicesAll (s : Placement) (bus : PCIBusInfo) : Except PyError Placement :=
  (range bus.first bus.last).foldlM (fun s addr => add s bus.name addr) s

def addDevicesRandom (s : Placement) (bus : PCIBusInfo) : Except PyError Placement := do
  let s ← add s bus.name bus.first
  let (addr, s) ← randrange choices s (bus.first + 1) (bus.last - 1)
  let s ← add s bus.name addr
  add s bus.name (bus.last - 1)

def addDevices : Mode → Placement → PCIBusInfo → Except PyError Placement
  | .first => addDevicesFirst add
  | .all => addDevicesAll add
  | .random => addDevicesRandom choices add

/-- The loop over the buses to use; gives also what each bus got in its turn. -/
def placeDevices (m : Mode) :
    List PCIBusInfo → Placement → Except PyError (Placement × List (PCIBusInfo × List Placed))
  | [], s => .ok (s, [])
  | bus :: buses, s => do
      let s' ← addDevices choices add m s bus
      let (e, turns) ← placeDevices m buses s'
      return (e, (bus, s'.devices.drop s.devices.length) :: turns)

end Random

/-- The placement, for the parameters and the buses the topology leaves. -/
def place (choices : Choices) (testDevices testDeviceType : String) (t : Topology) :
    Except PyError (Placement × List (PCIBusInfo × List Placed)) :=
  placeDevices choices (addDevice choices testDeviceType) (mode testDevices) t.used
    ⟨t.params, ∅, 0, 0, []⟩

/-! ## What is added -/

/-- The parameters with the lists that devices are added to, and with texts for the reserved
slots. -/
structure Ready (params : Params) : Prop where
  usbs : ∃ s, params.get? "usbs" = some (.text s)
  images : ∃ s, params.get? "images" = some (.text s)
  reserved : ∀ bus n, params.get? ("reserved_slots_" ++ bus) ≠ some (.addr n)

theorem Ready.set_text {params : Params} (h : Ready params) (key s : String) :
    Ready (params.set key (.text s)) := by
  obtain ⟨⟨u, husbs⟩, ⟨i, himages⟩, hreserved⟩ := h
  refine ⟨?_, ?_, fun bus n => ?_⟩
  · rw [Dict.get?_set]
    split
    · exact ⟨s, rfl⟩
    · exact ⟨u, husbs⟩
  · rw [Dict.get?_set]
    split
    · exact ⟨s, rfl⟩
    · exact ⟨i, himages⟩
  · rw [Dict.get?_set]
    split
    · simp
    · exact hreserved bus n

/-- An address is put under a key that starts like no key of a text. -/
theorem Ready.set_addr {params : Params} (h : Ready params) (key : String) (n : Int)
    (hkey : key.toList.head? = some 'p' ∨ key.toList.head? = some 'd') :
    Ready (params.set key (.addr n)) := by
  obtain ⟨husbs, himages, hreserved⟩ := h
  have hne : ∀ {other : String}, other.toList.head? ≠ some 'p' → other.toList.head? ≠ some 'd' →
      other ≠ key := by
    rintro other hp hd rfl
    exact hkey.elim hp hd
  refine ⟨?_, ?_, fun bus m => ?_⟩
  · rwa [Dict.get?_set_ne _ (hne (by decide) (by decide))]
  · rwa [Dict.get?_set_ne _ (hne (by decide) (by decide))]
  · rw [Dict.get?_set_ne _ (hne (by simp) (by simp))]
    exact hreserved bus m

theorem addText_eq_ok {params params' : Params} {key s : String}
    (h : addText params key s = .ok params') : ∃ t, params' = params.set key (.text t) := by
  rw [addText] at h
  split at h
  · exact ⟨_, (Except.ok.inj h).symm⟩
  · cases h
  · cases h

theorem Ready.addText {params params' : Params} {key s : String} (hready : Ready params)
    (h : addText params key s = .ok params') : Ready params' := by
  obtain ⟨t, rfl⟩ := addText_eq_ok h
  exact hready.set_text key t

theorem exists_addText {params : Params} {key s : String} (h : params.get? key = some (.text s))
    (t : String) : ∃ params', PciDevices.addText params key t = .ok params' := by
  rw [PciDevices.addText, h]
  exact ⟨_, rfl⟩

theorem Ready.reserveSlot {params : Params} (h : Ready params) (parentBus : String) (addr : Int) :
    ∃ params', reserveSlot params parentBus addr = .ok params' ∧ Ready params' := by
  rw [PciDevices.reserveSlot]
  by_cases hfalsy : falsy params ("reserved_slots_" ++ parentBus) = true
  · rw [if_pos hfalsy]
    obtain ⟨params', hok⟩ := exists_addText (Dict.get?_set_self params _ (.text ""))
      (" 0x" ++ hex addr ++ "-0x0")
    exact ⟨params', hok, (h.set_text _ _).addText hok⟩
  · rw [if_neg hfalsy]
    rw [falsy] at hfalsy
    split at hfalsy
    · rename_i s hs
      obtain ⟨params', hok⟩ := exists_addText hs (" 0x" ++ hex addr ++ "-0x0")
      exact ⟨params', hok, h.addText hok⟩
    · rename_i n hn
      exact absurd hn (h.reserved parentBus n)
    · exact absurd rfl hfalsy

/-- Devices are added at these places, and this many ports are drawn. -/
structure Added (s s' : Placement) (drawn : Nat) (places : List (String × Int)) : Prop where
  ready : Ready s'.params
  portsDrawn : s'.portsDrawn = s.portsDrawn + drawn
  devices : ∃ ds, s'.devices = s.devices ++ ds ∧ ds.map Placed.place = places

theorem Added.refl {s : Placement} (h : Ready s.params) : Added s s 0 [] :=
  ⟨h, rfl, [], (List.append_nil _).symm, rfl⟩

theorem Added.trans {s s' s'' : Placement} {m n : Nat} {ps qs : List (String × Int)}
    (h : Added s s' m ps) (h' : Added s' s'' n qs) : Added s s'' (m + n) (ps ++ qs) := by
  obtain ⟨ds, hds, hps⟩ := h.devices
  obtain ⟨ds', hds', hqs⟩ := h'.devices
  refine ⟨h'.ready, ?_, ds ++ ds', ?_, ?_⟩
  · rw [h'.portsDrawn, h.portsDrawn, Nat.add_assoc]
  · rw [hds', hds, List.append_assoc]
  · rw [List.map_append, hps, hqs]

/-- A function that adds one device where it is told to. -/
def Adds (add : Placement → String → Int → Except PyError Placement) : Prop :=
  ∀ s parentBus addr, Ready s.params →
    ∃ s', add s parentBus addr = .ok s' ∧ Added s s' 0 [(parentBus, addr)]

theorem Ready.setUsb {params : Params} (h : Ready params) (name parentBus : String) (addr : Int)
    (type : String) : Ready (setUsb params name parentBus addr type) := by
  have haddr := (h.set_text ("pci_bus_" ++ name) parentBus).set_addr ("pci_addr_" ++ name) addr
    (.inl (by simp))
  exact haddr.set_text _ _

theorem Ready.setDisk {params : Params} (h : Ready params) (name parentBus : String) (addr : Int) :
    Ready (setDisk params name parentBus addr) := by
  have hbus := (h.set_text ("image_name_" ++ name) ("images/" ++ name)).set_text
    ("pci_bus_" ++ name) parentBus
  have haddr := hbus.set_addr ("drive_bus_" ++ name) addr (.inr (by simp))
  exact (((haddr.set_text _ _).set_text _ _).set_text _ _).set_text _ _

theorem adds_addDeviceUsb (device : String × String) :
    Adds fun s parentBus addr => addDeviceUsb s parentBus addr device := by
  intro s parentBus addr hready
  obtain ⟨u, husbs⟩ := hready.usbs
  simp only [addDeviceUsb]
  obtain ⟨params, hparams⟩ := exists_addText husbs
    (" " ++ ("test_" ++ device.1 ++
      Numeral.decimal (((s.nameIdxs.get? device.1).getD 0 + 1 : Nat))))
  rw [bind_of_eq_ok hparams]
  obtain ⟨params', hparams', hready'⟩ :=
    ((hready.addText hparams).setUsb _ parentBus addr device.2).reserveSlot parentBus addr
  rw [bind_of_eq_ok hparams']
  exact ⟨_, rfl, hready', rfl, _, rfl, rfl⟩

theorem adds_addVirtioDisk : Adds addVirtioDisk := by
  intro s parentBus addr hready
  obtain ⟨i, himages⟩ := hready.images
  simp only [addVirtioDisk]
  obtain ⟨params, hparams⟩ := exists_addText himages
    (" " ++ ("test_virtio_disk" ++
      Numeral.decimal (((s.nameIdxs.get? "virtio_disk").getD 0 + 1 : Nat))))
  rw [bind_of_eq_ok hparams]
  obtain ⟨params', hparams', hready'⟩ :=
    ((hready.addText hparams).setDisk _ parentBus addr).reserveSlot parentBus addr
  rw [bind_of_eq_ok hparams']
  exact ⟨_, rfl, hready', rfl, _, rfl, rfl⟩

theorem adds_addDeviceRandom (choices : Choices) : Adds (addDeviceRandom choices) := by
  intro s parentBus addr hready
  -- what is drawn counts for none of the facts about a device
  have hadd : ∀ {add}, Adds add → ∃ s',
      add { s with variantsDrawn := s.variantsDrawn + 1 } parentBus addr = .ok s' ∧
        Added s s' 0 [(parentBus, addr)] := by
    intro add hadds
    obtain ⟨s', hok, hadded⟩ := hadds { s with variantsDrawn := s.variantsDrawn + 1 } parentBus addr
      hready
    exact ⟨s', hok, hadded.ready, hadded.portsDrawn, hadded.devices⟩
  rw [addDeviceRandom]
  split
  · exact hadd (adds_addDeviceUsb _)
  · exact hadd (adds_addDeviceUsb _)
  · exact hadd (adds_addDeviceUsb _)
  · exact hadd adds_addVirtioDisk

theorem adds_addDevice (choices : Choices) (testDeviceType : String) :
    Adds (addDevice choices testDeviceType) := by
  rw [addDevice]
  split
  · exact adds_addDeviceUsb _
  split
  · exact adds_addDeviceUsb _
  split
  · exact adds_addDeviceUsb _
  split
  · exact adds_addVirtioDisk
  · exact adds_addDeviceRandom choices

/-! ## What a bus gets -/

/-- The slots of a bus that get a device, for the number drawn. -/
def slots (bus : PCIBusInfo) (draw : Nat) : Mode → List Int
  | .first => [bus.first]
  | .all => range bus.first bus.last
  | .random =>
      [bus.first, bus.first + 1 + (draw : Int) % (bus.last - 1 - (bus.first + 1)), bus.last - 1]

/-- The places a bus gives to devices. -/
def places (bus : PCIBusInfo) (draw : Nat) (m : Mode) : List (String × Int) :=
  (slots bus draw m).map fun addr => (bus.name, addr)

/-- The ports a mode draws for a bus. -/
def drawn : Mode → Nat
  | .random => 1
  | _ => 0

section Bus

variable {choices : Choices} {add : Placement → String → Int → Except PyError Placement}
  (hadd : Adds add)

include hadd

theorem foldlM_added (bus : String) (addrs : List Int) {s : Placement} (hready : Ready s.params) :
    ∃ s', addrs.foldlM (fun s addr => add s bus addr) s = .ok s' ∧
      Added s s' 0 (addrs.map fun addr => (bus, addr)) := by
  induction addrs generalizing s with
  | nil => exact ⟨s, rfl, .refl hready⟩
  | cons addr addrs ih =>
      obtain ⟨s₁, hs₁, hadded₁⟩ := hadd s bus addr hready
      obtain ⟨s₂, hs₂, hadded₂⟩ := ih hadded₁.ready
      refine ⟨s₂, ?_, hadded₁.trans hadded₂⟩
      rw [List.foldlM_cons, bind_of_eq_ok hs₁, hs₂]

theorem addDevicesRandom_added {bus : PCIBusInfo} (hroom : bus.first + 1 < bus.last - 1)
    {s : Placement} (hready : Ready s.params) :
    ∃ s', addDevicesRandom choices add s bus = .ok s' ∧
      Added s s' 1 (places bus (choices.port s.portsDrawn) .random) := by
  obtain ⟨s₁, hs₁, hadded₁⟩ := hadd s bus.name bus.first hready
  obtain ⟨s₂, hs₂, hadded₂⟩ := hadd { s₁ with portsDrawn := s₁.portsDrawn + 1 } bus.name
    (bus.first + 1 + (choices.port s₁.portsDrawn : Int) % (bus.last - 1 - (bus.first + 1)))
    hadded₁.ready
  obtain ⟨s₃, hs₃, hadded₃⟩ := hadd s₂ bus.name (bus.last - 1) hadded₂.ready
  have hdraw : Added s₁ { s₁ with portsDrawn := s₁.portsDrawn + 1 } 1 [] :=
    ⟨hadded₁.ready, rfl, [], (List.append_nil _).symm, rfl⟩
  have hports : s₁.portsDrawn = s.portsDrawn := hadded₁.portsDrawn
  refine ⟨s₃, ?_, ?_⟩
  · rw [addDevicesRandom, bind_of_eq_ok hs₁, randrange, if_pos hroom]
    exact (bind_of_eq_ok hs₂ _).trans hs₃
  · have h := ((hadded₁.trans hdraw).trans hadded₂).trans hadded₃
    rw [hports] at h
    exact h

variable (choices) in
/-- A bus with enough room gets its devices. -/
theorem addDevices_added {m : Mode} {bus : PCIBusInfo}
    (hroom : m = .random → bus.first + 1 < bus.last - 1) {s : Placement}
    (hready : Ready s.params) :
    ∃ s', addDevices choices add m s bus = .ok s' ∧
      Added s s' (drawn m) (places bus (choices.port s.portsDrawn) m) := by
  cases m with
  | first => exact hadd s bus.name bus.first hready
  | all => exact foldlM_added hadd bus.name (range bus.first bus.last) hready
  | random => exact addDevicesRandom_added hadd (hroom rfl) hready

omit hadd in
/-- No port can be drawn for a bus without room. -/
theorem room_of_addDevices {m : Mode} {bus : PCIBusInfo} {s s' : Placement}
    (h : addDevices choices add m s bus = .ok s') (hm : m = .random) :
    bus.first + 1 < bus.last - 1 := by
  subst hm
  rw [addDevices, addDevicesRandom] at h
  obtain ⟨s₁, -, h⟩ := ok_of_bind_eq_ok h
  obtain ⟨r, hr, -⟩ := ok_of_bind_eq_ok h
  rw [randrange] at hr
  split at hr
  · assumption
  · cases hr

/-! ## The loop over the buses -/

omit hadd in
theorem room_of_placeDevices {m : Mode} {buses : List PCIBusInfo} {s : Placement}
    {r : Placement × List (PCIBusInfo × List Placed)}
    (h : placeDevices choices add m buses s = .ok r) (hm : m = .random) :
    ∀ bus ∈ buses, bus.first + 1 < bus.last - 1 := by
  induction buses generalizing s r with
  | nil => simp
  | cons bus buses ih =>
      rw [placeDevices] at h
      obtain ⟨s', hs', h⟩ := ok_of_bind_eq_ok h
      obtain ⟨r', hr', -⟩ := ok_of_bind_eq_ok h
      exact List.forall_mem_cons.mpr ⟨room_of_addDevices hs' hm, ih hr'⟩

omit hadd in
/-- The number drawn matters for the random mode only. -/
theorem places_congr {m : Mode} {bus : PCIBusInfo} {k n : Nat} (h : m = .random → k = n) :
    places bus (choices.port k) m = places bus (choices.port n) m := by
  cases m with
  | first => rfl
  | all => rfl
  | random => rw [h rfl]

/-- With enough room on each bus, the buses get their devices one after the other. -/
theorem placeDevices_added {m : Mode} {buses : List PCIBusInfo}
    (hroom : ∀ bus ∈ buses, m = .random → bus.first + 1 < bus.last - 1) {s : Placement}
    (hready : Ready s.params) {n : Nat} (hn : m = .random → s.portsDrawn = n) :
    ∃ e turns, placeDevices choices add m buses s = .ok (e, turns) ∧
      e.devices = s.devices ++ turns.flatMap Prod.snd ∧
      turns.map (fun turn => (turn.1, turn.2.map Placed.place)) =
        (buses.zipIdx n).map fun p => (p.1, places p.1 (choices.port p.2) m) := by
  induction buses generalizing s n with
  | nil => exact ⟨s, [], rfl, (List.append_nil _).symm, rfl⟩
  | cons bus buses ih =>
      obtain ⟨hbus, hbuses⟩ := List.forall_mem_cons.mp hroom
      obtain ⟨s', hs', hadded⟩ := addDevices_added choices hadd hbus hready
      have hn' : m = .random → s'.portsDrawn = n + 1 := by
        intro hm
        rw [hadded.portsDrawn, hn hm, hm, drawn]
      obtain ⟨e, turns, hrest, hdevices, hturns⟩ := ih hbuses hadded.ready hn'
      obtain ⟨ds, hds, hplaces⟩ := hadded.devices
      have hdrop : s'.devices.drop s.devices.length = ds := by rw [hds, List.drop_left]
      refine ⟨e, (bus, ds) :: turns, ?_, ?_, ?_⟩
      · rw [placeDevices, bind_of_eq_ok hs', bind_of_eq_ok hrest, hdrop]
        rfl
      · rw [hdevices, hds, List.flatMap_cons, List.append_assoc]
      · rw [List.map_cons, List.zipIdx_cons, List.map_cons, hturns, hplaces, places_congr hn]

end Bus

/-! ## Devices that never collide -/

/-- The slots of a bus that can get a device. -/
def reach (bus : PCIBusInfo) : Mode → List Int
  | .first => [bus.first]
  | .all => range bus.first bus.last
  | .random => range bus.first bus.last

/-- The room a bus needs. -/
def Room (bus : PCIBusInfo) : Mode → Prop
  | .first => bus.first < bus.last
  | .all => True
  | .random => bus.first + 1 < bus.last - 1

/-- Each bus has the room it needs, and none that is listed again, or has the name of another
one, has slots that can get a device twice. -/
structure Placeable (m : Mode) (buses : List PCIBusInfo) : Prop where
  room : ∀ bus ∈ buses, Room bus m
  apart : buses.Pairwise fun b c => b.name = c.name → (reach b m).Disjoint (reach c m)

/-- Every device has a slot of its bus, and no two have the same bus and address. -/
structure Apart (e : Placement) (turns : List (PCIBusInfo × List Placed)) : Prop where
  devices : e.devices = turns.flatMap Prod.snd
  inside : ∀ turn ∈ turns, ∀ d ∈ turn.2,
    d.bus = turn.1.name ∧ turn.1.first ≤ d.addr ∧ d.addr < turn.1.last
  distinct : (e.devices.map Placed.place).Nodup

/-- Nothing is raised, and the devices are apart. -/
def Clear (outcome : Except PyError (Placement × List (PCIBusInfo × List Placed))) : Prop :=
  ∃ e turns, outcome = .ok (e, turns) ∧ Apart e turns

section Slots

variable {bus : PCIBusInfo} {m : Mode} {draw : Nat}

variable (draw) in
theorem random_slot (hroom : bus.first + 1 < bus.last - 1) :
    bus.first + 1 ≤ bus.first + 1 + (draw : Int) % (bus.last - 1 - (bus.first + 1)) ∧
      bus.first + 1 + (draw : Int) % (bus.last - 1 - (bus.first + 1)) < bus.last - 1 := by
  have hpos : (0 : Int) < bus.last - 1 - (bus.first + 1) := by omega
  have hlow := Int.emod_nonneg (draw : Int) hpos.ne'
  have hhigh := Int.emod_lt_of_pos (draw : Int) hpos
  omega

theorem mem_reach_of_mem_slots (hroom : Room bus m) {addr : Int} (h : addr ∈ slots bus draw m) :
    addr ∈ reach bus m := by
  cases m with
  | first => exact h
  | all => exact h
  | random =>
      have hslot := random_slot draw hroom
      simp only [Room] at hroom
      simp only [slots, List.mem_cons, List.not_mem_nil, or_false] at h
      rw [reach, mem_range]
      omega

theorem inside_of_mem_reach (hroom : Room bus m) {addr : Int} (h : addr ∈ reach bus m) :
    bus.first ≤ addr ∧ addr < bus.last := by
  cases m with
  | first =>
      rw [List.mem_singleton.mp h]
      exact ⟨le_rfl, hroom⟩
  | all => exact mem_range.mp h
  | random => exact mem_range.mp h

theorem nodup_slots (hroom : Room bus m) : (slots bus draw m).Nodup := by
  cases m with
  | first => exact List.nodup_singleton _
  | all => exact nodup_range _ _
  | random =>
      have hslot := random_slot draw hroom
      simp only [Room] at hroom
      simp only [slots, List.nodup_cons, List.mem_cons, List.not_mem_nil, or_false]
      refine ⟨?_, ?_, not_false, List.nodup_nil⟩
      · omega
      · omega

/-- Each slot that can get a device does get it, for a suitable number drawn. -/
theorem mem_slots_of_mem_reach {addr : Int} (h : addr ∈ reach bus m) :
    addr ∈ slots bus (addr - (bus.first + 1)).toNat m := by
  cases m with
  | first => exact h
  | all => exact h
  | random =>
      obtain ⟨hlow, hhigh⟩ := mem_range.mp h
      simp only [slots, List.mem_cons, List.not_mem_nil, or_false]
      obtain hfirst | hfirst := eq_or_ne addr bus.first
      · exact .inl hfirst
      obtain hlast | hlast := eq_or_ne addr (bus.last - 1)
      · exact .inr (.inr hlast)
      · refine .inr (.inl ?_)
        rw [Int.toNat_of_nonneg (by omega), Int.emod_eq_of_lt (by omega) (by omega)]
        omega

end Slots

section Outcome

variable {choices : Choices} {m : Mode} {buses : List PCIBusInfo} {e : Placement}
  {turns : List (PCIBusInfo × List Placed)}

/-- What is known of the turns after a placement. -/
def Turns (choices : Choices) (m : Mode) (buses : List PCIBusInfo)
    (turns : List (PCIBusInfo × List Placed)) : Prop :=
  turns.map (fun turn => (turn.1, turn.2.map Placed.place)) =
    (buses.zipIdx 0).map fun p => (p.1, places p.1 (choices.port p.2) m)

theorem Turns.places_eq (h : Turns choices m buses turns) :
    (turns.flatMap Prod.snd).map Placed.place =
      (buses.zipIdx 0).flatMap fun p => places p.1 (choices.port p.2) m := by
  have h' := congrArg (List.flatMap Prod.snd) h
  rwa [List.flatMap_map, List.flatMap_map, ← List.map_flatMap] at h'

theorem mem_places_iff {bus : PCIBusInfo} {draw : Nat} {p : String × Int} :
    p ∈ places bus draw m ↔ p.1 = bus.name ∧ p.2 ∈ slots bus draw m := by
  rw [places, List.mem_map]
  constructor
  · rintro ⟨addr, haddr, rfl⟩
    exact ⟨rfl, haddr⟩
  · rintro ⟨hname, haddr⟩
    exact ⟨p.2, haddr, Prod.ext hname.symm rfl⟩

/-- A device is placed in the turn of a bus exactly if it has a slot there. -/
theorem Turns.exists_iff (h : Turns choices m buses turns) {bus : PCIBusInfo}
    {ps : List (String × Int)} :
    (∃ ds, (bus, ds) ∈ turns ∧ ds.map Placed.place = ps) ↔
      ∃ k, buses[k]? = some bus ∧ places bus (choices.port k) m = ps := by
  have hmem : (bus, ps) ∈ turns.map (fun turn => (turn.1, turn.2.map Placed.place)) ↔
      (bus, ps) ∈ (buses.zipIdx 0).map fun p => (p.1, places p.1 (choices.port p.2) m) := by
    rw [h]
  simpa [List.mem_zipIdx_iff_getElem?, and_assoc] using hmem

theorem Turns.inside (h : Turns choices m buses turns) (hroom : ∀ bus ∈ buses, Room bus m) :
    ∀ turn ∈ turns, ∀ d ∈ turn.2,
      d.bus = turn.1.name ∧ turn.1.first ≤ d.addr ∧ d.addr < turn.1.last := by
  rintro ⟨bus, ds⟩ hturn d hd
  obtain ⟨k, hk, hplaces⟩ := h.exists_iff.mp ⟨ds, hturn, rfl⟩
  have hmem : d.place ∈ places bus (choices.port k) m := hplaces ▸ List.mem_map_of_mem hd
  obtain ⟨hname, haddr⟩ := mem_places_iff.mp hmem
  have hbus := hroom bus (List.mem_of_getElem? hk)
  exact ⟨hname, inside_of_mem_reach hbus (mem_reach_of_mem_slots hbus haddr)⟩

theorem Turns.distinct (h : Turns choices m buses turns) (hp : Placeable m buses) :
    ((turns.flatMap Prod.snd).map Placed.place).Nodup := by
  rw [h.places_eq, List.nodup_flatMap]
  constructor
  · rintro ⟨bus, k⟩ hbus
    have hroom := hp.room bus (List.fst_mem_of_mem_zipIdx hbus)
    exact (nodup_slots hroom).map fun a b hab => (Prod.mk.inj hab).2
  · rw [List.pairwise_iff_getElem]
    intro i j hi hj hij p hpi hpj
    simp only [List.getElem_zipIdx, mem_places_iff] at hpi hpj
    have hi' : i < buses.length := by simpa using hi
    have hj' : j < buses.length := by simpa using hj
    -- both buses have the name of the place, so that their slots are disjoint
    have hname : buses[i].name = buses[j].name := hpi.1.symm.trans hpj.1
    have hdisjoint := List.pairwise_iff_getElem.mp hp.apart i j hi' hj' hij hname
    exact hdisjoint
      (mem_reach_of_mem_slots (hp.room _ (List.getElem_mem hi')) hpi.2)
      (mem_reach_of_mem_slots (hp.room _ (List.getElem_mem hj')) hpj.2)

/-- With one device outside of it, a bus has no room. -/
theorem Turns.room (h : Turns choices m buses turns)
    (hrandom : m = .random → ∀ bus ∈ buses, bus.first + 1 < bus.last - 1)
    (hinside : ∀ turn ∈ turns, ∀ d ∈ turn.2,
      d.bus = turn.1.name ∧ turn.1.first ≤ d.addr ∧ d.addr < turn.1.last) :
    ∀ bus ∈ buses, Room bus m := by
  intro bus hbus
  cases m with
  | all => exact trivial
  | random => exact hrandom rfl bus hbus
  | first =>
      obtain ⟨k, hk⟩ := List.mem_iff_getElem?.mp hbus
      obtain ⟨ds, hturn, hds⟩ := h.exists_iff.mpr ⟨k, hk, rfl⟩
      obtain ⟨d, rfl, hd⟩ := List.map_eq_singleton_iff.mp hds
      have haddr : d.addr = bus.first := congrArg Prod.snd hd
      obtain ⟨-, -, hlast⟩ := hinside _ hturn d (List.mem_singleton_self d)
      rw [haddr] at hlast
      exact hlast

/-- Two buses of one name with a common slot get two devices there, if that slot is drawn. -/
theorem Turns.apart {addr : Int}
    (h : Turns choices m buses turns)
    (hchoices : ∀ k bus, buses[k]? = some bus →
      choices.port k = (addr - (bus.first + 1)).toNat)
    (hdistinct : ((turns.flatMap Prod.snd).map Placed.place).Nodup) {i j : Nat} (hij : i < j)
    {b c : PCIBusInfo} (hi : buses[i]? = some b) (hj : buses[j]? = some c)
    (hname : b.name = c.name) (hb : addr ∈ reach b m) : addr ∉ reach c m := by
  intro hc
  rw [h.places_eq, List.nodup_flatMap, List.pairwise_iff_getElem] at hdistinct
  obtain ⟨hi', rfl⟩ := List.getElem?_eq_some_iff.mp hi
  obtain ⟨hj', rfl⟩ := List.getElem?_eq_some_iff.mp hj
  have hdisjoint := hdistinct.2 i j (by simpa using hi') (by simpa using hj') hij
  refine @hdisjoint (buses[i].name, addr) ?_ ?_
  · simp only [List.getElem_zipIdx, Nat.zero_add]
    rw [hchoices i _ hi]
    exact mem_places_iff.mpr ⟨rfl, mem_slots_of_mem_reach hb⟩
  · simp only [List.getElem_zipIdx, Nat.zero_add]
    rw [hchoices j _ hj]
    exact mem_places_iff.mpr ⟨hname, mem_slots_of_mem_reach hc⟩

end Outcome

/-! ## The parameters the topology leaves -/

section Topology

variable {pcic : String → Params → Except PyError QDevice}

theorem Ready.insertBus {t t' : Topology} {idx : Nat} {device name : String}
    (hready : Ready t.params) (h : insertBus pcic t idx device = .ok (t', name)) :
    Ready t'.params := by
  rw [PciDevices.insertBus] at h
  obtain ⟨⟨ref, parentBus⟩, -, h⟩ := ok_of_bind_eq_ok h
  obtain ⟨⟨params, bus⟩, hbus, h⟩ := ok_of_bind_eq_ok h
  cases h
  rw [addBus] at hbus
  obtain ⟨params₁, hparams₁, hbus⟩ := ok_of_bind_eq_ok hbus
  obtain ⟨qdevice, -, hbus⟩ := ok_of_bind_eq_ok hbus
  obtain ⟨bus', -, hbus⟩ := ok_of_bind_eq_ok hbus
  cases hbus
  exact ((hready.addText hparams₁).set_text _ _).set_text _ _

theorem Ready.runLine {devices : List String} {t t' : Topology} {idx : Nat} {out : String}
    (hready : Ready t.params) (h : runLine pcic devices t idx out = .ok t') :
    Ready t'.params := by
  induction devices generalizing t idx out with
  | nil =>
      cases h
      exact hready
  | cons device rest ih =>
      rw [PciDevices.runLine] at h
      split at h
      · obtain ⟨r, -, h⟩ := ok_of_bind_eq_ok h
        exact ih hready h
      split at h
      · obtain ⟨r, -, h⟩ := ok_of_bind_eq_ok h
        cases h
        exact hready
      · obtain ⟨⟨t₁, name⟩, ht₁, h⟩ := ok_of_bind_eq_ok h
        exact ih (hready.insertBus ht₁) h

theorem Ready.start {params : Params} {found : List QDevice} {t : Topology}
    (hready : Ready params) (h : start params found = .ok t) : Ready t.params := by
  rw [PciDevices.start] at h
  obtain ⟨device, -, h⟩ := ok_of_bind_eq_ok h
  obtain ⟨bus, -, h⟩ := ok_of_bind_eq_ok h
  cases h
  dsimp only
  split
  · exact hready.set_text _ _
  · exact hready

theorem Ready.topology {params : Params} {found : List QDevice} {testSetup : String}
    {t : Topology} (hready : Ready params) (h : topology pcic params found testSetup = .ok t) :
    Ready t.params :=
  topology_induction h (fun _ => hready.start) fun _ _ _ hready hline => hready.runLine hline

end Topology

section Place

variable {testDevices testDeviceType : String} {t : Topology} (hready : Ready t.params)

include hready

theorem place_turns (choices : Choices)
    (hroom : mode testDevices = .random → ∀ bus ∈ t.used, bus.first + 1 < bus.last - 1) :
    ∃ e turns, place choices testDevices testDeviceType t = .ok (e, turns) ∧
      e.devices = turns.flatMap Prod.snd ∧ Turns choices (mode testDevices) t.used turns :=
  placeDevices_added (adds_addDevice choices testDeviceType) (fun bus hbus hm => hroom hm bus hbus)
    (s := ⟨t.params, ∅, 0, 0, []⟩) hready fun _ => rfl

theorem clear_of_placeable (hp : Placeable (mode testDevices) t.used) (choices : Choices) :
    Clear (place choices testDevices testDeviceType t) := by
  have hroom : mode testDevices = .random → ∀ bus ∈ t.used, bus.first + 1 < bus.last - 1 := by
    intro hm bus hbus
    have hroom := hp.room bus hbus
    rwa [hm] at hroom
  obtain ⟨e, turns, hok, hdevices, hturns⟩ := place_turns hready choices hroom
  refine ⟨e, turns, hok, hdevices, hturns.inside hp.room, ?_⟩
  rw [hdevices]
  exact hturns.distinct hp

theorem Clear.turns {choices : Choices} (h : Clear (place choices testDevices testDeviceType t)) :
    ∃ turns, Turns choices (mode testDevices) t.used turns ∧
      (∀ turn ∈ turns, ∀ d ∈ turn.2,
        d.bus = turn.1.name ∧ turn.1.first ≤ d.addr ∧ d.addr < turn.1.last) ∧
      ((turns.flatMap Prod.snd).map Placed.place).Nodup := by
  obtain ⟨e, turns, hok, hapart⟩ := h
  obtain ⟨e', turns', hok', -, hturns⟩ := place_turns hready choices (room_of_placeDevices hok)
  obtain ⟨rfl, rfl⟩ := Prod.mk.inj (Except.ok.inj (hok.symm.trans hok'))
  exact ⟨turns, hturns, hapart.inside, hapart.devices ▸ hapart.distinct⟩

theorem placeable_of_clear
    (hclear : ∀ choices, Clear (place choices testDevices testDeviceType t)) :
    Placeable (mode testDevices) t.used := by
  constructor
  · obtain ⟨e, rest, hok, -⟩ := hclear ⟨fun _ => 0, fun _ => 0⟩
    obtain ⟨turns, hturns, hinside, -⟩ := (hclear ⟨fun _ => 0, fun _ => 0⟩).turns hready
    exact hturns.room (room_of_placeDevices hok) hinside
  · rw [List.pairwise_iff_getElem]
    intro i j hi hj hij hname addr haddr
    -- the numbers that put the random device of each bus at the common slot
    obtain ⟨turns, hturns, -, hdistinct⟩ := (hclear ⟨fun k =>
      (t.used[k]?.map fun bus => (addr - (bus.first + 1)).toNat).getD 0, fun _ => 0⟩).turns hready
    refine hturns.apart ?_ hdistinct hij (List.getElem?_eq_getElem hi)
      (List.getElem?_eq_getElem hj) hname haddr
    intro k bus hk
    simp [hk]

end Place

/-- For every setup the topology accepts, the test devices never collide exactly if the buses
to use have the room the mode needs and no slot can get a device twice. -/
theorem clear_iff_placeable (pcic : String → Params → Except PyError QDevice) (params : Params)
    (hready : Ready params) (found : List QDevice) (testSetup testDevices testDeviceType : String)
    (t : Topology) (ht : topology pcic params found testSetup = .ok t) :
    (∀ choices, Clear (place choices testDevices testDeviceType t)) ↔
      Placeable (mode testDevices) t.used :=
  ⟨placeable_of_clear (hready.topology ht), clear_of_placeable (hready.topology ht)⟩

theorem toOption_eq_some {α : Type} {x : Except PyError α} {a : α} :
    x.toOption = some a ↔ x = .ok a := by
  cases x with
  | error e => simp [Except.toOption]
  | ok b => simp [Except.toOption]

/-- Every bus has the slots from 0 to 31. -/
def wideBus (name : String) : QDevice := ⟨name, [⟨"PCI", [0], [32]⟩]⟩

def someParams : Params := Dict.empty.set "usbs" (.text "") |>.set "images" (.text "image1")

theorem ready_someParams : Ready someParams := by
  refine ⟨⟨"", by decide⟩, ⟨"image1", by decide⟩, fun bus n h => ?_⟩
  have hmem := Dict.mem_keys_iff.mpr ⟨_, h⟩
  have hkeys : someParams.keys = ["usbs", "images"] := by decide
  rw [hkeys] at hmem
  simp [String.ext_iff] at hmem

/-- Two bridges side by side, each with its first and last slot and one between them. -/
theorem clear_two_bridges :
    ∃ t, topology (fun name _ => .ok (wideBus name)) someParams [wideBus "pci.0"]
        "bridge->devices\\nbridge->devices" = .ok t ∧
      ∀ choices, Clear (place choices "first_random_last" "random" t) := by
  have hused : (topology (fun name _ => .ok (wideBus name)) someParams [wideBus "pci.0"]
      "bridge->devices\\nbridge->devices").toOption.map Topology.used =
        some [⟨"test_pci_bridge1", true, 0, 32⟩, ⟨"test_pci_bridge2", true, 0, 32⟩] := by
    decide +kernel
  obtain ⟨t, ht, hused⟩ := Option.map_eq_some_iff.mp hused
  have ht := toOption_eq_some.mp ht
  refine ⟨t, ht, (clear_iff_placeable _ _ ready_someParams _ _ _ _ t ht).mpr ?_⟩
  rw [hused]
  refine ⟨?_, ?_⟩
  · simp [mode, Room]
  · simp

/-- The main bus is listed twice, and its first free slot gets two devices. -/
theorem main_bus_twice_collides :
    ∃ t, topology (fun name _ => .ok (wideBus name)) someParams [wideBus "pci.0"]
        "devices\\ndevices" = .ok t ∧
      ¬Clear (place ⟨fun _ => 0, fun _ => 0⟩ "first" "uhci" t) := by
  have hplaces : ((topology (fun name _ => .ok (wideBus name)) someParams [wideBus "pci.0"]
      "devices\\ndevices").toOption.bind fun t =>
        (place ⟨fun _ => 0, fun _ => 0⟩ "first" "uhci" t).toOption.map fun r =>
          r.1.devices.map Placed.place) = some [("pci.0", 7), ("pci.0", 7)] := by
    decide +kernel
  obtain ⟨t, ht, hplaces⟩ := Option.bind_eq_some_iff.mp hplaces
  refine ⟨t, toOption_eq_some.mp ht, ?_⟩
  rintro ⟨e, turns, hok, hapart⟩
  rw [hok] at hplaces
  have hdevices : e.devices.map Placed.place = [("pci.0", 7), ("pci.0", 7)] :=
    Option.some.inj hplaces
  have hdistinct := hapart.distinct
  rw [hdevices] at hdistinct
  exact absurd hdistinct (by decide)

end TpQemu.PciDevices

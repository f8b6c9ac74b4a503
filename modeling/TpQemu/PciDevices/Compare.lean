import TpQemu.Lib.Dict
import Mathlib.Data.List.Perm.Basic

/-!
# Comparing two descriptions of the PCI devices

`verify_qdev_vs_qtree` in `qemu/tests/pci_devices.py`. Both descriptions have a map of the
devices with an id and a list of those without. The maps are compared in two passes, one over
each of them; of the lists, the devices found in the other one are removed from it.
-/

namespace TpQemu.PciDevices

/-- What is described of a device. -/
structure Device where
  id : Option String
  type : Option String
  bus : Option String
  addr : Option String
  deriving DecidableEq

inductive Key where
  | id
  | type
  | bus
  | addr
  deriving DecidableEq

/-- The keys in the order of `items()`. -/
def keys : List Key := [.id, .type, .bus, .addr]

def Device.get (d : Device) : Key → Option String
  | .id => d.id
  | .type => d.type
  | .bus => d.bus
  | .addr => d.addr

structure DevInfo where
  devices : Dict String Device
  devicesNoid : List Device

/-- `%s` of a value. -/
def text (v : Option String) : String := v.getD "None"

section Definitions

-- Python's `repr` of a text.
variable (repr : String → String)

def reprOf (v : Option String) : String := (v.map repr).getD "None"

/-- `%s` of a device, which is a dictionary. -/
def deviceText (d : Device) : String :=
  "\x7b'id': " ++ reprOf repr d.id ++ ", 'type': " ++ reprOf repr d.type ++ ", 'bus': " ++
    reprOf repr d.bus ++ ", 'addr': " ++ reprOf repr d.addr ++ "\x7d"

/-- The error for one property. -/
def propertyError (devId : String) (qdevDevice device : Device) (key : Key) : String :=
  let err :=
    if qdevDevice.get key ≠ device.get key then
      "  " ++ text (qdevDevice.get key) ++ " != " ++ text (device.get key) ++ "\n"
    else ""
  if err ≠ "" then "Device " ++ devId ++ " properties mismatch:\n" ++ err else ""

/-- The errors for a device of the qtree with an id. -/
def qtreeErrors (qdevDevices : Dict String Device) (devId : String) (device : Device) : String :=
  match qdevDevices.get? devId with
  | none => "Device " ++ devId ++ " is in qtree but not in qdev.\n"
  | some qdevDevice =>
      keys.foldl (fun errors key => errors ++ propertyError devId qdevDevice device key) ""

/-- The error for a device of qemu_devices with an id. -/
def qdevError (qtreeDevices : Dict String Device) (devId : String) : String :=
  if devId ∉ qtreeDevices.keys then "Device " ++ devId ++ " is in qdev but not in qtree\n" else ""

/-- The error for a device without an id that is left. -/
def leftError (device : Device) : String :=
  "No match in qtree for device without id " ++ deviceText repr device ++ "\n"

/-- One round of the loop over the devices of the qtree without an id: the errors, and what is
left of the list of qemu_devices. -/
def matchNoid (r : String × List Device) (device : Device) : String × List Device :=
  if r.2.any (· = device) then (r.1, r.2.erase device)
  else (r.1 ++ "No match in qdev for device without id " ++ deviceText repr device ++ "\n", r.2)

/-- `verify_qdev_vs_qtree`, which also leaves the first list shortened. -/
def verifyQdevVsQtree (qdev qtree : DevInfo) : String × List Device :=
  let errors := qtree.devices.entries.foldl
    (fun errors p => errors ++ qtreeErrors qdev.devices p.1 p.2) ""
  let errors := qdev.devices.keys.foldl
    (fun errors devId => errors ++ qdevError qtree.devices devId) errors
  let (errors, left) := qtree.devicesNoid.foldl (matchNoid repr) (errors, qdev.devicesNoid)
  (left.foldl (fun errors device => errors ++ leftError repr device) errors, left)

end Definitions

/-! ## Texts without errors -/

/-- A loop that adds to the errors. -/
theorem foldl_append_eq_empty_iff {α : Type} {f : α → String} {l : List α} {errors : String} :
    l.foldl (fun errors a => errors ++ f a) errors = "" ↔ errors = "" ∧ ∀ a ∈ l, f a = "" := by
  induction l generalizing errors with
  | nil => simp
  | cons a l ih =>
      rw [List.foldl_cons, ih, String.append_eq_empty_iff, and_assoc]
      simp

/-! ## Devices with an id -/

theorem propertyError_eq_empty_iff {devId : String} {d e : Device} {key : Key} :
    propertyError devId d e key = "" ↔ d.get key = e.get key := by
  rw [propertyError]
  by_cases h : d.get key = e.get key
  · simp [h]
  · simp [h]

theorem qtreeErrors_eq_empty_iff {qdevDevices : Dict String Device} {devId : String}
    {device : Device} :
    qtreeErrors qdevDevices devId device = "" ↔ qdevDevices.get? devId = some device := by
  rw [qtreeErrors]
  cases h : qdevDevices.get? devId with
  | none => simp
  | some d =>
      simp only [foldl_append_eq_empty_iff, propertyError_eq_empty_iff, true_and,
        Option.some.injEq]
      constructor
      · intro hkeys
        have hget : ∀ key, d.get key = device.get key := by
          intro key
          apply hkeys
          cases key <;> decide
        cases d
        cases device
        exact congr (congr (congr (congrArg Device.mk (hget .id)) (hget .type)) (hget .bus))
          (hget .addr)
      · rintro rfl
        exact fun _ _ => rfl

theorem qdevError_eq_empty_iff {qtreeDevices : Dict String Device} {devId : String} :
    qdevError qtreeDevices devId = "" ↔ devId ∈ qtreeDevices.keys := by
  rw [qdevError]
  by_cases h : devId ∈ qtreeDevices.keys
  · simp [h]
  · simp [h]

/-- The two passes decide whether the maps are equal. -/
theorem passes_iff {qdev qtree : Dict String Device} :
    ((∀ p ∈ qtree.entries, qtreeErrors qdev p.1 p.2 = "") ∧
      ∀ devId ∈ qdev.keys, qdevError qtree devId = "") ↔
      ∀ devId, qdev.get? devId = qtree.get? devId := by
  simp only [qtreeErrors_eq_empty_iff, qdevError_eq_empty_iff, Prod.forall,
    ← Dict.get?_eq_some_iff]
  constructor
  · rintro ⟨hqtree, hqdev⟩ devId
    cases h : qtree.get? devId with
    | some device => exact hqtree devId device h
    | none =>
        rw [Dict.get?_eq_none_iff]
        intro hmem
        exact Dict.get?_eq_none_iff.mp h (hqdev devId hmem)
  · intro h
    refine ⟨fun devId device hdevice => (h devId).trans hdevice, fun devId hmem => ?_⟩
    obtain ⟨device, hdevice⟩ := Dict.mem_keys_iff.mp hmem
    exact Dict.mem_keys_iff.mpr ⟨device, (h devId).symm.trans hdevice⟩

/-! ## Devices without an id -/

section Noid

variable {repr : String → String}

/-- Errors are never taken back. -/
theorem matchNoid_fst_ne_empty {r : String × List Device} (h : r.1 ≠ "") (device : Device) :
    (matchNoid repr r device).1 ≠ "" := by
  rw [matchNoid]
  split
  · exact h
  · simp

theorem foldl_matchNoid_ne_empty {l : List Device} {r : String × List Device} (h : r.1 ≠ "") :
    (l.foldl (matchNoid repr) r).1 ≠ "" := by
  induction l generalizing r with
  | nil => exact h
  | cons device l ih => exact ih (matchNoid_fst_ne_empty h device)

theorem leftError_ne_empty (device : Device) : leftError repr device ≠ "" := fun h =>
  absurd (String.append_eq_empty_iff.mp h).2 (by decide)

/-- The loop reports nothing and leaves nothing exactly for a permutation. -/
theorem matchNoid_iff {l left : List Device} {errors : String} :
    ((l.foldl (matchNoid repr) (errors, left)).1 = "" ∧
      (l.foldl (matchNoid repr) (errors, left)).2 = []) ↔ errors = "" ∧ left.Perm l := by
  induction l generalizing left errors with
  | nil => simp [List.perm_nil]
  | cons device l ih =>
      rw [List.foldl_cons, matchNoid]
      by_cases hmem : device ∈ left
      · have hany : left.any (· = device) = true := by simpa using hmem
        rw [if_pos hany, ih]
        have hperm : left.Perm (device :: l) ↔ (left.erase device).Perm l := by
          rw [List.perm_comm, List.cons_perm_iff_perm_erase, List.perm_comm]
          simp [hmem]
        rw [hperm]
      · have hany : ¬left.any (· = device) = true := by simpa using hmem
        rw [if_neg hany]
        constructor
        · rintro ⟨hempty, -⟩
          exact absurd hempty (foldl_matchNoid_ne_empty (by simp))
        · rintro ⟨-, hperm⟩
          exact absurd (hperm.mem_iff.mpr List.mem_cons_self) hmem

end Noid

/-- There is no error exactly if the maps are equal and the lists are the same up to order. -/
theorem verifyQdevVsQtree_iff (repr : String → String) (qdev qtree : DevInfo) :
    (verifyQdevVsQtree repr qdev qtree).1 = "" ↔
      (∀ devId, qdev.devices.get? devId = qtree.devices.get? devId) ∧
        qdev.devicesNoid.Perm qtree.devicesNoid := by
  have hleft : ∀ left : List Device, (∀ d ∈ left, leftError repr d = "") ↔ left = [] := by
    intro left
    rw [List.eq_nil_iff_forall_not_mem]
    exact forall_congr' fun d => forall_congr' fun _ => iff_false_intro (leftError_ne_empty d)
  rw [verifyQdevVsQtree]
  simp only [foldl_append_eq_empty_iff, hleft, matchNoid_iff, true_and]
  rw [passes_iff]

end TpQemu.PciDevices

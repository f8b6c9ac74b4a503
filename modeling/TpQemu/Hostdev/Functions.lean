import TpQemu.Hostdev.Binding
import TpQemu.Lib.Numeral
import Mathlib.Data.Char
import Mathlib.Data.List.Lex
import Mathlib.Data.List.Sort

/-!
# Virtual functions

`VFDevice` in `provider/hostdev/__init__.py`. The virtual functions of a card are found as the
links `virtfn0`, `virtfn1` and so on of the physical function. `create_vfs` sorts the links by
their names, as texts; `_config_net_vfs` takes the position in that list for the number of
the function. The command `ip link set dev PF vf k mac m` goes by the number in the link.
-/

namespace TpQemu.Hostdev

inductive VFError where
  /-- `VFCreateError` -/
  | create (slotId error : String)
  | host (e : HostDeviceError)
  | stopIteration
  /-- `process.CmdError` -/
  | cmdError

/-- What the host shows of a card. -/
structure Card where
  totalVfs : Int
  /-- The content of the file `class`. -/
  pciClass : List Char
  /-- The network devices of the physical function. -/
  nets : List String
  /-- The slot behind a link, by the number of the link. -/
  slotOf : Nat → String
  slotOf_injective : Function.Injective slotOf
  /-- How many links there are when they are listed for the `i`-th time. -/
  linkCount : Nat → Nat
  /-- The numbers of these links, in the order of the listing. -/
  links : Nat → List Nat
  links_perm : ∀ i, (links i).Perm (List.range (linkCount i))

structure VFDevice extends PFDevice where
  numVfs : Int
  vfs : List String
  macAddresses : List String

structure VFState where
  sysfs : Sysfs
  /-- The content of `sriov_numvfs`. -/
  sriovNumvfs : Int
  /-- The MAC addresses the host has set, by the number of the link. -/
  macs : Nat → Option String
  listings : Nat
  commands : Nat
  dev : VFDevice

/-- The parameters of a test that `config` reads. -/
structure VFParams where
  counts : Int
  /-- `hostdev_vf{idx}_mac` -/
  mac : Nat → Option String

/-- The name of a link. -/
def linkName (k : Nat) : List Char := "virtfn".toList ++ Numeral.str k

/-- `sorted` on the links. -/
def sortedLinks (ks : List Nat) : List Nat :=
  ks.insertionSort fun a b => linkName a ≤ linkName b

section Definitions

variable (card : Card) (fails cmdFails : Nat → Bool) (generate : Nat → String)

/-- `list(self.slot_path.glob("virtfn*"))` -/
def globLinks : EStateM VFError VFState (List Nat) := fun s =>
  .ok (card.links s.listings) { s with listings := s.listings + 1 }

/-- `wait.wait_for`, with so many polls before the time is up; its result is not used. -/
def waitForLinks (counts : Int) : Nat → EStateM VFError VFState Unit
  | 0 => pure ()
  | polls + 1 => do
      let links ← globLinks card
      if (links.length : Int) = counts then
        return
      waitForLinks counts polls

/-- A write to `sriov_numvfs`, after which the functions are new ones. -/
def writeNumvfs (counts : Int) : EStateM VFError VFState Unit := fun s =>
  let written := { s with sysfs := { s.sysfs with writes := s.sysfs.writes + 1 } }
  if fails s.sysfs.writes then .error (.create s.dev.slotId "OSError") written
  else .ok () { written with sriovNumvfs := counts, macs := fun _ => none }

/-- The part of `create_vfs` before it waits. -/
def requestVfs (counts : Int) : EStateM VFError VFState Unit := do
  let s ← get
  if s.sysfs.driver s.dev.slotId = some "vfio-pci" then
    throw (.create s.dev.slotId ("Slot \"" ++ s.dev.slotId ++
      "\" is bound to \"vfio-pci\", please fall back to kernel driver to create VFs"))
  if counts > card.totalVfs then
    throw (.create s.dev.slotId "Count of VF to be created is larger than \"sriov_totalvfs\"")
  modify fun s => { s with dev := { s.dev with numVfs := s.sriovNumvfs } }
  if s.sriovNumvfs ≠ 0 then
    writeNumvfs fails 0
  writeNumvfs fails counts

/-- The part of `create_vfs` behind the waiting. -/
def collectVfs : EStateM VFError VFState Unit := do
  let links ← globLinks card
  modify fun s => { s with dev := { s.dev with vfs := (sortedLinks links).map card.slotOf } }

def createVfs (polls : Nat) (counts : Int) : EStateM VFError VFState Unit := do
  requestVfs card fails counts
  waitForLinks card counts polls
  collectVfs card

/-- `bind_all` on the virtual functions. -/
def bindVfs : EStateM VFError VFState Unit := fun s =>
  match bindAll fails s.dev.driver s.dev.vfs s.sysfs with
  | .ok _ sysfs => .ok () { s with sysfs := sysfs }
  | .error e sysfs => .error (.host e) { s with sysfs := sysfs }

/-- The command `ip link set dev PF vf idx mac mac`. -/
def setMac (idx : Nat) (mac : String) : EStateM VFError VFState Unit := fun s =>
  let run := { s with commands := s.commands + 1 }
  if cmdFails s.commands then .error .cmdError run
  else .ok () { run with macs := Function.update s.macs idx (some mac) }

/-- The MAC address for a position; `generate` is `generate_mac_address_simple`. -/
def macFor (params : VFParams) (idx : Nat) : String := (params.mac idx).getD (generate idx)

/-- The loop of `_config_net_vfs` over the functions from the position `idx` on. -/
def assignMacs (params : VFParams) : Nat → List String → EStateM VFError VFState Unit
  | _, [] => pure ()
  | idx, _ :: vfs => do
      let mac := macFor generate params idx
      modify fun s => { s with dev := { s.dev with macAddresses := s.dev.macAddresses ++ [mac] } }
      setMac cmdFails idx mac
      assignMacs params (idx + 1) vfs

def configNetVfs (params : VFParams) : EStateM VFError VFState Unit := do
  modify fun s => { s with dev := { s.dev with macAddresses := [] } }
  match card.nets with
  | [] => throw .stopIteration
  | _ :: _ =>
      let s ← get
      assignMacs cmdFails generate params 0 s.dev.vfs

/-- `(self.slot_path / "class").read_text()[2:4] == "02"` -/
def isNetwork : Bool := (card.pciClass.drop 2).take 2 = ['0', '2']

def VFDevice.config (polls : Nat) (params : VFParams) : EStateM VFError VFState Unit := do
  createVfs card fails polls params.counts
  bindVfs fails
  if isNetwork card then
    configNetVfs card cmdFails generate params

end Definitions

/-! ## The order of the links -/

theorem str_natCast_injective : Function.Injective fun k : Nat => Numeral.str k := by
  intro a b h
  have hint := Numeral.int_str (Int.natCast_nonneg a)
  rw [show Numeral.str a = Numeral.str b from h, Numeral.int_str (Int.natCast_nonneg b)] at hint
  exact (Int.natCast_inj.mp (Option.some.inj hint)).symm

theorem linkName_injective : Function.Injective linkName := fun _ _ h =>
  str_natCast_injective (List.append_cancel_left h)

instance : IsTrans Nat fun a b => linkName a ≤ linkName b := ⟨fun _ _ _ => le_trans⟩

instance : Std.Total fun a b : Nat => linkName a ≤ linkName b := ⟨fun _ _ => le_total _ _⟩

instance : Std.Antisymm fun a b : Nat => linkName a ≤ linkName b :=
  ⟨fun _ _ h h' => linkName_injective (le_antisymm h h')⟩

/-- The order of the listing does not matter. -/
theorem sortedLinks_congr {ks ls : List Nat} (h : ks.Perm ls) : sortedLinks ks = sortedLinks ls :=
  List.Perm.eq_of_pairwise' (r := fun a b => linkName a ≤ linkName b)
    (List.pairwise_insertionSort _ ks) (List.pairwise_insertionSort _ ls)
    ((List.perm_insertionSort _ ks).trans (h.trans (List.perm_insertionSort _ ls).symm))

theorem length_sortedLinks (ks : List Nat) : (sortedLinks ks).length = ks.length :=
  List.length_insertionSort _ ks

/-- With one digit the order of the texts is that of the numbers. -/
theorem sortedLinks_range {n : Nat} (hn : n ≤ 10) : sortedLinks (List.range n) = List.range n := by
  have hten : (List.range 10).Pairwise fun a b => linkName a ≤ linkName b := by decide
  apply List.Pairwise.insertionSort_eq
  exact hten.sublist (List.range_sublist.mpr hn)

/-- From the eleventh link on the orders differ. -/
theorem sortedLinks_range_ne {n : Nat} (hn : 10 < n) :
    sortedLinks (List.range n) ≠ List.range n := by
  intro h
  have hsorted := List.pairwise_insertionSort (fun a b => linkName a ≤ linkName b) (List.range n)
  change (sortedLinks _).Pairwise _ at hsorted
  rw [h, List.pairwise_iff_getElem] at hsorted
  have hle := hsorted 2 10 (by simp; omega) (by simp; omega) (by omega)
  simp only [List.getElem_range] at hle
  exact absurd hle (by decide)

/-! ## What `config` does when it returns -/

section Config

variable {card : Card} {fails cmdFails : Nat → Bool} {generate : Nat → String} {params : VFParams}
  {s s' : VFState}

/-- The addresses are recorded in the order of the positions and set on the functions of these
numbers. -/
theorem assignMacs_ok {idx : Nat} {vfs : List String}
    (h : assignMacs cmdFails generate params idx vfs s = .ok () s') :
    s'.listings = s.listings ∧ s'.dev.vfs = s.dev.vfs ∧
      s'.dev.macAddresses = s.dev.macAddresses ++
        (List.range' idx vfs.length).map (macFor generate params) ∧
      ∀ k, s'.macs k = if idx ≤ k ∧ k < idx + vfs.length then some (macFor generate params k)
        else s.macs k := by
  induction vfs generalizing idx s with
  | nil =>
      cases h
      refine ⟨rfl, rfl, by simp, fun k => ?_⟩
      rw [if_neg (by simp)]
  | cons vf vfs ih =>
      obtain ⟨_, t, hmodify, h⟩ := ok_of_bind h
      cases hmodify
      obtain ⟨_, t, hset, h⟩ := ok_of_bind h
      rw [setMac] at hset
      split at hset
      · cases hset
      · cases hset
        obtain ⟨hlistings, hvfs, haddresses, hmacs⟩ := ih h
        refine ⟨hlistings, hvfs, ?_, fun k => ?_⟩
        · rw [haddresses, List.length_cons, List.range'_succ, List.map_cons]
          simp
        · rw [hmacs, List.length_cons]
          by_cases hk : k = idx
          · subst hk
            rw [if_neg (by omega), if_pos (by omega)]
            exact Function.update_self _ _ _
          · by_cases hrest : idx + 1 ≤ k ∧ k < idx + 1 + vfs.length
            · rw [if_pos hrest, if_pos (by omega)]
            · rw [if_neg hrest, if_neg (by omega)]
              exact Function.update_of_ne hk _ _

/-- The functions are those of the last listing, in the order of the names. -/
theorem createVfs_ok {polls : Nat} {counts : Int}
    (h : createVfs card fails polls counts s = .ok () s') :
    ∃ i, s'.listings = i + 1 ∧ s'.dev.vfs = (sortedLinks (card.links i)).map card.slotOf := by
  obtain ⟨_, t, -, h⟩ := ok_of_bind h
  obtain ⟨_, u, -, h⟩ := ok_of_bind h
  obtain ⟨links, _, hglob, h⟩ := ok_of_bind h
  cases hglob
  cases h
  exact ⟨u.listings, rfl, rfl⟩

theorem bindVfs_ok (h : bindVfs fails s = .ok () s') :
    s'.dev = s.dev ∧ s'.listings = s.listings := by
  rw [bindVfs] at h
  split at h
  · cases h
    exact ⟨rfl, rfl⟩
  · cases h

theorem configNetVfs_ok (h : configNetVfs card cmdFails generate params s = .ok () s') :
    s'.listings = s.listings ∧ s'.dev.vfs = s.dev.vfs ∧
      s'.dev.macAddresses = (List.range s.dev.vfs.length).map (macFor generate params) ∧
      ∀ k < s.dev.vfs.length, s'.macs k = some (macFor generate params k) := by
  obtain ⟨_, t, hmodify, h⟩ := ok_of_bind h
  cases hmodify
  cases hnets : card.nets with
  | nil =>
      rw [hnets] at h
      cases h
  | cons devName nets =>
      rw [hnets] at h
      obtain ⟨_, _, hget, h⟩ := ok_of_bind h
      cases hget
      obtain ⟨hlistings, hvfs, haddresses, hmacs⟩ := assignMacs_ok h
      refine ⟨hlistings, hvfs, ?_, fun k hk => ?_⟩
      · rw [haddresses, List.nil_append, ← List.range_eq_range']
      · rw [hmacs, if_pos (by simpa using hk)]

/-- The lists of a network card after `config`. -/
theorem config_ok {polls : Nat} (hnetwork : isNetwork card = true)
    (h : VFDevice.config card fails cmdFails generate polls params s = .ok () s') :
    s'.dev.vfs = (sortedLinks (List.range (card.linkCount (s'.listings - 1)))).map card.slotOf ∧
      s'.dev.macAddresses =
        (List.range (card.linkCount (s'.listings - 1))).map (macFor generate params) ∧
      ∀ k < card.linkCount (s'.listings - 1), s'.macs k = some (macFor generate params k) := by
  obtain ⟨_, t, hcreate, h⟩ := ok_of_bind h
  obtain ⟨_, u, hbind, h⟩ := ok_of_bind h
  rw [if_pos hnetwork] at h
  obtain ⟨i, hi, hvfs⟩ := createVfs_ok hcreate
  obtain ⟨hdev, hlistings⟩ := bindVfs_ok hbind
  obtain ⟨hlistings', hvfs', haddresses, hmacs⟩ := configNetVfs_ok h
  have hlast : s'.listings - 1 = i := by rw [hlistings', hlistings, hi, Nat.add_sub_cancel]
  have hlength : u.dev.vfs.length = card.linkCount i := by
    rw [hdev, hvfs, List.length_map, length_sortedLinks, (card.links_perm i).length_eq,
      List.length_range]
  rw [hlast, hvfs', haddresses, hlength, hdev, hvfs, sortedLinks_congr (card.links_perm i)]
  exact ⟨rfl, rfl, fun k hk => hmacs k (hlength ▸ hk)⟩

end Config

/-! ## Addresses and functions -/

/-- The lists have the same length, and every function has the address at its position. -/
structure KeepsMacs (card : Card) (s : VFState) : Prop where
  length : s.dev.vfs.length = s.dev.macAddresses.length
  mac : ∀ i k : Nat, s.dev.vfs[i]? = some (card.slotOf k) → s.macs k = s.dev.macAddresses[i]?

/-- The address for the number of a link is that for its position among the sorted links. -/
def SamePlaces (n : Nat) (mac : Nat → String) : Prop :=
  ∀ i k : Nat, (sortedLinks (List.range n))[i]? = some k → mac k = mac i

theorem samePlaces_of_le {n : Nat} (hn : n ≤ 10) (mac : Nat → String) : SamePlaces n mac := by
  intro i k hk
  rw [sortedLinks_range hn] at hk
  obtain ⟨hi, rfl⟩ := List.getElem?_eq_some_iff.mp hk
  rw [List.getElem_range]

/-- Different addresses are on their functions only up to ten of them. -/
theorem samePlaces_iff_le {n : Nat} {mac : Nat → String} (hmac : Function.Injective mac) :
    SamePlaces n mac ↔ n ≤ 10 := by
  refine ⟨fun h => ?_, fun hn => samePlaces_of_le hn mac⟩
  by_contra hn
  apply sortedLinks_range_ne (Nat.lt_of_not_le hn)
  apply List.ext_getElem (by rw [length_sortedLinks])
  intro i hi hi'
  rw [List.getElem_range]
  exact hmac (h i _ (List.getElem?_eq_getElem hi))

/-- The addresses and the functions go together if there are at most ten functions or the
addresses for the positions are those for the numbers. -/
theorem keepsMacs_iff {card : Card} {fails cmdFails : Nat → Bool} {generate : Nat → String}
    {params : VFParams} {polls n : Nat} {s s' : VFState} (hnetwork : isNetwork card = true)
    (h : VFDevice.config card fails cmdFails generate polls params s = .ok () s')
    (hn : card.linkCount (s'.listings - 1) = n) :
    KeepsMacs card s' ↔ n ≤ 10 ∨ SamePlaces n (macFor generate params) := by
  obtain ⟨hvfs, haddresses, hmacs⟩ := config_ok hnetwork h
  rw [hn] at hvfs haddresses hmacs
  have hplace : ∀ i k : Nat, (sortedLinks (List.range n))[i]? = some k → i < n ∧ k < n := by
    intro i k hk
    obtain ⟨hi, -⟩ := List.getElem?_eq_some_iff.mp hk
    rw [length_sortedLinks, List.length_range] at hi
    refine ⟨hi, ?_⟩
    rw [← List.mem_range, ← List.mem_insertionSort fun a b => linkName a ≤ linkName b]
    exact List.mem_of_getElem? hk
  have hsame : KeepsMacs card s' ↔ SamePlaces n (macFor generate params) := by
    constructor
    · intro h i k hk
      obtain ⟨hi, hkn⟩ := hplace i k hk
      have hmac := h.mac i k (by rw [hvfs, List.getElem?_map, hk]; rfl)
      rw [hmacs k hkn, haddresses, List.getElem?_map, List.getElem?_range hi] at hmac
      exact Option.some.inj hmac
    · intro h
      refine ⟨?_, fun i k hk => ?_⟩
      · rw [hvfs, haddresses, List.length_map, List.length_map, length_sortedLinks]
      · rw [hvfs, List.getElem?_map] at hk
        obtain ⟨k', hk', hslot⟩ := Option.map_eq_some_iff.mp hk
        rw [card.slotOf_injective hslot] at hk'
        obtain ⟨hi, hkn⟩ := hplace i k hk'
        rw [hmacs k hkn, haddresses, List.getElem?_map, List.getElem?_range hi, h i k hk']
        rfl
  rw [hsame]
  exact ⟨.inr, fun h => h.elim (fun hn => samePlaces_of_le hn _) id⟩

/-- A card with so many functions, which have the slots of one bus. -/
def plainCard (n : Nat) : Card where
  totalVfs := n
  pciClass := "0x020000".toList
  nets := ["eno1"]
  slotOf := fun k => String.ofList ("0000:03:".toList ++ Numeral.str k)
  slotOf_injective := fun _ _ h =>
    str_natCast_injective (List.append_cancel_left (String.ofList_injective h))
  linkCount := fun _ => n
  links := fun _ => List.range n
  links_perm := fun _ => List.Perm.refl _

def plainState : VFState where
  sysfs := ⟨fun _ => none, fun _ => some "", 0⟩
  sriovNumvfs := 0
  macs := fun _ => none
  listings := 0
  commands := 0
  dev := ⟨⟨"0000:03:00.0", "vfio-pci", some "igb"⟩, 0, [], []⟩

/-- The addresses of a test, one for each position. -/
def plainMac (k : Nat) : String := String.ofList ("52:54:00:12:34:".toList ++ Numeral.str k)

/-- The configuration of so many functions, with a command for each. -/
def plainConfig (n : Nat) : EStateM.Result VFError VFState Unit :=
  VFDevice.config (plainCard n) (fun _ => false) (fun _ => false) plainMac 1 ⟨n, fun _ => none⟩
    plainState

def returns (r : EStateM.Result VFError VFState Unit) : Bool :=
  match r with
  | .ok _ _ => true
  | .error _ _ => false

theorem ok_of_returns {r : EStateM.Result VFError VFState Unit} (h : returns r = true) :
    r = .ok () (after r) := by
  cases r with
  | ok _ _ => rfl
  | error _ _ => cases h

theorem keepsMacs_three : KeepsMacs (plainCard 3) (after (plainConfig 3)) :=
  (keepsMacs_iff (n := 3) (by decide) (ok_of_returns (r := plainConfig 3) (by decide +kernel))
    rfl).mpr (.inl (by decide))

/-- The function behind `virtfn10` is the third of eleven. -/
theorem eleven_functions_not_kept :
    ¬∀ (card : Card) (fails cmdFails : Nat → Bool) (generate : Nat → String) (params : VFParams)
      (polls : Nat) (s s' : VFState), isNetwork card = true →
      VFDevice.config card fails cmdFails generate polls params s = .ok () s' →
      KeepsMacs card s' := by
  intro h
  have hok : plainConfig 11 = .ok () (after (plainConfig 11)) := ok_of_returns (by decide +kernel)
  have hkeeps := h (plainCard 11) _ _ _ _ _ _ _ (by decide) hok
  obtain ⟨hvfs, haddresses, hmacs⟩ := config_ok (by decide) hok
  change _ = (sortedLinks (List.range 11)).map _ at hvfs
  have hthird : (sortedLinks (List.range 11))[2]? = some 10 := by decide
  have hmac := hkeeps.mac 2 10 (by rw [hvfs, List.getElem?_map, hthird]; rfl)
  rw [hmacs 10 (show 10 < 11 by decide), haddresses] at hmac
  exact absurd (show some (plainMac 10) = some (plainMac 2) from hmac) (by decide)

end TpQemu.Hostdev

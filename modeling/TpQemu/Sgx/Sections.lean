import TpQemu.Lib.Text
import TpQemu.Lib.Value
import Mathlib.Data.List.Forall2
import Mathlib.Algebra.BigOperators.Group.List.Basic
import Mathlib.Algebra.Group.Int.Defs

/-!
# The sections of an EPC

`SGXChecker.verify_qmp_guest_sgx_cap` in `provider/sgx.py`. The devices of the configuration are
compared with the sections that QEMU reports, node by node and in total.
-/

namespace TpQemu.Sgx

/-- What is outside the repository: the test parameters, of type `P`, and
`int(float(normalize_data_size(text, "B", 1024)))`. -/
structure Env (P : Type) where
  objectParams : P → List Char → P
  get : P → String → Option (List Char)
  bytes : List Char → Except PyError Int

section Definitions

variable {P F : Type} (env : Env P) (fl : Floats F) (params : P)

/-- `verify_sgx_flags` -/
def verifySgxFlags (qmpCommand : Value F) (flags : List (List Char)) : Except PyError Unit :=
  flags.forM fun ele => do
    match ← qmpCommand.item ele with
    | .scalar (.bool true) => return
    | _ => throw (.testFail (String.ofList ele ++ " is not enabled, qmp check failed."))

/-- The size of the memory device of an EPC. -/
def epcSize (ele : List Char) : Except PyError Int := do
  let memdev ← orRaise .keyError (env.get (env.objectParams params ele) "vm_sgx_epc_memdev")
  let size ← orRaise .keyError (env.get (env.objectParams params memdev) "size_mem")
  env.bytes size

def epcNode (ele : List Char) : Except PyError Int := do
  let node ← orRaise .keyError (env.get (env.objectParams params ele) "vm_sgx_epc_node")
  orRaise .valueError (Numeral.int node)

/-- The names of the devices. -/
def epcList : Except PyError (List (List Char)) := do
  let devs ← orRaise .keyError (env.get params "vm_sgx_epc_devs")
  return Text.words devs

/-- The loops that add up sizes. -/
def total {α : Type} (size : α → Except PyError Int) (xs : List α) : Except PyError Int :=
  xs.foldlM (fun sum x => do
    let tmp ← size x
    return sum + tmp) 0

/-- `get_config_total_epc_size` -/
def getConfigTotalEpcSize : Except PyError Int := do
  let epcs ← epcList env params
  total (epcSize env params) epcs

/-- `get_config_epc_numa_info`: each device replaces the one before. -/
def getConfigEpcNumaInfo : Except PyError (Value F) := do
  let epcs ← epcList env params
  epcs.foldlM (fun _ ele => do
    let size ← epcSize env params ele
    let node ← epcNode env params ele
    return .dict [("size".toList, .scalar (.int size)), ("node".toList, .scalar (.int node))])
    (.dict [])

def sectionSize (sect : Value F) : Except PyError Int := do
  let size ← sect.item "size".toList
  size.toInt fl

/-- `verify_qmp_guest_sgx_cap` with what `query-sgx` returns. -/
def verifyQmpGuestSgxCap (guestSgxInfo : Value F) : Except PyError Unit := do
  let flags ← orRaise .keyError (env.get params "sgx_flags")
  verifySgxFlags guestSgxInfo (Text.words flags)
  let epcSectionsInfo ← guestSgxInfo.item "sections".toList
  let numaEpcDict ← getConfigEpcNumaInfo env params
  if numaEpcDict.eq fl epcSectionsInfo then
    throw (.testFail "Guest epc sized on each numa mis-matched, qmp check failed.")
  else
    let sgxSections ← epcSectionsInfo.iter
    let sgxSectionSize ← total (sectionSize fl) sgxSections
    let configEpcSize ← getConfigTotalEpcSize env params
    if configEpcSize ≠ sgxSectionSize then
      throw (.testFail ("Guest epc size " ++ toString configEpcSize ++
        " is not equal to query_sgx section size " ++ toString sgxSectionSize))

end Definitions

/-- A device of the configuration, as its node and its size. -/
def Configures {P : Type} (env : Env P) (params : P) (ele : List Char) (dev : Int × Int) : Prop :=
  epcNode env params ele = .ok dev.1 ∧ epcSize env params ele = .ok dev.2

/-- A section that is reported, as its node and its size. -/
def Reports {F : Type} (sect : Value F) (dev : Int × Int) : Prop :=
  sect.item "node".toList = .ok (.scalar (.int dev.1)) ∧
    sect.item "size".toList = .ok (.scalar (.int dev.2))

/-- The devices that are configured and the sections that are reported, with all flags set. -/
structure Setup {P F : Type} (env : Env P) (params : P) (info : Value F)
    (devs sects : List (Int × Int)) : Prop where
  configured : ∃ epcs, epcList env params = .ok epcs ∧
    List.Forall₂ (Configures env params) epcs devs
  flags : ∃ flags, env.get params "sgx_flags" = some flags ∧
    ∀ flag ∈ Text.words flags, info.item flag = .ok (.scalar (.bool true))
  reported : ∃ vs, info.item "sections".toList = .ok (.list vs) ∧
    List.Forall₂ Reports vs sects

def sizes (devs : List (Int × Int)) : Int := (devs.map Prod.snd).sum

theorem foldlM_sizes {α : Type} {size : α → Except PyError Int} {xs : List α}
    {devs : List (Int × Int)} (h : List.Forall₂ (fun x dev => size x = .ok dev.2) xs devs)
    (sum : Int) :
    xs.foldlM (fun sum x => do
      let tmp ← size x
      return sum + tmp) sum = .ok (sum + sizes devs) := by
  induction h generalizing sum with
  | nil =>
      rw [sizes, List.map_nil, List.sum_nil, Int.add_zero]
      rfl
  | cons hsize _ ih =>
      rw [List.foldlM_cons, hsize]
      refine (ih _).trans ?_
      rw [sizes, sizes, List.map_cons, List.sum_cons, Int.add_assoc]

theorem total_eq {α : Type} {size : α → Except PyError Int} {xs : List α}
    {devs : List (Int × Int)} (h : List.Forall₂ (fun x dev => size x = .ok dev.2) xs devs) :
    total size xs = .ok (sizes devs) := by
  rw [total, foldlM_sizes h, Int.zero_add]

section Setup

variable {P F : Type} {env : Env P} {params : P} {info : Value F} {devs sects : List (Int × Int)}

theorem verifySgxFlags_eq {flags : List (List Char)}
    (h : ∀ flag ∈ flags, info.item flag = .ok (.scalar (.bool true))) :
    verifySgxFlags info flags = .ok () := by
  rw [verifySgxFlags]
  induction flags with
  | nil => rfl
  | cons flag flags ih =>
      obtain ⟨hflag, hrest⟩ := List.forall_mem_cons.mp h
      rw [List.forM_eq_forM, List.forM_cons, hflag]
      exact ih hrest

/-- The table of the nodes is a dictionary, whatever the devices are. -/
theorem getConfigEpcNumaInfo_eq {epcs : List (List Char)} (hepcs : epcList env params = .ok epcs)
    (h : List.Forall₂ (Configures env params) epcs devs) :
    ∃ es, getConfigEpcNumaInfo (F := F) env params = .ok (.dict es) := by
  have hfold : ∀ es, ∃ es', epcs.foldlM (fun (_ : Value F) ele => do
      let size ← epcSize env params ele
      let node ← epcNode env params ele
      return .dict [("size".toList, .scalar (.int size)), ("node".toList, .scalar (.int node))])
      (.dict es) = Except.ok (ε := PyError) (.dict es') := by
    clear hepcs
    induction h with
    | nil => exact fun es => ⟨es, rfl⟩
    | cons hdev _ ih =>
        intro es
        rw [List.foldlM_cons, hdev.1, hdev.2]
        exact ih _
  rw [getConfigEpcNumaInfo, hepcs]
  exact hfold []

variable (fl : Floats F)

theorem sectionSize_eq {sect : Value F} {dev : Int × Int} (h : Reports sect dev) :
    sectionSize fl sect = .ok dev.2 := by
  rw [sectionSize, h.2]
  rfl

/-- Only the total sizes are compared. -/
theorem verifyQmpGuestSgxCap_iff (h : Setup env params info devs sects) :
    verifyQmpGuestSgxCap env fl params info = .ok () ↔ sizes sects = sizes devs := by
  obtain ⟨⟨epcs, hepcs, hdevs⟩, ⟨flags, hget, hflags⟩, vs, hsections, hsects⟩ := h
  obtain ⟨es, hnuma⟩ := getConfigEpcNumaInfo_eq (F := F) hepcs hdevs
  have hreported : total (sectionSize fl) vs = .ok (sizes sects) :=
    total_eq (hsects.imp fun _ _ hsect => sectionSize_eq fl hsect)
  have hconfig : getConfigTotalEpcSize env params = .ok (sizes devs) := by
    rw [getConfigTotalEpcSize, bind_of_eq_ok hepcs]
    exact total_eq (hdevs.imp fun _ _ hdev => hdev.2)
  rw [verifyQmpGuestSgxCap, hget, orRaise_some, bind_of_eq_ok rfl,
    bind_of_eq_ok (verifySgxFlags_eq hflags), bind_of_eq_ok hsections, bind_of_eq_ok hnuma,
    Value.eq_dict_list, if_neg Bool.false_ne_true, Value.iter, bind_of_eq_ok rfl,
    bind_of_eq_ok hreported, bind_of_eq_ok hconfig]
  by_cases hsizes : sizes devs = sizes sects
  · rw [if_neg (not_not.mpr hsizes)]
    exact iff_of_true rfl hsizes.symm
  · rw [if_pos hsizes]
    exact iff_of_false nofun (Ne.symm hsizes)

/-- The check passes just for permutations of the configured devices exactly if the sections
differ from them in total, or are a permutation. -/
theorem verify_exact_iff (h : Setup env params info devs sects) :
    (verifyQmpGuestSgxCap env fl params info = .ok () ↔ sects.Perm devs) ↔
      sizes sects ≠ sizes devs ∨ sects.Perm devs := by
  have hperm : sects.Perm devs → sizes sects = sizes devs := fun hp => (hp.map Prod.snd).sum_eq
  rw [verifyQmpGuestSgxCap_iff fl h]
  constructor
  · intro hiff
    by_cases hsizes : sizes sects = sizes devs
    · exact .inr (hiff.mp hsizes)
    · exact .inl hsizes
  · rintro (hne | hp)
    · exact iff_of_false hne fun hp => hne (hperm hp)
    · exact iff_of_true (hperm hp) hp

end Setup

/-- Two devices of 64 MiB, on the nodes 0 and 1. Parameters are the name of the object. -/
def twoDevices : Env (List Char) where
  objectParams _ name := name
  get obj
    | "sgx_flags" => "sgx sgx1".toList
    | "vm_sgx_epc_devs" => "epc0 epc1".toList
    | "vm_sgx_epc_memdev" => "mem".toList
    | "size_mem" => "64M".toList
    | "vm_sgx_epc_node" => some (if obj = "epc0".toList then "0".toList else "1".toList)
    | _ => none
  bytes cs := if cs = "64M".toList then .ok 67108864 else .error .valueError

/-- A section of 64 MiB. -/
def sectionOn (node : Int) : Value Empty :=
  .dict [("node".toList, .scalar (.int node)), ("size".toList, .scalar (.int 67108864))]

/-- Two sections on the nodes `a` and `b`. -/
def twoSections (a b : Int) : Value Empty :=
  .dict [("sgx".toList, .scalar (.bool true)), ("sgx1".toList, .scalar (.bool true)),
    ("sections".toList, .list [sectionOn a, sectionOn b])]

theorem setup_twoSections (a b : Int) :
    Setup twoDevices [] (twoSections a b) [(0, 67108864), (1, 67108864)]
      [(a, 67108864), (b, 67108864)] := by
  refine ⟨⟨["epc0".toList, "epc1".toList], by decide, ?_⟩, ⟨"sgx sgx1".toList, rfl, ?_⟩,
    [sectionOn a, sectionOn b], rfl, ?_⟩
  · exact .cons (by simp only [Configures]; decide) (.cons (by simp only [Configures]; decide) .nil)
  · have hwords : Text.words "sgx sgx1".toList = ["sgx".toList, "sgx1".toList] := by decide
    rw [hwords]
    simp only [List.forall_mem_cons]
    exact ⟨rfl, rfl, List.forall_mem_nil _⟩
  · exact .cons ⟨rfl, rfl⟩ (.cons ⟨rfl, rfl⟩ .nil)

/-- The sections may come in any order. -/
theorem verify_swapped :
    verifyQmpGuestSgxCap twoDevices Floats.absent [] (twoSections 1 0) = .ok () :=
  ((verify_exact_iff Floats.absent (setup_twoSections 1 0)).mpr
    (.inr (List.Perm.swap _ _ _))).mpr (List.Perm.swap _ _ _)

/-- Two sections on node 0 pass too. -/
theorem verify_wrong_nodes :
    ¬∀ (P F : Type) (env : Env P) (fl : Floats F) (params : P) (info : Value F)
      (devs sects : List (Int × Int)), Setup env params info devs sects →
      (verifyQmpGuestSgxCap env fl params info = .ok () ↔ sects.Perm devs) := by
  intro h
  have hiff := h _ _ twoDevices Floats.absent [] (twoSections 0 0) _ _ (setup_twoSections 0 0)
  have hpass := (verifyQmpGuestSgxCap_iff Floats.absent (setup_twoSections 0 0)).mpr rfl
  exact absurd (hiff.mp hpass) (by decide)

end TpQemu.Sgx

import Mathlib.Data.Finset.Card
import Mathlib.Data.Finset.Sort
import Mathlib.Data.String.Basic
import TpQemu.Lib.HashSet
import TpQemu.Lib.Python

/-!
# Restoring memory devices

`restore_memory` and `unplug_memory` of `qemu/tests/hotplug_mem.py`. The direction is chosen by
comparing the numbers of devices, and devices are unplugged from the machine as it was before.
-/

namespace TpQemu.HotplugMem

/-- `pre_vm` and `post_vm` -/
inductive Vm where
  | pre
  | post
  deriving DecidableEq

/-- The memory devices of the machines. -/
abbrev Machines := Vm → Finset String

/-- What is used of `virttest`: the methods of the base class add and remove a device. -/
structure Virttest where
  hotplugMemory : Vm → String → Machines → Except PyError Machines
  unplugMemory : Vm → String → Machines → Except PyError Machines
  /-- `vm.devices.get_by_qid` finds a device. -/
  getByQid : Machines → Vm → String → Bool
  hotplug_adds : ∀ vm m s, hotplugMemory vm m s = .ok (Function.update s vm (insert m (s vm)))
  unplug_removes : ∀ vm m s, unplugMemory vm m s = .ok (Function.update s vm ((s vm).erase m))

/-- The machines, and which devices have been plugged and unplugged. -/
structure State where
  machines : Machines
  plugged : List (Vm × String)
  unplugged : List (Vm × String)

namespace State

variable (s : State) {vm vm' : Vm} {m : String}

def plug (vm : Vm) (m : String) : State :=
  { s with
    machines := Function.update s.machines vm (insert m (s.machines vm))
    plugged := s.plugged ++ [(vm, m)] }

def unplug (vm : Vm) (m : String) : State :=
  { s with
    machines := Function.update s.machines vm ((s.machines vm).erase m)
    unplugged := s.unplugged ++ [(vm, m)] }

theorem machines_plug_self : (s.plug vm m).machines vm = insert m (s.machines vm) :=
  Function.update_self _ _ _

theorem machines_plug_ne (h : vm' ≠ vm) : (s.plug vm m).machines vm' = s.machines vm' :=
  Function.update_of_ne h _ _

theorem machines_unplug_ne (h : vm' ≠ vm) : (s.unplug vm m).machines vm' = s.machines vm' :=
  Function.update_of_ne h _ _

end State

section Definitions

variable (v : Virttest) (o : SetOrder String) (strictCheck : Bool)

/-- `hotplug_memory` -/
def hotplugMemory (vm : Vm) (s : State) (m : String) : Except PyError State := do
  let machines ← v.hotplugMemory vm m s.machines
  return { s with machines := machines, plugged := s.plugged ++ [(vm, m)] }

/-- `get_mem_by_name` finds a device. -/
def getMemByName (s : State) (vm : Vm) (name : String) : Bool :=
  ["mem", "dimm"].any fun x => v.getByQid s.machines vm (x ++ "-" ++ name)

/-- `unplug_memory`: a device that does not exist is plugged first. -/
def unplugMemory (vm : Vm) (s : State) (m : String) : Except PyError State := do
  let s ←
    if getMemByName v s vm m = false ∧ strictCheck = false then hotplugMemory v vm s m
    else pure s
  let machines ← v.unplugMemory vm m s.machines
  return { s with machines := machines, unplugged := s.unplugged ++ [(vm, m)] }

/-- `restore_memory` -/
def restoreMemory (s : State) : Except PyError State :=
  let memDevsPost := s.machines .post
  let memDevsOrigin := s.machines .pre
  if memDevsPost = memDevsOrigin then .ok s
  else if memDevsPost.card < memDevsOrigin.card then
    (o.list (memDevsOrigin \ memDevsPost)).foldlM (hotplugMemory v .post) s
  else if memDevsOrigin.card < memDevsPost.card then
    (o.list (memDevsPost \ memDevsOrigin)).foldlM (unplugMemory v strictCheck .pre) s
  else .error .unboundLocalError

/-- The devices that are missing are plugged into the machine and the others unplugged from it, so
that it has the devices it had before. -/
def Restores (machines : Machines) : Prop :=
  ∃ s, restoreMemory v o strictCheck ⟨machines, [], []⟩ = .ok s ∧
    s.machines .post = machines .pre ∧ s.machines .pre = machines .pre ∧
    (∀ vm m, (vm, m) ∈ s.plugged ↔ vm = .post ∧ m ∈ machines .pre \ machines .post) ∧
    ∀ vm m, (vm, m) ∈ s.unplugged ↔ vm = .post ∧ m ∈ machines .post \ machines .pre

end Definitions

/-! ## The loops -/

section Loops

variable (v : Virttest)

theorem hotplugMemory_eq (vm : Vm) (s : State) (m : String) :
    hotplugMemory v vm s m = .ok (s.plug vm m) := by
  rw [hotplugMemory, v.hotplug_adds]
  rfl

/-- Plugging devices in a loop. -/
theorem foldlM_hotplugMemory (l : List String) (s : State) :
    ∃ t, l.foldlM (hotplugMemory v .post) s = .ok t ∧
      t.machines .post = s.machines .post ∪ l.toFinset ∧ t.machines .pre = s.machines .pre ∧
      t.plugged = s.plugged ++ l.map (Vm.post, ·) ∧ t.unplugged = s.unplugged := by
  induction l generalizing s with
  | nil => exact ⟨s, rfl, by simp, rfl, by simp, rfl⟩
  | cons m l ih =>
      rw [List.foldlM_cons, bind_of_eq_ok (hotplugMemory_eq v .post s m)]
      obtain ⟨t, hrun, hpost, hpre, hplugged, hunplugged⟩ := ih (s.plug .post m)
      refine ⟨t, hrun, ?_, ?_, ?_, hunplugged⟩
      · rw [hpost, s.machines_plug_self, List.toFinset_cons, Finset.insert_union,
          Finset.union_insert]
      · rw [hpre, s.machines_plug_ne (by decide)]
      · rw [hplugged, State.plug, List.map_cons, List.append_assoc, List.singleton_append]

/-- Unplugging a device concerns one machine only. -/
theorem unplugMemory_other (strictCheck : Bool) (vm : Vm) (s : State) (m : String) :
    ∃ t, unplugMemory v strictCheck vm s m = .ok t ∧
      ∀ vm', vm' ≠ vm → t.machines vm' = s.machines vm' := by
  have hunplug : ∀ s₁ : State, (do
      let machines ← v.unplugMemory vm m s₁.machines
      return { s₁ with machines := machines, unplugged := s₁.unplugged ++ [(vm, m)] }) =
        (.ok (s₁.unplug vm m) : Except PyError State) := by
    intro s₁
    rw [v.unplug_removes]
    rfl
  rw [unplugMemory]
  split
  · refine ⟨(s.plug vm m).unplug vm m, ?_, ?_⟩
    · rw [hotplugMemory_eq]
      exact hunplug _
    · intro vm' hne
      rw [State.machines_unplug_ne _ hne, State.machines_plug_ne _ hne]
  · refine ⟨s.unplug vm m, hunplug s, ?_⟩
    intro vm' hne
    exact s.machines_unplug_ne hne

theorem foldlM_unplugMemory (strictCheck : Bool) (vm : Vm) (l : List String) (s : State) :
    ∃ t, l.foldlM (unplugMemory v strictCheck vm) s = .ok t ∧
      ∀ vm', vm' ≠ vm → t.machines vm' = s.machines vm' := by
  induction l generalizing s with
  | nil => exact ⟨s, rfl, fun _ _ => rfl⟩
  | cons m l ih =>
      obtain ⟨t, hfirst, hother⟩ := unplugMemory_other v strictCheck vm s m
      obtain ⟨u, hrest, hother'⟩ := ih t
      rw [List.foldlM_cons, bind_of_eq_ok hfirst]
      exact ⟨u, hrest, fun vm' hne => (hother' vm' hne).trans (hother vm' hne)⟩

end Loops

/-! ## Which machines are restored -/

section Restores

variable (v : Virttest) (o : SetOrder String) (strictCheck : Bool)

/-- The machine that has fewer devices gets those it lacks. -/
theorem restores_of_subset {machines : Machines} (h : machines .post ⊆ machines .pre) :
    Restores v o strictCheck machines := by
  by_cases heq : machines .post = machines .pre
  · refine ⟨⟨machines, [], []⟩, if_pos heq, heq, rfl, ?_, ?_⟩
    · intro vm m
      simp [heq]
    · intro vm m
      simp [heq]
  · have hlt := Finset.card_lt_card (Finset.ssubset_iff_subset_ne.mpr ⟨h, heq⟩)
    have hlist : (o.list (machines .pre \ machines .post)).toFinset =
        machines .pre \ machines .post := by
      ext x
      rw [List.mem_toFinset, o.mem_iff]
    obtain ⟨t, hrun, hpost, hpre, hplugged, hunplugged⟩ :=
      foldlM_hotplugMemory v (o.list (machines .pre \ machines .post)) ⟨machines, [], []⟩
    refine ⟨t, ?_, ?_, hpre, ?_, ?_⟩
    · rw [restoreMemory, if_neg heq, if_pos hlt]
      exact hrun
    · rw [hpost, hlist, Finset.union_sdiff_of_subset h]
    · intro vm m
      rw [hplugged, List.nil_append, List.mem_map, ← o.mem_iff]
      constructor
      · rintro ⟨x, hx, heq⟩
        cases heq
        exact ⟨rfl, hx⟩
      · rintro ⟨rfl, hm⟩
        exact ⟨m, hm, rfl⟩
    · intro vm m
      rw [hunplugged, Finset.sdiff_eq_empty_iff_subset.mpr h]
      exact iff_of_false List.not_mem_nil fun hm => Finset.notMem_empty m hm.2

/-- No branch unplugs a device from the machine. -/
theorem subset_of_restores {machines : Machines} (h : Restores v o strictCheck machines) :
    machines .post ⊆ machines .pre := by
  obtain ⟨s, hrun, hrestored, -⟩ := h
  rw [restoreMemory] at hrun
  dsimp only at hrun
  split at hrun
  · rename_i heq
    exact heq.subset
  · split at hrun
    · obtain ⟨t, ht, hpost, -⟩ :=
        foldlM_hotplugMemory v (o.list (machines .pre \ machines .post)) ⟨machines, [], []⟩
      cases hrun.symm.trans ht
      rw [← hrestored, hpost]
      exact Finset.subset_union_left
    · split at hrun
      · obtain ⟨t, ht, hother⟩ := foldlM_unplugMemory v strictCheck .pre
          (o.list (machines .post \ machines .pre)) ⟨machines, [], []⟩
        cases hrun.symm.trans ht
        rw [← hrestored, hother .post (by decide)]
      · cases hrun

/-- The devices are restored exactly if none was added to the machine. -/
theorem restores_iff_subset (machines : Machines) :
    Restores v o strictCheck machines ↔ machines .post ⊆ machines .pre :=
  ⟨subset_of_restores v o strictCheck, restores_of_subset v o strictCheck⟩

end Restores

/-- Methods that only add and remove a device, and find the devices that are there. -/
def plainVirttest : Virttest where
  hotplugMemory vm m s := .ok (Function.update s vm (insert m (s vm)))
  unplugMemory vm m s := .ok (Function.update s vm ((s vm).erase m))
  getByQid s vm qid := decide (qid ∈ (s vm).image ("mem-" ++ ·) ∪ (s vm).image ("dimm-" ++ ·))
  hotplug_adds _ _ _ := rfl
  unplug_removes _ _ _ := rfl

/-- The loops go through sets in the order of the names. -/
def sortedOrder : SetOrder String where
  list s := s.sort (· ≤ ·)
  nodup s := s.sort_nodup (· ≤ ·)
  mem_iff _ _ := Finset.mem_sort (· ≤ ·)

/-- The device `mem2` was added to the machine. -/
def grown : Machines
  | .pre => {"mem1"}
  | .post => {"mem1", "mem2"}

/-- It stays there. -/
theorem grown_not_restored : ¬Restores plainVirttest sortedOrder false grown := by
  intro h
  have hsubset := subset_of_restores plainVirttest sortedOrder false h
  exact absurd hsubset (by decide)

/-- One device has been replaced by another one. -/
example (s : State) (hpre : s.machines .pre = {"mem1"}) (hpost : s.machines .post = {"mem2"}) :
    restoreMemory plainVirttest sortedOrder false s = .error .unboundLocalError := by
  simp only [restoreMemory, hpre, hpost]
  rfl

end TpQemu.HotplugMem

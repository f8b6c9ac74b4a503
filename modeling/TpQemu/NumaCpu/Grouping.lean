import TpQemu.Lib.Grouping
import TpQemu.NumaCpu.Topology
import Mathlib.Data.Char
import Mathlib.Data.List.Dedup
import Mathlib.Data.List.Flatten
import Mathlib.Data.List.Lex

/-!
# CPU ids by node

`numa_cpu_cli`, `numa_cpu_setted` and `get_hotpluggable_cpus` in `qemu/tests/numa_cpu.py`. All of
them collect the ids of each node and sort by node. The node ids of the command line are texts,
those that QEMU reports are numbers.
-/

namespace TpQemu.NumaCpu

open MixedRadix Dict

/-- The parameters of an object of `guest_numa_cpus`. -/
structure CliCpu where
  nodeid : Option (List Char)
  choice : Choice

/-- The `props` of an entry of `query-hotpluggable-cpus`, and the options of `set_numa_node`. -/
structure Props where
  nodeId : Option Int
  choice : Choice

section Definitions

variable {κ β : Type} [LinearOrder κ] (m : Machine)

/-- The loop that collects the ids of each node. -/
def groupCpus (nodeid : β → Except PyError κ) (choice : β → Choice) (cpus : List β) :
    Except PyError (Dict κ (List Int)) :=
  cpus.foldlM (fun tmp cpu => do
    let node ← nodeid cpu
    let cpuList ← convertCpuTopologyToIds m (choice cpu)
    return tmp.extend node cpuList) ∅

/-- The ids of each node in the order of the nodes. -/
def nodeLists (tmp : Dict κ (List Int)) : List (List Int) :=
  (tmp.sortedItems (· ≤ ·)).map fun item => item.2.insertionSort (· ≤ ·)

/-- `numa_cpu_cli` -/
def numaCpuCli (cpus : List CliCpu) : Except PyError (List (List Int)) := do
  let tmp ← groupCpus m (fun cpu => orRaise .keyError cpu.nodeid) CliCpu.choice cpus
  return nodeLists tmp

/-- `numa_cpu_setted` -/
def numaCpuSetted (numaCpuOptions : List Props) : Except PyError (List (List Int)) := do
  let tmp ← groupCpus m (fun cpu => orRaise .keyError cpu.nodeId) Props.choice numaCpuOptions
  return nodeLists tmp

/-- The options of a CPU without a node: the fields that are not `None`. -/
def options (choice : Choice) : List (Field × Arg) :=
  [.socketid, .dieid, .clusterid, .coreid, .threadid].filterMap fun field =>
    (choice field).map fun arg => (field, arg)

/-- One round of the loop of `get_hotpluggable_cpus`. -/
def addVcpu (acc : Dict Int (List Int) × List (List (Field × Arg))) (info : Props) :
    Except PyError (Dict Int (List Int) × List (List (Field × Arg))) :=
  match info.nodeId with
  | some nodeid => do
      let cpuList ← convertCpuTopologyToIds m info.choice
      return (acc.1.extend nodeid cpuList, acc.2)
  | none => return (acc.1, acc.2 ++ [options info.choice])

/-- `get_hotpluggable_cpus`: the ids of each node, and the CPUs without a node. -/
def getHotpluggableCpus (out : List Props) :
    Except PyError (List (List Int) × List (List (Field × Arg))) := do
  let (tmp, unspecifiedCpus) ← out.foldlM (addVcpu m) (∅, [])
  return (nodeLists tmp, unspecifiedCpus)

end Definitions

/-! ## The CPUs that are named -/

/-- CPUs given to a node: the fields as they are read, and what they mean. -/
structure Given where
  node : Nat
  choice : Choice
  values : Field → Option Nat

/-- On POWER an id is a core together with a thread. -/
def coreIds (m : Machine) (values : Field → Option Nat) : List Int :=
  match values .coreid with
  | some core => range core (core + m.threads)
  | none => []

/-- The ids of the CPUs that the fields name. -/
def named (m : Machine) (values : Field → Option Nat) : List Int :=
  match m.arch with
  | .ppc64 => coreIds m values
  | _ => (numbers (digits m values)).map (↑)

/-- The ids that the code takes. -/
def taken (m : Machine) (values : Field → Option Nat) : List Int :=
  match m.arch with
  | .ppc64 => coreIds m values
  | _ => (between (digits m values)).map (↑)

/-- The fields can be read, and their values are those of a CPU. -/
def Valid (m : Machine) (choice : Choice) (values : Field → Option Nat) : Prop :=
  match m.arch with
  | .ppc64 => 0 < m.threads ∧ ∃ core arg, values .coreid = some core ∧
      choice .coreid = some arg ∧ arg.int = .ok (core : Int)
  | .other => False
  | _ => Means m choice values ∧ Proper (digits m values)

/-- No field is omitted in front of a given one. -/
def Exact (m : Machine) (values : Field → Option Nat) : Prop :=
  m.Radix → Gapless (digits m values)

section Valid

variable {m : Machine} {choice : Choice} {values : Field → Option Nat}

/-- The two kinds of machines. -/
theorem Valid.cases (h : Valid m choice values) :
    (m.Radix ∧ Means m choice values ∧ Proper (digits m values) ∧
      named m values = (numbers (digits m values)).map (↑) ∧
      taken m values = (between (digits m values)).map (↑)) ∨
    (¬m.Radix ∧ ∃ core arg, 0 < m.threads ∧ m.arch = .ppc64 ∧ choice .coreid = some arg ∧
      arg.int = .ok (core : Int) ∧ named m values = range core (core + m.threads) ∧
      taken m values = range core (core + m.threads)) := by
  cases harch : m.arch with
  | x86 =>
      rw [Valid, harch] at h
      exact .inl ⟨.inl harch, h.1, h.2, by rw [named, harch], by rw [taken, harch]⟩
  | aarch64 =>
      rw [Valid, harch] at h
      exact .inl ⟨.inr harch, h.1, h.2, by rw [named, harch], by rw [taken, harch]⟩
  | ppc64 =>
      rw [Valid, harch] at h
      obtain ⟨hthreads, core, arg, hcore, harg, hint⟩ := h
      have hids : coreIds m values = range core (core + m.threads) := by rw [coreIds, hcore]
      refine .inr ⟨fun hradix => ?_, core, arg, hthreads, rfl, harg, hint, ?_, ?_⟩
      · rcases hradix with hradix | hradix <;> rw [harch] at hradix <;> cases hradix
      · rw [named, harch, ← hids]
      · rw [taken, harch, ← hids]
  | other =>
      rw [Valid, harch] at h
      exact h.elim

theorem Valid.convert_eq (h : Valid m choice values) :
    convertCpuTopologyToIds m choice = .ok (taken m values) := by
  obtain ⟨hradix, hmeans, hproper, -, htaken⟩ | ⟨-, core, arg, -, harch, harg, hint, -, htaken⟩ :=
    h.cases
  · rw [NumaCpu.convert_eq hradix hmeans hproper, htaken]
  · rw [convertCpuTopologyToIds, harch, harg, htaken]
    dsimp only
    rw [hint, bind_of_eq_ok rfl, Int.sub_add_cancel]
    rfl

theorem Valid.named_subset (h : Valid m choice values) : named m values ⊆ taken m values := by
  obtain ⟨-, -, hproper, hnamed, htaken⟩ | ⟨-, core, arg, -, -, -, -, hnamed, htaken⟩ := h.cases
  · rw [hnamed, htaken]
    exact List.map_subset _ (numbers_subset_between hproper)
  · rw [hnamed, htaken]
    exact List.Subset.refl _

theorem Valid.taken_eq_iff (h : Valid m choice values) :
    taken m values = named m values ↔ Exact m values := by
  obtain ⟨hradix, -, hproper, hnamed, htaken⟩ | ⟨hradix, core, arg, -, -, -, -, hnamed, htaken⟩ :=
    h.cases
  · have hcast : Function.Injective ((↑) : Nat → Int) := fun _ _ => Int.ofNat.inj
    rw [hnamed, htaken, (List.map_injective_iff.mpr hcast).eq_iff, between_eq_numbers_iff hproper]
    exact ⟨fun hgapless _ => hgapless, fun hexact => hexact hradix⟩
  · rw [hnamed, htaken]
    exact iff_of_true rfl fun h => absurd h hradix

theorem Valid.pairwise_taken (h : Valid m choice values) : (taken m values).Pairwise (· < ·) := by
  obtain ⟨-, -, -, -, htaken⟩ | ⟨-, core, arg, -, -, -, -, -, htaken⟩ := h.cases
  · rw [htaken, List.pairwise_map]
    exact (pairwise_between _).imp fun h => by exact_mod_cast h
  · rw [htaken]
    exact pairwise_range _ _

theorem Valid.pairwise_named (h : Valid m choice values) : (named m values).Pairwise (· < ·) := by
  obtain ⟨-, -, -, hnamed, -⟩ | ⟨-, core, arg, -, -, -, -, hnamed, -⟩ := h.cases
  · rw [hnamed, List.pairwise_map]
    exact (pairwise_numbers _).imp fun h => by exact_mod_cast h
  · rw [hnamed]
    exact pairwise_range _ _

/-- At least one CPU is named. -/
theorem Valid.exists_mem_named (h : Valid m choice values) : ∃ id, id ∈ named m values := by
  obtain ⟨-, -, hproper, hnamed, -⟩ | ⟨-, core, arg, hthreads, -, -, -, hnamed, -⟩ := h.cases
  · refine ⟨(lowest (digits m values) : Nat), ?_⟩
    rw [hnamed]
    refine List.mem_map_of_mem (mem_numbers.mpr ⟨?_, agrees_lowest hproper⟩)
    exact (lowest_le_highest _).trans_lt (highest_lt hproper)
  · refine ⟨core, ?_⟩
    rw [hnamed, range, List.mem_map]
    exact ⟨0, List.mem_range.mpr (by omega), by simp⟩

end Valid

/-! ## The lists of the nodes -/

/-- The ids of each node, the nodes in the order of their values under `f`. -/
def listsBy {κ : Type} [LinearOrder κ] (f : Nat → κ) (ids : Given → List Int) (gs : List Given) :
    List (List Int) :=
  ((gs.map Given.node).dedup.insertionSort fun a b => f a ≤ f b).map fun node =>
    (collected (gs.map fun g => (g.node, ids g)) node).insertionSort (· ≤ ·)

/-- The sorted ids of each node, in the order of the numbers of the nodes. -/
def byNode (m : Machine) (gs : List Given) : List (List Int) :=
  listsBy id (fun g => named m g.values) gs

section Lists

variable {κ : Type} [LinearOrder κ] {f : Nat → κ} {m : Machine}

theorem nodeLists_grouped (hf : Function.Injective f) (ids : Given → List Int)
    (gs : List Given) :
    nodeLists (grouped (gs.map fun g => (f g.node, ids g))) = listsBy f ids gs := by
  have hkeys : ((grouped (gs.map fun g => (f g.node, ids g))).keys).insertionSort (· ≤ ·) =
      ((gs.map Given.node).dedup.insertionSort fun a b => f a ≤ f b).map f := by
    rw [List.map_insertionSort (fun a b => f a ≤ f b) (· ≤ ·) f _ fun _ _ _ _ => Iff.rfl]
    apply insertionSort_eq_of_nodup (Dict.nodup _) ((List.nodup_dedup _).map hf)
    intro k
    change k ∈ (grouped _).keys ↔ _
    rw [mem_keys_grouped, List.map_map]
    simp
  have hcollected : ∀ node, collected (gs.map fun g => (f g.node, ids g)) (f node) =
      collected (gs.map fun g => (g.node, ids g)) node := by
    intro node
    simp only [collected, List.filter_map, List.flatMap_map, Function.comp_def, hf.eq_iff]
  rw [nodeLists, map_sortedItems_grouped, hkeys, List.map_map, listsBy]
  refine List.map_congr_left fun node _ => ?_
  rw [Function.comp_apply, hcollected]

/-- Every id of a list is one of a node. -/
theorem flatten_listsBy_perm (ids : Given → List Int) (gs : List Given) :
    (listsBy f ids gs).flatten.Perm (gs.flatMap ids) := by
  have hsorted : (listsBy f ids gs).flatten.Perm
      (((gs.map Given.node).dedup.insertionSort fun a b => f a ≤ f b).flatMap
        (collected (gs.map fun g => (g.node, ids g)))) := by
    rw [listsBy, ← List.flatMap_def]
    exact List.Perm.flatMap_left _ fun node _ => List.perm_insertionSort _ _
  refine hsorted.trans ((flatMap_collected_perm ?_ ?_).trans ?_)
  · exact (List.perm_insertionSort _ _).nodup_iff.mpr (List.nodup_dedup _)
  · intro e he
    rw [List.mem_insertionSort, List.mem_dedup]
    obtain ⟨g, hg, rfl⟩ := List.mem_map.mp he
    exact List.mem_map_of_mem hg
  · rw [List.flatMap_map]

variable {β : Type} {nodeid : β → Except PyError κ} {choice : β → Choice} {read : Given → β}

theorem groupCpus_lists (hf : Function.Injective f)
    (hnode : ∀ g, nodeid (read g) = .ok (f g.node))
    (hchoice : ∀ g, choice (read g) = g.choice) {gs : List Given}
    (hvalid : ∀ g ∈ gs, Valid m g.choice g.values) :
    (do
      let tmp ← groupCpus m nodeid choice (gs.map read)
      return nodeLists tmp) = .ok (listsBy f (fun g => taken m g.values) gs) := by
  have hgroup : groupCpus m nodeid choice (gs.map read) =
      .ok (grouped (gs.map fun g => (f g.node, taken m g.values))) := by
    rw [groupCpus, grouped, List.foldl_map, List.foldlM_map]
    refine foldlM_eq_foldl (fun g hg tmp => ?_) ∅
    rw [hnode, hchoice, (hvalid g hg).convert_eq]
    rfl
  rw [bind_of_eq_ok hgroup, nodeLists_grouped hf]
  rfl

end Lists

/-- A CPU of the command line. -/
def Given.toCli (g : Given) : CliCpu := ⟨some (Numeral.str g.node), g.choice⟩

/-- A CPU with a node that QEMU reports. -/
def Given.toProps (g : Given) : Props := ⟨some (g.node : Int), g.choice⟩

theorem str_injective : Function.Injective fun node : Nat => Numeral.str node := by
  intro a b h
  have hint := congrArg Numeral.int h
  rw [Numeral.int_str (Int.natCast_nonneg a), Numeral.int_str (Int.natCast_nonneg b)] at hint
  exact Int.ofNat.inj (Option.some.inj hint)

section Functions

variable {m : Machine} {gs : List Given} (hvalid : ∀ g ∈ gs, Valid m g.choice g.values)

include hvalid

theorem numaCpuCli_eq : numaCpuCli m (gs.map Given.toCli) =
    .ok (listsBy (fun node => Numeral.str node) (fun g => taken m g.values) gs) := by
  apply groupCpus_lists str_injective _ _ hvalid
  · intro g
    rfl
  · intro g
    rfl

theorem numaCpuSetted_eq : numaCpuSetted m (gs.map Given.toProps) =
    .ok (listsBy ((↑) : Nat → Int) (fun g => taken m g.values) gs) := by
  apply groupCpus_lists Nat.cast_injective _ _ hvalid
  · intro g
    rfl
  · intro g
    rfl

/-- The CPUs without a node leave the lists of the nodes as they are. -/
theorem foldlM_addVcpu {out : List Props}
    (hout : out.filter (·.nodeId.isSome) = gs.map Given.toProps)
    (acc : Dict Int (List Int) × List (List (Field × Arg))) :
    ∃ unspecified, out.foldlM (addVcpu m) acc =
      .ok ((gs.map fun g => ((g.node : Int), taken m g.values)).foldl
        (fun d e => d.extend e.1 e.2) acc.1, unspecified) := by
  induction out generalizing gs acc with
  | nil =>
      rw [List.filter_nil, List.nil_eq, List.map_eq_nil_iff] at hout
      subst hout
      exact ⟨acc.2, rfl⟩
  | cons info out ih =>
      obtain ⟨nodeId, choice⟩ := info
      cases nodeId with
      | none =>
          obtain ⟨unspecified, h⟩ := ih hvalid hout (acc.1, acc.2 ++ [options choice])
          exact ⟨unspecified, h⟩
      | some node =>
          rw [List.filter_cons_of_pos rfl] at hout
          obtain ⟨g, gs, rfl, hg, hrest⟩ := List.map_eq_cons_iff.mp hout.symm
          obtain ⟨hvalid, hothers⟩ := List.forall_mem_cons.mp hvalid
          cases hg
          obtain ⟨unspecified, h⟩ :=
            ih hothers hrest.symm (acc.1.extend (g.node : Int) (taken m g.values), acc.2)
          refine ⟨unspecified, ?_⟩
          rw [List.foldlM_cons]
          refine (bind_of_eq_ok ?_ _).trans h
          rw [addVcpu, hvalid.convert_eq]
          rfl

theorem getHotpluggableCpus_eq {out : List Props}
    (hout : out.filter (·.nodeId.isSome) = gs.map Given.toProps) :
    ∃ unspecified, getHotpluggableCpus m out =
      .ok (listsBy ((↑) : Nat → Int) (fun g => taken m g.values) gs, unspecified) := by
  obtain ⟨unspecified, h⟩ := foldlM_addVcpu hvalid hout (∅, [])
  refine ⟨unspecified, ?_⟩
  rw [getHotpluggableCpus, bind_of_eq_ok h, ← nodeLists_grouped Nat.cast_injective]
  rfl

end Functions

/-! ## Agreement -/

/-- QEMU reports each CPU of the command line with its node, once. -/
structure Reports (m : Machine) (cli reported : List Given) : Prop where
  valid : ∀ g ∈ reported, Valid m g.choice g.values
  exact : ∀ g ∈ reported, Exact m g.values
  once : (reported.flatMap fun g => named m g.values).Nodup
  same : ∀ node id, (∃ g ∈ reported, g.node = node ∧ id ∈ named m g.values) ↔
    ∃ g ∈ cli, g.node = node ∧ id ∈ named m g.values

/-- The texts of the nodes are ordered as the nodes are. -/
def TextOrdered (gs : List Given) : Prop :=
  ∀ g ∈ gs, ∀ g' ∈ gs, g.node < g'.node → Numeral.str g.node < Numeral.str g'.node

section Disjoint

variable {ids : Given → List Int} {gs : List Given}

/-- An id belongs to one of the entries only. -/
theorem eq_of_mem_of_nodup (h : (gs.flatMap ids).Nodup) {g g' : Given} (hg : g ∈ gs)
    (hg' : g' ∈ gs) {id : Int} (hid : id ∈ ids g) (hid' : id ∈ ids g') : g = g' := by
  have hdisjoint := (List.nodup_flatMap.mp h).2
  by_contra hne
  have hsymm : Std.Symm (Function.onFun List.Disjoint ids) := ⟨fun _ _ => List.Disjoint.symm⟩
  exact hdisjoint.forall hg hg' hne hid hid'

theorem mem_collected_node {node : Nat} {id : Int} :
    id ∈ collected (gs.map fun g => (g.node, ids g)) node ↔
      ∃ g ∈ gs, g.node = node ∧ id ∈ ids g := by
  rw [mem_collected]
  constructor
  · rintro ⟨l, hmem, hid⟩
    obtain ⟨g, hg, heq⟩ := List.mem_map.mp hmem
    cases heq
    exact ⟨g, hg, rfl, hid⟩
  · rintro ⟨g, hg, rfl, hid⟩
    exact ⟨ids g, List.mem_map_of_mem hg, hid⟩

theorem nodup_collected (h : (gs.flatMap ids).Nodup) (node : Nat) :
    (collected (gs.map fun g => (g.node, ids g)) node).Nodup := by
  refine h.sublist ?_
  rw [collected, List.filter_map, List.flatMap_map]
  exact List.filter_sublist.flatMap _

end Disjoint

theorem mem_nodes {gs : List Given} {node : Nat} :
    node ∈ (gs.map Given.node).dedup ↔ ∃ g ∈ gs, g.node = node := by
  rw [List.mem_dedup, List.mem_map]

/-- The nodes are in the order of their numbers exactly if their texts are ordered as they are. -/
theorem sorted_nodes_eq_iff (gs : List Given) :
    ((gs.map Given.node).dedup.insertionSort fun a b : Nat => Numeral.str a ≤ Numeral.str b) =
      (gs.map Given.node).dedup.insertionSort (· ≤ ·) ↔ TextOrdered gs := by
  rw [insertionSort_eq_iff str_injective]
  constructor
  · intro h g hg g' hg' hlt
    exact h _ (mem_nodes.mpr ⟨g, hg, rfl⟩) _ (mem_nodes.mpr ⟨g', hg', rfl⟩) hlt
  · intro h a ha b hb hlt
    obtain ⟨g, hg, rfl⟩ := mem_nodes.mp ha
    obtain ⟨g', hg', rfl⟩ := mem_nodes.mp hb
    exact h g hg g' hg' hlt

/-- Lists with the same values are the same if no two of their elements share a value. -/
theorem eq_of_map_eq_map {α β : Type} {f : α → β} {l l' : List α}
    (hinj : ∀ a ∈ l, ∀ b ∈ l', f a = f b → a = b) (h : l.map f = l'.map f) : l = l' := by
  induction l generalizing l' with
  | nil => exact (List.map_eq_nil_iff.mp h.symm).symm
  | cons a l ih =>
      obtain ⟨b, l', rfl, hb, hrest⟩ := List.map_eq_cons_iff.mp h.symm
      have hhead := hinj a List.mem_cons_self b List.mem_cons_self hb.symm
      have htail := ih (fun a ha b hb => hinj a (List.mem_cons_of_mem _ ha) b
        (List.mem_cons_of_mem _ hb)) hrest.symm
      rw [hhead, htail]

namespace Reports

variable {m : Machine} {cli reported : List Given} (h : Reports m cli reported)

include h

/-- The nodes that are reported are those of the command line. -/
theorem nodes_eq (hvalid : ∀ g ∈ cli, Valid m g.choice g.values) :
    (reported.map Given.node).dedup.insertionSort (· ≤ ·) =
      (cli.map Given.node).dedup.insertionSort (· ≤ ·) := by
  apply insertionSort_eq_of_nodup (List.nodup_dedup _) (List.nodup_dedup _)
  intro node
  rw [mem_nodes, mem_nodes]
  constructor
  · rintro ⟨g, hg, hnode⟩
    obtain ⟨id, hid⟩ := (h.valid g hg).exists_mem_named
    obtain ⟨g', hg', hnode', -⟩ := (h.same node id).mp ⟨g, hg, hnode, hid⟩
    exact ⟨g', hg', hnode'⟩
  · rintro ⟨g, hg, hnode⟩
    obtain ⟨id, hid⟩ := (hvalid g hg).exists_mem_named
    obtain ⟨g', hg', hnode', -⟩ := (h.same node id).mpr ⟨g, hg, hnode, hid⟩
    exact ⟨g', hg', hnode'⟩

/-- The specified list is in the order of the numbers of the nodes. -/
theorem listsBy_taken_eq : listsBy ((↑) : Nat → Int) (fun g => taken m g.values) reported =
    byNode m reported := by
  have htaken : (reported.map fun g => (g.node, taken m g.values)) =
      reported.map fun g => (g.node, named m g.values) := by
    refine List.map_congr_left fun g hg => ?_
    rw [(h.valid g hg).taken_eq_iff.mpr (h.exact g hg)]
  simp only [byNode, listsBy, htaken, Nat.cast_le, id]

/-- If no id is given twice, the lists of a node are the same. -/
theorem collected_eq (honce : (cli.flatMap fun g => named m g.values).Nodup) (node : Nat) :
    (collected (cli.map fun g => (g.node, named m g.values)) node).insertionSort (· ≤ ·) =
      (collected (reported.map fun g => (g.node, named m g.values)) node).insertionSort
        (· ≤ ·) := by
  apply insertionSort_eq_of_nodup (nodup_collected honce node) (nodup_collected h.once node)
  intro id
  rw [mem_collected_node, mem_collected_node]
  exact (h.same node id).symm

/-- If the lists agree, no list has an id that is not named. -/
theorem exact_of_eq (hvalid : ∀ g ∈ cli, Valid m g.choice g.values)
    (heq : listsBy (fun node => Numeral.str node) (fun g => taken m g.values) cli =
      byNode m reported) :
    (cli.flatMap fun g => taken m g.values).Nodup ∧ ∀ g ∈ cli, Exact m g.values := by
  have hperm : (cli.flatMap fun g => taken m g.values).Perm
      (reported.flatMap fun g => named m g.values) := by
    have hcli := flatten_listsBy_perm (f := fun node => Numeral.str node)
      (fun g => taken m g.values) cli
    rw [heq] at hcli
    exact hcli.symm.trans (flatten_listsBy_perm _ reported)
  have honce := hperm.nodup_iff.mpr h.once
  refine ⟨honce, fun g hg => ?_⟩
  -- an id that is taken is named by an entry of its node, which takes it too
  have hsubset : taken m g.values ⊆ named m g.values := by
    intro id hid
    have hmem := hperm.mem_iff.mp (List.mem_flatMap.mpr ⟨g, hg, hid⟩)
    obtain ⟨r, hr, hidr⟩ := List.mem_flatMap.mp hmem
    obtain ⟨g', hg', -, hid'⟩ := (h.same r.node id).mp ⟨r, hr, rfl, hidr⟩
    have hsame := eq_of_mem_of_nodup honce hg hg' hid ((hvalid g' hg').named_subset hid')
    rwa [hsame]
  apply (hvalid g hg).taken_eq_iff.mp
  have hiff : ∀ id, id ∈ taken m g.values ↔ id ∈ named m g.values :=
    fun id => ⟨fun hid => hsubset hid, fun hid => (hvalid g hg).named_subset hid⟩
  have hperm' := (List.perm_ext_iff_of_nodup ((hvalid g hg).pairwise_taken.imp ne_of_lt)
    ((hvalid g hg).pairwise_named.imp ne_of_lt)).mpr hiff
  exact hperm'.eq_of_pairwise' (hvalid g hg).pairwise_taken (hvalid g hg).pairwise_named

end Reports

section Agreement

variable {m : Machine} {cli reported : List Given}
  (hvalid : ∀ g ∈ cli, Valid m g.choice g.values) (h : Reports m cli reported)

include hvalid h

theorem textOrdered_of_eq (honce : (cli.flatMap fun g => named m g.values).Nodup)
    (heq : listsBy (fun node => Numeral.str node) (fun g => named m g.values) cli =
      byNode m reported) : TextOrdered cli := by
  apply (sorted_nodes_eq_iff cli).mp
  simp only [byNode, listsBy, id, h.nodes_eq hvalid, ← h.collected_eq honce] at heq
  apply eq_of_map_eq_map _ heq
  intro node hnode node' _ hlists
  obtain ⟨g, hg, rfl⟩ := mem_nodes.mp ((List.mem_insertionSort _).mp hnode)
  obtain ⟨id, hid⟩ := (hvalid g hg).exists_mem_named
  have hmem : id ∈ collected (cli.map fun g => (g.node, named m g.values)) node' := by
    rw [← List.mem_insertionSort (· ≤ ·), ← hlists, List.mem_insertionSort]
    exact mem_collected_node.mpr ⟨g, hg, rfl, hid⟩
  obtain ⟨g', hg', hnode', hid'⟩ := mem_collected_node.mp hmem
  rw [← hnode', eq_of_mem_of_nodup honce hg hg' hid hid']

theorem listsBy_eq_byNode_iff :
    listsBy (fun node => Numeral.str node) (fun g => taken m g.values) cli = byNode m reported ↔
      (∀ g ∈ cli, Exact m g.values) ∧ (cli.flatMap fun g => named m g.values).Nodup ∧
        TextOrdered cli := by
  have htaken : (∀ g ∈ cli, Exact m g.values) → ∀ g ∈ cli, taken m g.values = named m g.values :=
    fun hexact g hg => (hvalid g hg).taken_eq_iff.mpr (hexact g hg)
  have hlists : (∀ g ∈ cli, Exact m g.values) →
      listsBy (fun node => Numeral.str node) (fun g => taken m g.values) cli =
        listsBy (fun node => Numeral.str node) (fun g => named m g.values) cli := by
    intro hexact
    have hmap : (cli.map fun g => (g.node, taken m g.values)) =
        cli.map fun g => (g.node, named m g.values) :=
      List.map_congr_left fun g hg => by rw [htaken hexact g hg]
    simp only [listsBy, hmap]
  constructor
  · intro heq
    obtain ⟨honce, hexact⟩ := h.exact_of_eq hvalid heq
    rw [List.flatMap_congr (htaken hexact)] at honce
    exact ⟨hexact, honce, textOrdered_of_eq hvalid h honce ((hlists hexact).symm.trans heq)⟩
  · rintro ⟨hexact, honce, htext⟩
    rw [hlists hexact]
    simp only [byNode, listsBy, id, h.nodes_eq hvalid, ← h.collected_eq honce,
      (sorted_nodes_eq_iff cli).mpr htext]

/-- The lists of the command line and the specified lists agree, in the order of the nodes,
exactly if each entry names the CPUs between its lowest and its highest one, none of them twice,
and the texts of the nodes are in the order of the nodes. -/
theorem groupings_agree_iff {out : List Props}
    (hout : out.filter (·.nodeId.isSome) = reported.map Given.toProps) :
    (numaCpuCli m (cli.map Given.toCli) = .ok (byNode m reported) ∧
      ∃ unspecified, getHotpluggableCpus m out = .ok (byNode m reported, unspecified)) ↔
      (∀ g ∈ cli, Exact m g.values) ∧ (cli.flatMap fun g => named m g.values).Nodup ∧
        TextOrdered cli := by
  rw [numaCpuCli_eq hvalid, Except.ok.injEq, listsBy_eq_byNode_iff hvalid h]
  refine and_iff_left ?_
  rw [← h.listsBy_taken_eq]
  exact getHotpluggableCpus_eq h.valid hout

end Agreement

/-- Two sockets with one CPU each. -/
def twoSockets : Machine := ⟨.x86, 2, 1, 1, 1, 1⟩

/-- A socket that the command line gives to a node. -/
def cliSocket (node socket : Nat) : Given :=
  ⟨node, oneField .socketid (Numeral.str socket), Function.update (fun _ => none) .socketid socket⟩

/-- The CPU of a socket as QEMU reports it. -/
def reportedCpu (node socket : Nat) : Given where
  node := node
  choice
    | .socketid => some (.number socket)
    | .clusterid => none
    | _ => some (.number 0)
  values
    | .socketid => some socket
    | .clusterid => none
    | _ => some 0

@[simp] theorem cliSocket_node (node socket : Nat) : (cliSocket node socket).node = node := rfl

@[simp] theorem reportedCpu_node (node socket : Nat) : (reportedCpu node socket).node = node := rfl

theorem valid_cliSocket (node socket : Nat) (h : socket < 2) :
    Valid twoSockets (cliSocket node socket).choice (cliSocket node socket).values := by
  constructor
  · intro p hp
    have hint := Numeral.int_str (Int.natCast_nonneg socket)
    simp only [twoSockets, Machine.fields, List.mem_cons, List.not_mem_nil, or_false] at hp
    rcases hp with rfl | rfl | rfl | rfl <;>
      simp [cliSocket, oneField, Function.update, Arg.int, hint]
  · simp [Proper, digits, twoSockets, Machine.fields, cliSocket, Function.update]
    omega

theorem valid_reportedCpu (node socket : Nat) (h : socket < 2) :
    Valid twoSockets (reportedCpu node socket).choice (reportedCpu node socket).values := by
  constructor
  · intro p hp
    simp only [twoSockets, Machine.fields, List.mem_cons, List.not_mem_nil, or_false] at hp
    rcases hp with rfl | rfl | rfl | rfl <;> simp [reportedCpu, Arg.int]
  · simp [Proper, digits, twoSockets, Machine.fields, reportedCpu]
    omega

theorem exact_sockets (node socket : Nat) :
    Exact twoSockets (cliSocket node socket).values ∧
      Exact twoSockets (reportedCpu node socket).values := by
  constructor <;> intro _ <;>
    simp [Gapless, digits, twoSockets, Machine.fields, cliSocket, reportedCpu, Function.update]

theorem named_sockets (node socket : Nat) (h : socket < 2) :
    named twoSockets (cliSocket node socket).values = [(socket : Int)] ∧
      named twoSockets (reportedCpu node socket).values = [(socket : Int)] := by
  interval_cases socket
  · change named twoSockets (cliSocket 0 0).values = [0] ∧
      named twoSockets (reportedCpu 0 0).values = [0]
    decide
  · change named twoSockets (cliSocket 0 1).values = [1] ∧
      named twoSockets (reportedCpu 0 1).values = [1]
    decide

theorem reports_sockets (a b : Nat) :
    Reports twoSockets [cliSocket a 0, cliSocket b 1] [reportedCpu a 0, reportedCpu b 1] := by
  have hzero := named_sockets a 0 (by decide)
  have hone := named_sockets b 1 (by decide)
  refine ⟨?_, ?_, ?_, ?_⟩
  · simp [valid_reportedCpu]
  · simp [exact_sockets]
  · simp [hzero, hone]
  · intro node id
    simp [hzero, hone]

/-- The nodes 0 and 1. -/
theorem groupings_agree_zero_one :
    numaCpuCli twoSockets ([cliSocket 0 0, cliSocket 1 1].map Given.toCli) =
      .ok (byNode twoSockets [reportedCpu 0 0, reportedCpu 1 1]) := by
  have hout : ([reportedCpu 0 0, reportedCpu 1 1].map Given.toProps).filter (·.nodeId.isSome) =
      [reportedCpu 0 0, reportedCpu 1 1].map Given.toProps := rfl
  refine ((groupings_agree_iff ?_ (reports_sockets 0 1) hout).mpr ⟨?_, ?_, ?_⟩).1
  · simp [valid_cliSocket]
  · simp [exact_sockets]
  · simp [named_sockets]
  · simp only [TextOrdered, List.forall_mem_cons]
    decide

/-- With the nodes 2 and 10 the command line has the ids of node 10 first. -/
theorem groupings_differ_two_ten :
    ¬∀ (m : Machine) (cli reported : List Given) (out : List Props),
      (∀ g ∈ cli, Valid m g.choice g.values) → Reports m cli reported →
      out.filter (·.nodeId.isSome) = reported.map Given.toProps →
      numaCpuCli m (cli.map Given.toCli) = .ok (byNode m reported) ∧
        ∃ unspecified, getHotpluggableCpus m out = .ok (byNode m reported, unspecified) := by
  intro h
  have hvalid : ∀ g ∈ [cliSocket 2 0, cliSocket 10 1], Valid twoSockets g.choice g.values := by
    simp [valid_cliSocket]
  have hagree := h twoSockets _ _ ([reportedCpu 2 0, reportedCpu 10 1].map Given.toProps) hvalid
    (reports_sockets 2 10) rfl
  exact absurd hagree.1 (by decide)

end TpQemu.NumaCpu

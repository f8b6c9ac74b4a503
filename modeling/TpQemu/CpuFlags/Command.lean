import Mathlib.Data.Finset.Basic
import Mathlib.Data.Finset.Union
import TpQemu.Lib.Numeral
import TpQemu.Lib.Python

/-!
# The flags of a CPU command

The tests of `qemu/tests/cpuflags.py` work out from sets which flags a guest should see (`HgFlags`),
and build a `-cpu` argument of a model with flags added to it and taken from it. What the guest
shows is then compared with what `parse_qemu_cpucommand` reads from that argument.

Flags are the values of a type `F`. The class of the flags and the commands that list the flags of
QEMU, of its models and of the host are not part of the repository; here they are parameters.
-/

namespace TpQemu.CpuFlags

abbrev Text := List Char

variable {F : Type} [DecidableEq F]

/-- What the host and QEMU tell: the flag of a name, the name of a flag, the flags that QEMU
recognizes, those of the host, and those of a model. -/
structure Platform (F : Type) where
  flag : Text → F
  str : F → Text
  allQemuFlags : Finset F
  hostFlags : Finset F
  modelFlags : Text → Except PyError (Finset F)

/-- The sets of `HgFlags` that the tests use. -/
structure HgFlags (F : Type) where
  qemuSupportFlags : Finset F
  hostSupportFlags : Finset F
  questCpuModelFlags : Finset F
  supportedFlags : Finset F
  cpumodelUnsupportFlags : Finset F
  hostUnsupportedFlags : Finset F
  allPossibleGuestFlags : Finset F
  guestFlags : Finset F
  hostAllUnsupportedFlags : Finset F

namespace Platform

variable (p : Platform F)

/-- `HgFlags.__init__`, with the `guest_spec_flags` of the parameters. -/
def hgFlags (virtualFlags : Finset F) (cpuModel : Text) (extraFlags : Finset F) :
    Except PyError (HgFlags F) := do
  let modelFlags ← p.modelFlags cpuModel
  let quest := modelFlags \ virtualFlags
  let supported := p.allQemuFlags ∩ p.hostFlags
  let cpumodelUnsupport := supported \ quest
  let hostUnsupported := quest \ p.hostFlags
  return {
    qemuSupportFlags := p.allQemuFlags
    hostSupportFlags := p.hostFlags
    questCpuModelFlags := quest
    supportedFlags := supported
    cpumodelUnsupportFlags := cpumodelUnsupport
    hostUnsupportedFlags := hostUnsupported
    allPossibleGuestFlags := (quest \ hostUnsupported) ∪ cpumodelUnsupport
    guestFlags := (quest \ hostUnsupported) ∪ extraFlags
    hostAllUnsupportedFlags := p.allQemuFlags \ (p.hostFlags ∪ virtualFlags) }

/-- `get_flags_full_name`; nothing stands for the list that it returns when there is no such
flag. -/
def getFlagsFullName (cpuFlag : Text) : Option F :=
  if p.flag cpuFlag ∈ p.allQemuFlags then some (p.flag cpuFlag) else none

/-- One round of the loop in `parse_qemu_cpucommand`. A list cannot be put into a set. -/
def applyFlag (realFlags : Finset F) : Text → Except PyError (Finset F)
  | [] => .error .indexError
  | '+' :: name => do return realFlags ∪ {← orRaise .typeError (p.getFlagsFullName name)}
  | '-' :: name => do return realFlags \ {← orRaise .typeError (p.getFlagsFullName name)}
  | _ => .ok realFlags

/-- `parse_qemu_cpucommand` -/
def parseQemuCpucommand (cpumodel : Text) : Except PyError (Finset F) :=
  match cpumodel.splitOn ',' with
  | [] => .error .indexError
  | model :: flags => do
      let qemuModelFlag ← p.modelFlags model
      flags.foldlM p.applyFlag (qemuModelFlag ∩ p.hostFlags)

/-- The argument that the tests build, with the sets in the order in which they are listed. -/
def command (cpuModel : Text) (added deleted : List F) : Text :=
  cpuModel ++ added.flatMap (fun fadd => ",+".toList ++ p.str fadd) ++
    deleted.flatMap fun fdel => ",-".toList ++ p.str fdel

/-- `check_cpuflags`, with the flags that the guest shows. -/
def checkCpuflags (cpumodel : Text) (guest : Finset F) : Except PyError (Finset F) := do
  return (← p.parseQemuCpucommand cpumodel) \ guest

/-! ## What a list of modifiers does -/

/-- A modifier mentions a flag, to add it or to take it away. -/
def mention : Text → Option (F × Bool)
  | '+' :: name => some (p.flag name, true)
  | '-' :: name => some (p.flag name, false)
  | _ => none

/-- A modifier that can be applied. -/
def Applicable (f : Text) : Prop :=
  f ≠ [] ∧ ∀ m, p.mention f = some m → m.1 ∈ p.allQemuFlags

/-- What a modifier that can be applied makes of the flags. -/
def modified (realFlags : Finset F) (f : Text) : Finset F :=
  match p.mention f with
  | some (g, true) => realFlags ∪ {g}
  | some (g, false) => realFlags \ {g}
  | none => realFlags

theorem applyFlag_eq_ok_iff {realFlags r : Finset F} {f : Text} :
    p.applyFlag realFlags f = .ok r ↔ p.Applicable f ∧ r = p.modified realFlags f := by
  have hname (name : Text) : p.getFlagsFullName name = some (p.flag name) ∧
      p.flag name ∈ p.allQemuFlags ∨
      p.getFlagsFullName name = none ∧ p.flag name ∉ p.allQemuFlags := by
    rw [getFlagsFullName]
    split
    · exact .inl ⟨rfl, ‹_›⟩
    · exact .inr ⟨rfl, ‹_›⟩
  fun_cases applyFlag
  case case1 => simp [Applicable]
  case case2 name =>
    rcases hname name with ⟨hfull, hmem⟩ | ⟨hfull, hmem⟩
    · simp [hfull, hmem, Applicable, mention, modified, bind, Except.bind, pure, Except.pure, eq_comm]
    · simp [hfull, hmem, Applicable, mention, bind, Except.bind]
  case case3 name =>
    rcases hname name with ⟨hfull, hmem⟩ | ⟨hfull, hmem⟩
    · simp [hfull, hmem, Applicable, mention, modified, bind, Except.bind, pure, Except.pure, eq_comm]
    · simp [hfull, hmem, Applicable, mention, bind, Except.bind]
  case case4 hnil hplus hminus =>
    have hnone : p.mention f = none := by
      rw [mention]
      · exact hplus
      · exact hminus
    have hne : f ≠ [] := hnil
    simp [Applicable, modified, hnone, hne, eq_comm]

theorem foldlM_applyFlag_eq_ok_iff {flags : List Text} {realFlags r : Finset F} :
    flags.foldlM p.applyFlag realFlags = .ok r ↔
      (∀ f ∈ flags, p.Applicable f) ∧ r = flags.foldl p.modified realFlags := by
  induction flags generalizing realFlags with
  | nil => simp [pure, Except.pure, eq_comm]
  | cons f flags ih =>
      rw [List.foldlM_cons, List.forall_mem_cons, List.foldl_cons]
      constructor
      · intro h
        obtain ⟨mid, hfirst, hrest⟩ := ok_of_bind_eq_ok h
        obtain ⟨happ, rfl⟩ := p.applyFlag_eq_ok_iff.mp hfirst
        obtain ⟨hall, hr⟩ := ih.mp hrest
        exact ⟨⟨happ, hall⟩, hr⟩
      · rintro ⟨⟨happ, hall⟩, hr⟩
        rw [bind_of_eq_ok (p.applyFlag_eq_ok_iff.mpr ⟨happ, rfl⟩)]
        exact ih.mpr ⟨hall, hr⟩

/-- A host without AVX. -/
def sseHost : Platform Bool where
  flag name := name = "sse".toList
  str hasSse := if hasSse then "sse".toList else "avx".toList
  allQemuFlags := {true, false}
  hostFlags := {true}
  modelFlags _ := .ok {true, false}

theorem splitOn_append_flatMap {sep : Char} {a : Text} {parts : List Text} (ha : sep ∉ a)
    (hparts : ∀ t ∈ parts, sep ∉ t) :
    (a ++ parts.flatMap (sep :: ·)).splitOn sep = a :: parts := by
  induction parts generalizing a with
  | nil => rw [List.flatMap_nil, List.append_nil, List.splitOn_eq_singleton ha]
  | cons t parts ih =>
      obtain ⟨ht, hparts⟩ := List.forall_mem_cons.mp hparts
      rw [List.flatMap_cons, List.cons_append, List.splitOn_append_cons_self_of_not_mem ha,
        ih ht hparts]

/-- The modifiers of a command. -/
def modifiers (added deleted : List F) : List Text :=
  added.map (fun g => '+' :: p.str g) ++ deleted.map fun g => '-' :: p.str g

omit [DecidableEq F] in
theorem splitOn_command (hcomma : ∀ g, ',' ∉ p.str g) {cpuModel : Text} (hmodel : ',' ∉ cpuModel)
    (added deleted : List F) :
    (p.command cpuModel added deleted).splitOn ',' = cpuModel :: p.modifiers added deleted := by
  have hcommand : p.command cpuModel added deleted =
      cpuModel ++ (p.modifiers added deleted).flatMap (',' :: ·) := by
    rw [command, modifiers, List.flatMap_append, List.flatMap_map, List.flatMap_map,
      List.append_assoc]
    rfl
  rw [hcommand]
  refine splitOn_append_flatMap hmodel fun t ht => ?_
  rcases List.mem_append.mp ht with ht | ht
  · obtain ⟨g, -, rfl⟩ := List.mem_map.mp ht
    simpa using hcomma g
  · obtain ⟨g, -, rfl⟩ := List.mem_map.mp ht
    simpa using hcomma g

theorem foldl_modified_modifiers (hflag : ∀ g, p.flag (p.str g) = g) (added deleted : List F)
    (realFlags : Finset F) :
    (p.modifiers added deleted).foldl p.modified realFlags =
      (realFlags ∪ added.toFinset) \ deleted.toFinset := by
  have hadd : ∀ (l : List F) (r : Finset F),
      (l.map fun g => '+' :: p.str g).foldl p.modified r = r ∪ l.toFinset := by
    intro l
    induction l with
    | nil => intro r; simp
    | cons g l ih =>
        intro r
        rw [List.map_cons, List.foldl_cons, ih, modified, mention, hflag, List.toFinset_cons]
        ext x
        simp
  have hdel : ∀ (l : List F) (r : Finset F),
      (l.map fun g => '-' :: p.str g).foldl p.modified r = r \ l.toFinset := by
    intro l
    induction l with
    | nil => intro r; simp
    | cons g l ih =>
        intro r
        rw [List.map_cons, List.foldl_cons, ih, modified, mention, hflag, List.toFinset_cons]
        ext x
        simp [and_assoc]
  rw [modifiers, List.foldl_append, hadd, hdel]

theorem parse_command (hflag : ∀ g, p.flag (p.str g) = g) (hcomma : ∀ g, ',' ∉ p.str g)
    {cpuModel : Text} (hmodel : ',' ∉ cpuModel) {modelFlags : Finset F}
    (hm : p.modelFlags cpuModel = .ok modelFlags) {added deleted : List F}
    (hadded : ∀ g ∈ added, g ∈ p.allQemuFlags) (hdeleted : ∀ g ∈ deleted, g ∈ p.allQemuFlags) :
    p.parseQemuCpucommand (p.command cpuModel added deleted) =
      .ok ((modelFlags ∩ p.hostFlags ∪ added.toFinset) \ deleted.toFinset) := by
  rw [parseQemuCpucommand, p.splitOn_command hcomma hmodel]
  change (p.modelFlags cpuModel >>= _) = _
  rw [bind_of_eq_ok hm]
  refine p.foldlM_applyFlag_eq_ok_iff.mpr ⟨fun f hf => ?_, ?_⟩
  · rcases List.mem_append.mp hf with hf | hf
    · obtain ⟨g, hg, rfl⟩ := List.mem_map.mp hf
      exact ⟨List.cons_ne_nil _ _, fun m hmention => by
        cases hmention
        rw [hflag]
        exact hadded g hg⟩
    · obtain ⟨g, hg, rfl⟩ := List.mem_map.mp hf
      exact ⟨List.cons_ne_nil _ _, fun m hmention => by
        cases hmention
        rw [hflag]
        exact hdeleted g hg⟩
  · rw [p.foldl_modified_modifiers hflag]

/-- What the tests expect and what they read back from the argument they have built. With all flags
of the host the two agree, in whatever order the sets are listed. With given extra flags they agree
exactly if the model has no flag of the host that the guest hides and that was not asked for, and
no extra flag is one of the model that the host lacks. -/
theorem parse_command_agrees (hflag : ∀ g, p.flag (p.str g) = g) (hcomma : ∀ g, ',' ∉ p.str g)
    {cpuModel : Text} (hmodel : ',' ∉ cpuModel) {modelFlags : Finset F}
    (hm : p.modelFlags cpuModel = .ok modelFlags) (hknown : modelFlags ⊆ p.allQemuFlags)
    (virtualFlags : Finset F) {extraFlags : Finset F} (hextra : extraFlags ⊆ p.allQemuFlags) :
    ∃ flags, p.hgFlags virtualFlags cpuModel extraFlags = .ok flags ∧
      (∀ added deleted : List F, added.toFinset = flags.cpumodelUnsupportFlags →
        deleted.toFinset = flags.hostUnsupportedFlags →
        p.parseQemuCpucommand (p.command cpuModel added deleted) =
          .ok flags.allPossibleGuestFlags) ∧
      ∀ added deleted : List F, added.toFinset = extraFlags →
        deleted.toFinset = flags.hostUnsupportedFlags →
        (p.parseQemuCpucommand (p.command cpuModel added deleted) = .ok flags.guestFlags ↔
          modelFlags ∩ p.hostFlags ∩ virtualFlags ⊆ extraFlags ∧
            Disjoint extraFlags flags.hostUnsupportedFlags) := by
  refine ⟨_, (by rw [hgFlags, bind_of_eq_ok hm]; rfl), ?_, ?_⟩
  · intro added deleted hadded hdeleted
    have hadd : ∀ g ∈ added, g ∈ p.allQemuFlags := by
      intro g hg
      rw [← List.mem_toFinset, hadded] at hg
      exact (Finset.mem_inter.mp (Finset.mem_sdiff.mp hg).1).1
    have hdel : ∀ g ∈ deleted, g ∈ p.allQemuFlags := by
      intro g hg
      rw [← List.mem_toFinset, hdeleted] at hg
      exact hknown (Finset.mem_sdiff.mp (Finset.mem_sdiff.mp hg).1).1
    rw [p.parse_command hflag hcomma hmodel hm hadd hdel, hadded, hdeleted]
    refine congrArg Except.ok (Finset.ext fun g => ?_)
    have hg := @hknown g
    simp only [Finset.mem_sdiff, Finset.mem_union, Finset.mem_inter]
    tauto
  · intro added deleted hadded hdeleted
    have hadd : ∀ g ∈ added, g ∈ p.allQemuFlags := by
      intro g hg
      rw [← List.mem_toFinset, hadded] at hg
      exact hextra hg
    have hdel : ∀ g ∈ deleted, g ∈ p.allQemuFlags := by
      intro g hg
      rw [← List.mem_toFinset, hdeleted] at hg
      exact hknown (Finset.mem_sdiff.mp (Finset.mem_sdiff.mp hg).1).1
    rw [p.parse_command hflag hcomma hmodel hm hadd hdel, hadded, hdeleted, Except.ok.injEq,
      Finset.ext_iff, Finset.disjoint_left, Finset.subset_iff]
    simp only [Finset.mem_sdiff, Finset.mem_union, Finset.mem_inter]
    constructor
    · intro heq
      refine ⟨fun g hg => ?_, fun g hg hdeleted => ?_⟩
      · have hiff := heq g
        tauto
      · have hiff := heq g
        tauto
    · rintro ⟨hhidden, hdisjoint⟩ g
      have hh := @hhidden g
      have hd := @hdisjoint g
      tauto

theorem parse_command_agrees_sse :
    ∃ flags, sseHost.hgFlags ∅ "core".toList {true} = .ok flags ∧
      sseHost.parseQemuCpucommand (sseHost.command "core".toList [true] [false]) =
        .ok flags.guestFlags := by
  have hknown : ({true} : Finset Bool) ⊆ sseHost.allQemuFlags := by decide
  obtain ⟨flags, hflags, -, hextra⟩ := sseHost.parse_command_agrees (by decide) (by decide)
    (by decide : ',' ∉ "core".toList) rfl (by decide) ∅ hknown
  have hdeleted : [false].toFinset = flags.hostUnsupportedFlags := by
    cases hflags
    decide
  refine ⟨flags, hflags, (hextra [true] [false] (by decide) hdeleted).mpr ⟨by decide, ?_⟩⟩
  rw [← hdeleted]
  decide

end Platform

end TpQemu.CpuFlags

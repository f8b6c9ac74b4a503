import TpQemu.Lib.MixedRadix
import TpQemu.Lib.Numeral
import TpQemu.Lib.Python
import Mathlib.Data.List.Perm.Basic

/-!
# CPU ids of a topology

`convert_cpu_topology_to_ids` in `qemu/tests/numa_cpu.py`. The fields of a CPU are the digits of
its id. Some of them may be omitted, and the ids are taken to be all those between the lowest
and the highest one.
-/

namespace TpQemu.NumaCpu

open MixedRadix

inductive Arch where
  | x86
  | ppc64
  | aarch64
  | other
  deriving DecidableEq

/-- `vm_arch` and the `vcpu_*` parameters. -/
structure Machine where
  arch : Arch
  sockets : Nat
  dies : Nat
  clusters : Nat
  cores : Nat
  threads : Nat

inductive Field where
  | socketid
  | dieid
  | clusterid
  | coreid
  | threadid
  deriving DecidableEq

/-- The value of a field: a text of the configuration, or a number that QEMU reports. -/
inductive Arg where
  | text (cs : List Char)
  | number (z : Int)

/-- `int(value)` -/
def Arg.int : Arg → Except PyError Int
  | .text cs => orRaise .valueError (Numeral.int cs)
  | .number z => .ok z

/-- The fields that are given. -/
abbrev Choice := Field → Option Arg

/-- `_get_boundary` -/
def getBoundary (value : Option Arg) (maxValue weight : Int) : Except PyError (Int × Int) := do
  let lower ← (value.getD (.number 0)).int
  let upper ← (value.getD (.number (maxValue - 1))).int
  return (lower * weight, upper * weight)

/-- `convert_cpu_topology_to_ids` -/
def convertCpuTopologyToIds (m : Machine) (choice : Choice) : Except PyError (List Int) :=
  match m.arch with
  | .x86 => do
      let (socketMin, socketMax) ←
        getBoundary (choice .socketid) m.sockets (m.dies * m.cores * m.threads)
      let (dieMin, dieMax) ← getBoundary (choice .dieid) m.dies (m.cores * m.threads)
      let (coreMin, coreMax) ← getBoundary (choice .coreid) m.cores m.threads
      let (threadMin, threadMax) ← getBoundary (choice .threadid) m.threads 1
      return range (socketMin + dieMin + coreMin + threadMin)
        (socketMax + dieMax + coreMax + threadMax + 1)
  | .ppc64 =>
      match choice .coreid with
      | none => .error .typeError
      | some coreid => do
          let core ← coreid.int
          return range core (core + m.threads - 1 + 1)
  | .aarch64 => do
      let (socketMin, socketMax) ←
        getBoundary (choice .socketid) m.sockets (m.clusters * m.cores * m.threads)
      let (clusterMin, clusterMax) ←
        getBoundary (choice .clusterid) m.clusters (m.cores * m.threads)
      let (coreMin, coreMax) ← getBoundary (choice .coreid) m.cores m.threads
      let (threadMin, threadMax) ← getBoundary (choice .threadid) m.threads 1
      return range (socketMin + clusterMin + coreMin + threadMin)
        (socketMax + clusterMax + coreMax + threadMax + 1)
  | .other => .error .unboundLocalError

/-! ## The fields as digits -/

/-- The fields of an id with their numbers of values, the most significant one first. -/
def Machine.fields (m : Machine) : List (Field × Nat) :=
  match m.arch with
  | .x86 => [(.socketid, m.sockets), (.dieid, m.dies), (.coreid, m.cores), (.threadid, m.threads)]
  | .aarch64 =>
      [(.socketid, m.sockets), (.clusterid, m.clusters), (.coreid, m.cores),
        (.threadid, m.threads)]
  | .ppc64 => []
  | .other => []

/-- The ids of the machine have these fields. -/
def Machine.Radix (m : Machine) : Prop := m.arch = .x86 ∨ m.arch = .aarch64

def digits (m : Machine) (values : Field → Option Nat) : List Digit :=
  m.fields.map fun p => ⟨p.2, values p.1⟩

/-- The fields that are given have these values. -/
def Means (m : Machine) (choice : Choice) (values : Field → Option Nat) : Prop :=
  ∀ p ∈ m.fields, (choice p.1).map Arg.int = (values p.1).map fun v => .ok (v : Int)

theorem getBoundary_eq {arg : Option Arg} {value : Option Nat} {size : Nat} (hsize : 0 < size)
    (h : arg.map Arg.int = value.map fun v => .ok (v : Int)) (weight : Nat) :
    getBoundary arg size weight =
      .ok ((value.getD 0 * weight : Nat), (value.getD (size - 1) * weight : Nat)) := by
  cases value with
  | none =>
      rw [Option.map_eq_none_iff.mp h]
      simp only [getBoundary, Option.getD_none, Arg.int, bind, Except.bind, pure, Except.pure]
      rw [Nat.cast_mul, Nat.cast_mul, Nat.cast_sub hsize]
      rfl
  | some v =>
      obtain ⟨a, rfl, ha⟩ := Option.map_eq_some_iff.mp h
      simp only [getBoundary, Option.getD_some, ha, bind, Except.bind, pure, Except.pure,
        Nat.cast_mul]

theorem range_eq (lower upper : Nat) (h : lower ≤ upper) :
    range lower (upper + 1) = (List.range' lower (upper - lower + 1)).map (↑) := by
  have hcount : ((upper : Int) + 1 - lower).toNat = upper - lower + 1 := by omega
  rw [range, hcount, List.range'_eq_map_range, List.map_map]
  exact List.map_congr_left fun k _ => by simp

/-- The sums of the lower and of the upper bounds of four fields. -/
theorem boundaries_eq {choice : Choice} {values : Field → Option Nat} (p q r t : Field × Nat)
    (hmeans : ∀ x ∈ [p, q, r, t],
      (choice x.1).map Arg.int = (values x.1).map fun v => .ok (v : Int))
    (h : Proper ([p, q, r, t].map fun x => ⟨x.2, values x.1⟩)) :
    (do
      let (pMin, pMax) ← getBoundary (choice p.1) p.2 (q.2 * r.2 * t.2)
      let (qMin, qMax) ← getBoundary (choice q.1) q.2 (r.2 * t.2)
      let (rMin, rMax) ← getBoundary (choice r.1) r.2 t.2
      let (tMin, tMax) ← getBoundary (choice t.1) t.2 1
      return range (pMin + qMin + rMin + tMin) (pMax + qMax + rMax + tMax + 1)) =
      (.ok ((between ([p, q, r, t].map fun x => ⟨x.2, values x.1⟩)).map (↑)) :
        Except PyError (List Int)) := by
  have hfield : ∀ x ∈ [p, q, r, t], ∀ weight : Nat, getBoundary (choice x.1) x.2 weight =
      .ok (((values x.1).getD 0 * weight : Nat), ((values x.1).getD (x.2 - 1) * weight : Nat)) := by
    intro x hx weight
    exact getBoundary_eq (h _ (List.mem_map_of_mem hx)).1 (hmeans x hx) weight
  have hp := hfield p (by simp) (q.2 * r.2 * t.2)
  have hq := hfield q (by simp) (r.2 * t.2)
  have hr := hfield r (by simp) t.2
  have ht := hfield t (by simp) 1
  push_cast at hp hq ht
  rw [hp, hq, hr, ht]
  refine congrArg Except.ok (Eq.trans ?_ (range_eq _ _ (lowest_le_highest _)))
  congr 1
  · simp [lowest, volume, Int.add_assoc, Int.mul_assoc]
  · simp [highest, volume, Int.add_assoc, Int.mul_assoc]

/-- The ids are all those between the lowest and the highest one. -/
theorem convert_eq {m : Machine} {choice : Choice} {values : Field → Option Nat}
    (hradix : m.Radix) (hmeans : Means m choice values) (h : Proper (digits m values)) :
    convertCpuTopologyToIds m choice = .ok ((between (digits m values)).map (↑)) := by
  rw [Means] at hmeans
  rcases hradix with harch | harch
  · simp only [digits, Machine.fields, harch] at hmeans h ⊢
    rw [convertCpuTopologyToIds, harch]
    exact boundaries_eq _ _ _ _ hmeans h
  · simp only [digits, Machine.fields, harch] at hmeans h ⊢
    rw [convertCpuTopologyToIds, harch]
    exact boundaries_eq _ _ _ _ hmeans h

/-! ## Exact ids -/

/-- The lists for all values of a field are together the list with the field omitted. -/
def Partitions (m : Machine) (choice : Choice) (field : Field) (size : Nat) : Prop :=
  ∃ ids lists, convertCpuTopologyToIds m choice = .ok ids ∧
    (∀ k < size, convertCpuTopologyToIds m
      (Function.update choice field (some (.number (k : Nat)))) = .ok (lists k)) ∧
    ((List.range size).flatMap lists).Perm ids

theorem nodup_fields (m : Machine) : (m.fields.map Prod.fst).Nodup := by
  rw [Machine.fields]
  cases m.arch <;> simp

section Split

variable {m : Machine} {as bs : List (Field × Nat)} {field : Field} {size : Nat}
  (hfields : m.fields = as ++ (field, size) :: bs)

include hfields

theorem digits_update (values : Field → Option Nat) (k : Nat) :
    digits m (Function.update values field (some k)) =
      as.map (fun p => ⟨p.2, values p.1⟩) ++ ⟨size, some k⟩ ::
        bs.map (fun p => ⟨p.2, values p.1⟩) := by
  have hnodup := nodup_fields m
  rw [hfields, List.map_append, List.map_cons, List.nodup_append, List.nodup_cons] at hnodup
  obtain ⟨-, ⟨hbs, -⟩, has⟩ := hnodup
  have hother : ∀ ps : List (Field × Nat), field ∉ ps.map Prod.fst →
      ps.map (fun p => (⟨p.2, Function.update values field (some k) p.1⟩ : Digit)) =
        ps.map fun p => ⟨p.2, values p.1⟩ := by
    intro ps hps
    refine List.map_congr_left fun p hp => ?_
    have hne : p.1 ≠ field := by
      rintro rfl
      exact hps (List.mem_map_of_mem hp)
    rw [Function.update_of_ne hne]
  have hfront : field ∉ as.map Prod.fst := fun hmem => has field hmem field List.mem_cons_self rfl
  rw [digits, hfields, List.map_append, List.map_cons, hother as hfront, hother bs hbs,
    Function.update_self]

omit hfields in
theorem means_update {choice : Choice} {values : Field → Option Nat}
    (hmeans : Means m choice values) (k : Nat) :
    Means m (Function.update choice field (some (.number k)))
      (Function.update values field (some k)) := by
  intro p hp
  by_cases heq : p.1 = field
  · rw [heq, Function.update_self, Function.update_self]
    rfl
  · rw [Function.update_of_ne heq, Function.update_of_ne heq]
    exact hmeans p hp

theorem digits_omitted {values : Field → Option Nat} (hnone : values field = none) :
    digits m values = as.map (fun p => ⟨p.2, values p.1⟩) ++ ⟨size, none⟩ ::
      bs.map (fun p => ⟨p.2, values p.1⟩) := by
  rw [digits, hfields, List.map_append, List.map_cons, hnone]

section Omitted

variable (hradix : m.Radix) {choice : Choice} {values : Field → Option Nat}
  (hmeans : Means m choice values) (h : Proper (digits m values)) (hnone : values field = none)

include hradix hmeans h hnone

/-- The ids with a value for a field that is omitted. -/
theorem convert_update {k : Nat} (hk : k < size) :
    convertCpuTopologyToIds m (Function.update choice field (some (.number k))) =
      .ok ((between (digits m (Function.update values field (some k)))).map (↑)) := by
  refine convert_eq hradix (means_update hmeans k) ?_
  rw [digits_update hfields]
  rw [digits_omitted hfields hnone] at h
  exact h.given hk

/-- The lists for the values of a field are a partition exactly if the fields in front are given
and those behind are omitted. -/
theorem partitions_iff :
    Partitions m choice field size ↔
      size = 1 ∨ Fixed (as.map fun p => ⟨p.2, values p.1⟩) ∧
        Free (bs.map fun p => ⟨p.2, values p.1⟩) := by
  have homitted := convert_eq hradix hmeans h
  have hgiven : ∀ k < size, _ := fun k hk => convert_update hfields hradix hmeans h hnone hk
  have hdigits := digits_omitted hfields hnone
  rw [hdigits] at h
  rw [← flatMap_between_perm_iff h, ← hdigits]
  simp only [← digits_update hfields]
  have hcast : Function.Injective ((↑) : Nat → Int) := fun _ _ => Int.ofNat.inj
  rw [← List.map_perm_map_iff hcast, List.map_flatMap]
  constructor
  · rintro ⟨ids, lists, hids, hlists, hperm⟩
    rw [homitted] at hids
    cases hids
    have hflat : (List.range size).flatMap lists = (List.range size).flatMap fun k =>
        (between (digits m (Function.update values field (some k)))).map (↑) := by
      refine List.flatMap_congr fun k hk => ?_
      have hk := List.mem_range.mp hk
      exact Except.ok.inj ((hlists k hk).symm.trans (hgiven k hk))
    rwa [hflat] at hperm
  · intro hperm
    exact ⟨_, _, homitted, hgiven, hperm⟩

end Omitted

end Split

/-- The ids returned are those whose digits agree with the given fields exactly if no field is
omitted in front of a given one. CPUs that are given in full always get one id each. -/
theorem convert_exact_iff {m : Machine} {choice : Choice} {values : Field → Option Nat}
    (hradix : m.Radix) (hmeans : Means m choice values) (h : Proper (digits m values)) :
    (convertCpuTopologyToIds m choice = .ok ((numbers (digits m values)).map (↑)) ↔
      Gapless (digits m values)) ∧
    (∀ as field size bs, m.fields = as ++ (field, size) :: bs → values field = none →
      (Partitions m choice field size ↔
        size = 1 ∨ Fixed (as.map fun p => ⟨p.2, values p.1⟩) ∧
          Free (bs.map fun p => ⟨p.2, values p.1⟩))) ∧
    ∀ choice' values', Means m choice' values' → Proper (digits m values') →
      Complete (digits m values) → Complete (digits m values') →
      digits m values ≠ digits m values' →
      ∃ i j, convertCpuTopologyToIds m choice = .ok [i] ∧
        convertCpuTopologyToIds m choice' = .ok [j] ∧ i ≠ j := by
  have hcast : Function.Injective ((↑) : Nat → Int) := fun _ _ => Int.ofNat.inj
  refine ⟨?_, fun as field size bs hfields hnone =>
    partitions_iff hfields hradix hmeans h hnone, ?_⟩
  · rw [convert_eq hradix hmeans h, ← between_eq_numbers_iff h, Except.ok.injEq]
    exact (List.map_injective_iff.mpr hcast).eq_iff
  · intro choice' values' hmeans' h' hcomplete hcomplete' hne
    refine ⟨lowest (digits m values), lowest (digits m values'), ?_, ?_, fun heq => hne ?_⟩
    · rw [convert_eq hradix hmeans h, hcomplete.between_eq h]
      rfl
    · rw [convert_eq hradix hmeans' h', hcomplete'.between_eq h']
      rfl
    · refine hcomplete.lowest_injective h h' hcomplete' ?_ (hcast heq)
      simp [digits]

/-- Two sockets with two cores each. -/
def smallMachine : Machine := ⟨.x86, 2, 1, 2, 2, 1⟩

/-- One field is given. -/
def oneField (field : Field) (cs : List Char) : Choice :=
  Function.update (fun _ => none) field (some (.text cs))

theorem means_oneField {field : Field} {cs : List Char} {v : Nat}
    (h : Numeral.int cs = some (v : Int)) :
    Means smallMachine (oneField field cs) (Function.update (fun _ => none) field (some v)) := by
  intro p _
  by_cases heq : p.1 = field
  · rw [heq, oneField, Function.update_self, Function.update_self, Option.map_some, Option.map_some,
      Arg.int, h, orRaise_some]
  · rw [oneField, Function.update_of_ne heq, Function.update_of_ne heq]
    rfl

/-- The second socket: its CPUs are 2 and 3. -/
theorem convert_second_socket :
    convertCpuTopologyToIds smallMachine (oneField .socketid "1".toList) =
      .ok ((numbers (digits smallMachine
        (Function.update (fun _ => none) .socketid (some 1)))).map (↑)) :=
  (convert_exact_iff (.inl rfl) (means_oneField (v := 1) (by decide))
    (by simp [Proper, digits, smallMachine, Machine.fields, Function.update])).1.mpr
    (by simp [Gapless, digits, smallMachine, Machine.fields, Function.update])

/-- The first core of each socket: the CPUs are 0 and 2, and 1 is returned too. -/
theorem first_cores_not_exact :
    ¬∀ (m : Machine) (choice : Choice) (values : Field → Option Nat), m.Radix →
      Means m choice values → Proper (digits m values) →
      convertCpuTopologyToIds m choice = .ok ((numbers (digits m values)).map (↑)) := by
  intro h
  have hall := h smallMachine (oneField .coreid "0".toList) _ (.inl rfl)
    (means_oneField (v := 0) (by decide))
    (by simp [Proper, digits, smallMachine, Machine.fields, Function.update])
  rw [convert_eq (.inl rfl) (means_oneField (v := 0) (by decide))
    (by simp [Proper, digits, smallMachine, Machine.fields, Function.update])] at hall
  exact absurd (Except.ok.inj hall) (by decide)

end TpQemu.NumaCpu

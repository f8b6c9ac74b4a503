import Mathlib.Data.List.Nodup
import TpQemu.Cgroup.SparseRange

/-!
# The scenarios of the `cpuset` test

`generateCpusets` lays out up to five scenarios over the CPUs of the host, each of
them one cpuset for the main thread and one for every CPU, and
`generateVerification` computes from them which CPUs have to be busy. The cpusets
travel between the two as texts.

Every scenario is a slice of the host's CPUs. All but one of the slices have an
element on any host; the scenario `_OO_` starts at the second CPU and is empty on
a host that has only one.
-/

namespace TpQemu.Cgroup

open Numeral Slice

/-- One cpuset for the main thread and for each CPU. -/
def scenario (cpus : SparseRange) (cpuset : Text) : List Text :=
  List.replicate (cpus.length + 1) cpuset

/-- `_generate_cpusets(vm_cpus, cpus)` -/
def generateCpusets (vmCpus : Nat) (cpus : SparseRange) : Except PyError (List (List Text)) := do
  -- OO__
  let left :=
    if vmCpus < cpus.length then [scenario cpus (strSlice cpus (some 0) (some vmCpus) 1)] else []
  -- __OO
  let right :=
    if vmCpus < cpus.length then
      [scenario cpus (strSlice cpus (some (cpus.length - vmCpus)) none 1)]
    else []
  -- O___
  let one ← orRaise .indexError cpus.head?
  -- _OO_
  let middle := strSlice cpus (some 1) (some (1 + vmCpus)) 1
  -- O_O_
  let even := strSlice cpus (some 0) (some (min (vmCpus * 2) cpus.length)) 2
  return left ++ right ++
    [scenario cpus (str one), scenario cpus middle, scenario cpus even]

/-- `verify[-1][cpus.index(vcpu_pin)] = 100` -/
def pin (cpus : SparseRange) (vec : List Nat) (vcpuPin : Int) : Except PyError (List Nat) := do
  let i ← orRaise .valueError (cpus.idxOf? vcpuPin)
  return vec.set i 100

/-- The CPUs of one entry. -/
def pinVcpu (cpus : SparseRange) (vec : List Nat) (vcpu : Text) : Except PyError (List Nat) := do
  let pins ← sparseRange vcpu
  pins.foldlM (pin cpus) vec

/-- The vector of one scenario; the entry of the main thread is skipped. -/
def verifyScenario (cpus : SparseRange) (cpuset : List Text) : Except PyError (List Nat) :=
  cpuset.tail.foldlM (pinVcpu cpus) (List.replicate cpus.length 0)

/-- `_generate_verification(cpusets, cpus)` -/
def generateVerification (cpusets : List (List Text)) (cpus : SparseRange) :
    Except PyError (List (List Nat)) :=
  cpusets.mapM (verifyScenario cpus)

/-! ## Usable scenarios -/

/-- The entry names at least one CPU, and only CPUs of the host. -/
def UsableEntry (cpus : SparseRange) (entry : Text) : Prop :=
  ∃ r, sparseRange entry = .ok r ∧ r ≠ [] ∧ r ⊆ cpus

/-- The CPU is in the set some vCPU entry pins. -/
def Pinned (cpuset : List Text) (cpu : Int) : Prop :=
  ∃ entry ∈ cpuset.tail, ∃ r, sparseRange entry = .ok r ∧ cpu ∈ r

/-- The vector is 100 at the marked CPUs and 0 elsewhere. -/
structure Marks (cpus : SparseRange) (vec : List Nat) (marked : Int → Prop) : Prop where
  length : vec.length = cpus.length
  busy : ∀ (i : Nat) (c : Int), cpus[i]? = some c → marked c → vec[i]? = some 100
  idle : ∀ (i : Nat) (c : Int), cpus[i]? = some c → ¬marked c → vec[i]? = some 0

/-- Every entry of every scenario is usable, and the vectors say which CPUs the
vCPUs are pinned to. -/
def UsableScenarios (vmCpus : Nat) (cpus : SparseRange) : Prop :=
  ∃ cpusets, generateCpusets vmCpus cpus = .ok cpusets ∧
    (∀ cpuset ∈ cpusets, ∀ entry ∈ cpuset, UsableEntry cpus entry) ∧
    ∃ verify, generateVerification cpusets cpus = .ok verify ∧
      List.Forall₂ (fun cpuset vec => Marks cpus vec (Pinned cpuset)) cpusets verify

/-! ## The verification vectors -/

theorem Marks.init (cpus : SparseRange) :
    Marks cpus (List.replicate cpus.length 0) fun _ => False := by
  refine ⟨List.length_replicate, fun _ _ _ h => h.elim, ?_⟩
  intro i c hc _
  obtain ⟨hi, -⟩ := List.getElem?_eq_some_iff.mp hc
  simp [hi]

theorem Marks.congr {cpus : SparseRange} {vec : List Nat} {p q : Int → Prop} (h : Marks cpus vec p)
    (hpq : ∀ c, p c ↔ q c) : Marks cpus vec q := by
  have heq : p = q := funext fun c => propext (hpq c)
  exact heq ▸ h

theorem Marks.pin {cpus : SparseRange} {vec : List Nat} {p : Int → Prop} {v : Int}
    (h : Marks cpus vec p) (nodup : cpus.Nodup) (hv : v ∈ cpus) :
    ∃ vec', Cgroup.pin cpus vec v = .ok vec' ∧ Marks cpus vec' fun c => p c ∨ c = v := by
  obtain ⟨i, hi⟩ := Option.isSome_iff_exists.mp (List.isSome_idxOf?.mpr hv)
  obtain ⟨hlt, hat, -⟩ := List.idxOf?_eq_some_iff.mp hi
  have hset : (vec.set i 100)[i]? = some 100 := by
    simp [h.length, hlt]
  -- No other index holds the CPU, since the list has no duplicates.
  have other : ∀ (j : Nat) (c : Int), cpus[j]? = some c → c ≠ v →
      (vec.set i 100)[j]? = vec[j]? := by
    intro j c hc hne
    refine List.getElem?_set_ne ?_
    rintro rfl
    obtain ⟨_, hget⟩ := List.getElem?_eq_some_iff.mp hc
    exact hne (hget.symm.trans hat)
  refine ⟨vec.set i 100, ?_, ?_, ?_, ?_⟩
  · rw [Cgroup.pin, hi]
    rfl
  · rw [List.length_set, h.length]
  · intro j c hc hmark
    by_cases hcv : c = v
    · have hj : j = i := by
        obtain ⟨hjlt, hget⟩ := List.getElem?_eq_some_iff.mp hc
        exact (nodup.getElem_inj_iff).mp (by rw [hget, hat, hcv])
      rw [hj, hset]
    · rw [other j c hc hcv]
      exact h.busy j c hc (hmark.resolve_right hcv)
  · intro j c hc hmark
    rw [not_or] at hmark
    rw [other j c hc hmark.2]
    exact h.idle j c hc hmark.1

theorem Marks.pins {cpus : SparseRange} {vec : List Nat} {p : Int → Prop} {pins : List Int}
    (h : Marks cpus vec p) (nodup : cpus.Nodup) (hpins : pins ⊆ cpus) :
    ∃ vec', pins.foldlM (Cgroup.pin cpus) vec = .ok vec' ∧
      Marks cpus vec' fun c => p c ∨ c ∈ pins := by
  induction pins generalizing vec p with
  | nil => exact ⟨vec, rfl, h.congr (by simp)⟩
  | cons v pins ih =>
      obtain ⟨hv, rest⟩ := List.cons_subset.mp hpins
      obtain ⟨vec₁, hvec₁, hmarks⟩ := h.pin nodup hv
      obtain ⟨vec₂, hvec₂, hmarks⟩ := ih hmarks rest
      refine ⟨vec₂, ?_, hmarks.congr fun c => by rw [List.mem_cons, or_assoc]⟩
      rw [List.foldlM_cons, bind_of_eq_ok hvec₁]
      exact hvec₂

theorem Marks.entries {cpus : SparseRange} {vec : List Nat} {p : Int → Prop} {entries : List Text}
    (h : Marks cpus vec p) (nodup : cpus.Nodup) (hentries : ∀ e ∈ entries, UsableEntry cpus e) :
    ∃ vec', entries.foldlM (pinVcpu cpus) vec = .ok vec' ∧
      Marks cpus vec' fun c => p c ∨ ∃ e ∈ entries, ∃ r, sparseRange e = .ok r ∧ c ∈ r := by
  induction entries generalizing vec p with
  | nil => exact ⟨vec, rfl, h.congr (by simp)⟩
  | cons e entries ih =>
      obtain ⟨r, hr, -, hsub⟩ := hentries e List.mem_cons_self
      obtain ⟨vec₁, hvec₁, hmarks⟩ := h.pins nodup hsub
      have rest : ∀ e ∈ entries, UsableEntry cpus e :=
        fun e' he' => hentries e' (List.mem_cons_of_mem e he')
      obtain ⟨vec₂, hvec₂, hmarks⟩ := ih hmarks rest
      refine ⟨vec₂, ?_, hmarks.congr fun c => ?_⟩
      · have hfirst : pinVcpu cpus vec e = .ok vec₁ := by
          rw [pinVcpu, bind_of_eq_ok hr]
          exact hvec₁
        rw [List.foldlM_cons, bind_of_eq_ok hfirst]
        exact hvec₂
      · have hread : (∃ r', sparseRange e = .ok r' ∧ c ∈ r') ↔ c ∈ r := by
          simp [hr]
        rw [List.exists_mem_cons_iff, hread, or_assoc]

/-- Usable scenarios give a vector for each of them. -/
theorem generateVerification_marks {cpus : SparseRange} {cpusets : List (List Text)}
    (nodup : cpus.Nodup) (h : ∀ cpuset ∈ cpusets, ∀ entry ∈ cpuset, UsableEntry cpus entry) :
    ∃ verify, generateVerification cpusets cpus = .ok verify ∧
      List.Forall₂ (fun cpuset vec => Marks cpus vec (Pinned cpuset)) cpusets verify := by
  induction cpusets with
  | nil => exact ⟨[], rfl, .nil⟩
  | cons cpuset cpusets ih =>
      obtain ⟨verify, hverify, hmarks⟩ := ih fun c hc => h c (List.mem_cons_of_mem cpuset hc)
      have htail : ∀ e ∈ cpuset.tail, UsableEntry cpus e :=
        fun e he => h cpuset List.mem_cons_self e (List.mem_of_mem_tail he)
      obtain ⟨vec, hvec, hmark⟩ := (Marks.init cpus).entries nodup htail
      refine ⟨vec :: verify, ?_, .cons (hmark.congr fun c => ?_) hmarks⟩
      · have hfirst : verifyScenario cpus cpuset = .ok vec := hvec
        rw [generateVerification, List.mapM_cons, bind_of_eq_ok hfirst]
        exact bind_of_eq_ok hverify _
      · rw [Pinned, false_or]

/-! ## The scenarios -/

theorem usableEntry_strSlice {cpus : SparseRange} {start stop : Option Int} {step : Int}
    (hcpus : ∀ c ∈ cpus, 0 ≤ c) (hne : slice cpus start (some (stop.getD cpus.length)) step ≠ []) :
    UsableEntry cpus (strSlice cpus start stop step) := by
  obtain ⟨sects, hsects, htext, hvalues, -⟩ := strSlice_sections hcpus hne
  refine ⟨_, ?_, hne, slice_subset _ _ _ _⟩
  rw [htext, sparseRange_intercalate hsects, hvalues]

theorem usableEntry_str {cpus : SparseRange} {c : Int} (hc : 0 ≤ c) (hmem : c ∈ cpus) :
    UsableEntry cpus (str c) := by
  have hread := sparseRange_intercalate (List.cons_ne_nil (Sect.single c hc) [])
  refine ⟨[c], ?_, by simp, by simpa using hmem⟩
  simpa [Sect.text, Sect.values, Sect.single, range_single] using hread

theorem usableEntry_of_mem_scenario {cpus : SparseRange} {cpuset : Text}
    (h : UsableEntry cpus cpuset) : ∀ entry ∈ scenario cpus cpuset, UsableEntry cpus entry := by
  intro entry hmem
  rw [List.eq_of_mem_replicate hmem]
  exact h

/-- On a host with two CPUs every slice has an element. -/
theorem generateCpusets_usable {vmCpus : Nat} {cpus : SparseRange} (hcpus : ∀ c ∈ cpus, 0 ≤ c)
    (hvm : 2 ≤ vmCpus) (hlen : 2 ≤ cpus.length) :
    ∃ cpusets, generateCpusets vmCpus cpus = .ok cpusets ∧
      ∀ cpuset ∈ cpusets, ∀ entry ∈ cpuset, UsableEntry cpus entry := by
  have slice_usable : ∀ (a b : Nat) (step : Int), 0 < step → a < b → a < cpus.length →
      ∀ entry ∈ scenario cpus (strSlice cpus (some a) (some b) step), UsableEntry cpus entry :=
    fun a b step hstep hab ha => usableEntry_of_mem_scenario
      (usableEntry_strSlice hcpus (slice_ne_nil hstep hab ha))
  obtain ⟨one, hone⟩ : ∃ one, cpus.head? = some one :=
    ⟨cpus.head (List.ne_nil_of_length_pos (by omega)), List.head?_eq_some_head _⟩
  have hmem : one ∈ cpus := List.mem_of_mem_head? hone
  refine ⟨_, by rw [generateCpusets, hone]; rfl, ?_⟩
  simp only [List.forall_mem_append, List.forall_mem_cons]
  refine ⟨⟨?_, ?_⟩, ?_, ?_, ?_⟩
  · split
    · simpa using slice_usable 0 vmCpus 1 (by omega) (by omega) (by omega)
    · simp
  · split
    · rename_i hlt
      have hstart : (cpus.length - vmCpus : Int) = ((cpus.length - vmCpus : Nat) : Int) := by omega
      have hright : slice cpus (some (cpus.length - vmCpus : Int)) (some cpus.length) 1 ≠ [] := by
        rw [hstart]
        exact slice_ne_nil (by omega) (by omega) (by omega)
      rw [List.forall_mem_singleton]
      exact usableEntry_of_mem_scenario (usableEntry_strSlice hcpus hright)
    · simp
  · exact usableEntry_of_mem_scenario (usableEntry_str (hcpus one hmem) hmem)
  · simpa using slice_usable 1 (1 + vmCpus) 1 (by omega) (by omega) (by omega)
  · simpa using slice_usable 0 (min (vmCpus * 2) cpus.length) 2 (by omega) (by omega) (by omega)

/-- On a host with one CPU the slice behind the first one is empty. -/
theorem strSlice_one_eq_nil (vmCpus : Nat) {cpus : SparseRange} (hlen : cpus.length = 1) :
    strSlice cpus (some 1) (some (1 + vmCpus)) 1 = [] := by
  have hfirst : first cpus.length 1 (some 1) = 1 := by
    simp [first, clip, hlen]
  have hlimit : limit cpus.length 1 (some (1 + vmCpus : Int)) = 1 := by
    simp only [limit, clip, hlen]
    split_ifs <;> omega
  have hslice : slice cpus (some 1) (some (1 + vmCpus : Int)) 1 = [] := by
    simp [slice, hfirst, hlimit, count]
  simp only [strSlice, Option.getD_some, hslice]

/-- The scenarios are usable on every host with two CPUs or more. -/
theorem usableScenarios_iff {vmCpus : Nat} {cpus : SparseRange} (hcpus : ∀ c ∈ cpus, 0 ≤ c)
    (hne : cpus ≠ []) (nodup : cpus.Nodup) (hvm : 2 ≤ vmCpus) :
    UsableScenarios vmCpus cpus ↔ 2 ≤ cpus.length := by
  constructor
  · rintro ⟨cpusets, hcpusets, hentries, -⟩
    by_contra hlen
    have hone : cpus.length = 1 := by
      have := List.length_pos_iff.mpr hne
      omega
    obtain ⟨one, -, hcpusets⟩ := ok_of_bind_eq_ok hcpusets
    cases hcpusets
    have hempty : UsableEntry cpus [] := by
      refine hentries (scenario cpus []) ?_ [] (by simp [scenario])
      rw [← strSlice_one_eq_nil vmCpus hone]
      simp
    obtain ⟨r, hr, -⟩ := hempty
    rw [sparseRange_nil] at hr
    cases hr
  · intro hlen
    obtain ⟨cpusets, hcpusets, hentries⟩ := generateCpusets_usable hcpus hvm hlen
    exact ⟨cpusets, hcpusets, hentries, generateVerification_marks nodup hentries⟩

theorem usableScenarios_sparse : UsableScenarios 2 [0, 1, 16, 17] :=
  (usableScenarios_iff (by decide) (by decide) (by decide) (by decide)).mpr (by decide)

/-- One CPU: the scenario `_OO_` is empty and the verification raises. -/
theorem not_usableScenarios_one :
    (do generateVerification (← generateCpusets 2 [0]) [0]) = .error .valueError ∧
      ¬UsableScenarios 2 [0] := by
  have hraises :
      (do generateVerification (← generateCpusets 2 [0]) [0]) = .error .valueError := by decide
  refine ⟨hraises, ?_⟩
  rintro ⟨cpusets, hcpusets, -, verify, hverify, -⟩
  rw [bind_of_eq_ok hcpusets, hverify] at hraises
  cases hraises

end TpQemu.Cgroup

import TpQemu.Lib.Chunks
import TpQemu.Lib.Dict

/-!
# Interrupt affinity

`check_interrupts2vcpus` in `qemu/tests/virtio_scsi_mq.py`: the masks of the virtual CPUs as keys of
`cpu_selects`, and the masks that the guest reports in `/proc/irq/N/smp_affinity`, cleaned with a
regular expression. The keys keep their commas and the cleaned texts do not.
-/

namespace TpQemu.ScsiMq

open Text Numeral

section Definitions

/-- The key for a mask, as groups of eight hexadecimal digits. -/
def maskText (cpuSelect : Nat) : List Char :=
  [','].intercalate (groups 8 (Nat.toDigits 16 cpuSelect))

/-- `format(cpu_select, "b").count("0")` -/
def binaryZeros (cpuSelect : Nat) : Nat := (Nat.toDigits 2 cpuSelect).count '0'

/-- One iteration of the loop that fills `cpu_selects`. -/
def nextSelect (s : Dict (List Char) Nat × Nat) : Dict (List Char) Nat × Nat :=
  (s.1.set (maskText s.2) (binaryZeros s.2), s.2 <<< 1)

/-- `cpu_selects` -/
def cpuSelects (numQueues : Nat) : Dict (List Char) Nat := (nextSelect^[numQueues] (∅, 1)).1

/-- `re.sub(r"(^[0+,?0+]+)|(,)", "", output).strip()`: the first alternative takes off any of the
four characters at the begin, the second one takes out commas. -/
def cleaned (output : List Char) : List Char :=
  strip ((output.dropWhile fun c => decide (c ∈ ['0', '+', ',', '?'])).filter (· ≠ ','))

/-- `cpu_irq_map` and the local variables of `check_interrupts2vcpus`. -/
structure Checked where
  cpuIrqMap : Dict String Nat
  irqsIdReset : List String
  cpuSelects : Dict (List Char) Nat

variable (output : String → List Char)

/-- One interrupt, with what the guest prints for it. -/
def checkInterrupt (s : Checked) (irqId : String) : Checked :=
  let cpuSelected := cleaned (output irqId)
  match s.cpuSelects.get? cpuSelected with
  | none => { s with irqsIdReset := s.irqsIdReset ++ [irqId] }
  | some cpu =>
      { s with
        cpuIrqMap := s.cpuIrqMap.set irqId cpu
        cpuSelects := s.cpuSelects.erase cpuSelected }

/-- `check_interrupts2vcpus`, for the interrupts in the order of the map. -/
def checkInterrupts2vcpus (numQueues : Nat) (irqs : List String) : Checked :=
  irqs.foldl (checkInterrupt output) ⟨∅, [], cpuSelects numQueues⟩

end Definitions

/-! ## Masks -/

section Masks

/-- The mask that a text denotes to the kernel. -/
def maskValue (text : List Char) : Nat := groupsValue (text.splitOn ',')

/-- The affinity to one of a number of CPUs, as the kernel prints it. -/
def smpAffinity (cpus k : Nat) : List Char :=
  let digits := Nat.toDigits 16 (2 ^ k)
  [','].intercalate (groups 8 (List.replicate ((cpus + 3) / 4 - digits.length) '0' ++ digits))

example : smpAffinity 40 33 = "02,00000000".toList := by decide

theorem comma_notMem_toDigits (n : Nat) : ',' ∉ Nat.toDigits 16 n := by
  intro h
  exact absurd (isHexDigit_of_mem_toDigits h) (by decide)

theorem splitOn_groups {ds : List Char} (hne : ds ≠ []) (hcomma : ',' ∉ ds) :
    ([','].intercalate (groups 8 ds)).splitOn ',' = groups 8 ds := by
  refine List.splitOn_intercalate ',' (fun g hg hmem => ?_) fun hnil => hne ?_
  · exact hcomma ((of_mem_groups (by decide) hg).2 hmem)
  · rw [← flatten_groups (by decide : 0 < 8) ds, hnil, List.flatten_nil]

/-- A key denotes its mask. -/
theorem maskValue_maskText (x : Nat) : maskValue (maskText x) = x := by
  rw [maskValue, maskText, splitOn_groups Nat.toDigits_ne_nil (comma_notMem_toDigits x),
    groupsValue_groups, hexValue_toDigits]

theorem maskValue_toDigits (x : Nat) : maskValue (Nat.toDigits 16 x) = x := by
  rw [maskValue, List.splitOn_eq_singleton (comma_notMem_toDigits x), groupsValue,
    List.foldl_cons, List.foldl_nil, Nat.zero_mul, Nat.zero_add, hexValue_toDigits]

theorem toDigits_two_pow (k : Nat) :
    Nat.toDigits 16 (2 ^ k) = Nat.digitChar (2 ^ (k % 4)) :: List.replicate (k / 4) '0' := by
  have hpow : 2 ^ k = 2 ^ (k % 4) * 16 ^ (k / 4) := by
    rw [show 16 = 2 ^ 4 from rfl, ← Nat.pow_mul, ← Nat.pow_add]
    congr 1
    omega
  have hlt : 2 ^ (k % 4) < 16 := Nat.pow_lt_pow_right (by decide) (Nat.mod_lt k (by decide))
  rw [hpow, toDigits_mul_pow (Nat.pow_pos (by decide)) hlt]

theorem binaryZeros_two_pow (k : Nat) : binaryZeros (2 ^ k) = k := by
  have hdigits := toDigits_mul_pow Nat.one_pos (by decide : 1 < 2) k
  rw [Nat.one_mul] at hdigits
  rw [binaryZeros, hdigits]
  simp [Nat.digitChar]

/-- The mask has no commas up to 32 CPUs only. -/
theorem maskText_eq_toDigits_iff (k : Nat) :
    maskText (2 ^ k) = Nat.toDigits 16 (2 ^ k) ↔ k < 32 := by
  have hlength : (Nat.toDigits 16 (2 ^ k)).length = k / 4 + 1 := by
    rw [toDigits_two_pow, List.length_cons, List.length_replicate]
  constructor
  · intro h
    have hgroups := splitOn_groups Nat.toDigits_ne_nil (comma_notMem_toDigits (2 ^ k))
    rw [← maskText, h, List.splitOn_eq_singleton (comma_notMem_toDigits _)] at hgroups
    by_contra hk
    have htwo := two_le_length_groups (by decide : 0 < 8)
      (by rw [hlength]; omega : 8 < (Nat.toDigits 16 (2 ^ k)).length)
    rw [← hgroups, List.length_singleton] at htwo
    omega
  · intro hk
    rw [maskText, groups_of_length_le (by decide) Nat.toDigits_ne_nil (by omega)]
    simp

end Masks

/-! ## Keys -/

section Keys

theorem maskText_injective {x y : Nat} (h : maskText x = maskText y) : x = y := by
  rw [← maskValue_maskText x, h, maskValue_maskText]

/-- The keys of `cpu_selects` are the masks of the CPUs in order. -/
theorem entries_cpuSelects (numQueues : Nat) :
    (cpuSelects numQueues).entries = (List.range numQueues).map fun k => (maskText (2 ^ k), k) := by
  have hloop : (nextSelect^[numQueues] (∅, 1)).1.entries =
        (List.range numQueues).map (fun k => (maskText (2 ^ k), k)) ∧
      (nextSelect^[numQueues] (∅, 1)).2 = 2 ^ numQueues := by
    induction numQueues with
    | zero => exact ⟨rfl, rfl⟩
    | succ n ih =>
        obtain ⟨hentries, hmask⟩ := ih
        have hnew : maskText (2 ^ n) ∉ (nextSelect^[n] (∅, 1)).1.keys := by
          rw [Dict.keys, hentries, List.map_map]
          intro hmem
          obtain ⟨k, hk, htext⟩ := List.mem_map.mp hmem
          have heq := Nat.pow_right_injective le_rfl (maskText_injective htext)
          rw [List.mem_range] at hk
          omega
        rw [Function.iterate_succ_apply', nextSelect, hmask, Dict.entries_set_of_notMem hnew,
          hentries, List.range_succ, List.map_append, binaryZeros_two_pow, Nat.shiftLeft_eq,
          Nat.pow_succ]
        exact ⟨rfl, rfl⟩
  exact hloop.1

theorem get?_cpuSelects {numQueues cpu : Nat} {text : List Char} :
    (cpuSelects numQueues).get? text = some cpu ↔ cpu < numQueues ∧ text = maskText (2 ^ cpu) := by
  rw [Dict.get?_eq_some_iff, entries_cpuSelects, List.mem_map]
  constructor
  · rintro ⟨k, hk, heq⟩
    obtain ⟨rfl, rfl⟩ := Prod.mk.inj heq
    exact ⟨List.mem_range.mp hk, rfl⟩
  · rintro ⟨hk, rfl⟩
    exact ⟨cpu, List.mem_range.mpr hk, rfl⟩

end Keys

/-! ## Cleaned texts -/

section Cleaned

variable {α : Type} {p q : α → Bool}

/-- What is dropped at the begin may be taken out first. -/
theorem filter_dropWhile (h : ∀ a, q a = false → p a = true) (l : List α) :
    (l.dropWhile p).filter q = (l.filter q).dropWhile p := by
  induction l with
  | nil => rfl
  | cons a l ih =>
      by_cases hp : p a = true
      · rw [List.dropWhile_cons_of_pos hp, ih]
        by_cases hq : q a = true
        · rw [List.filter_cons_of_pos hq, List.dropWhile_cons_of_pos hp]
        · rw [List.filter_cons_of_neg hq]
      · have hq : q a = true := by
          by_contra hq
          exact hp (h a (Bool.eq_false_iff.mpr hq))
        rw [List.dropWhile_cons_of_neg hp, List.filter_cons_of_pos hq,
          List.dropWhile_cons_of_neg hp]

theorem filter_intercalate [DecidableEq α] {sep : α} {ls : List (List α)}
    (h : ∀ l ∈ ls, sep ∉ l) : ([sep].intercalate ls).filter (· ≠ sep) = ls.flatten := by
  have hkeep : ∀ l : List α, sep ∉ l → l.filter (· ≠ sep) = l := by
    intro l hl
    refine List.filter_eq_self.mpr fun a ha => decide_eq_true ?_
    rintro rfl
    exact hl ha
  induction ls with
  | nil => rfl
  | cons l ls ih =>
      obtain ⟨hl, hls⟩ := List.forall_mem_cons.mp h
      cases ls with
      | nil => rw [List.intercalate_singleton, hkeep l hl, List.flatten_singleton]
      | cons l' ls =>
          rw [List.intercalate_cons_cons, List.filter_append, List.filter_append, ih hls,
            hkeep l hl, List.flatten_cons]
          simp

theorem isSpace_eq_false_of_mem_toDigits {n : Nat} {c : Char} (h : c ∈ Nat.toDigits 16 n) :
    isSpace c = false := by
  have hc := isHexDigit_of_mem_toDigits h
  have hrange : (48 ≤ c.toNat ∧ c.toNat ≤ 57) ∨ (97 ≤ c.toNat ∧ c.toNat ≤ 102) := by
    simpa [isHexDigit, Char.le_def, UInt32.le_iff_toNat_le] using hc
  simp only [isSpace, Bool.or_eq_false_iff, Bool.and_eq_false_iff, decide_eq_false_iff_not]
  omega

/-- A mask of one CPU is cleaned to its digits. -/
theorem cleaned_smpAffinity (cpus k : Nat) {blank : List Char}
    (hblank : ∀ c ∈ blank, isSpace c = true) :
    cleaned (smpAffinity cpus k ++ blank) = Nat.toDigits 16 (2 ^ k) := by
  have hcomma : ',' ∉ List.replicate ((cpus + 3) / 4 - (Nat.toDigits 16 (2 ^ k)).length) '0' ++
      Nat.toDigits 16 (2 ^ k) := by
    simp [comma_notMem_toDigits]
  have hkeep : blank.filter (· ≠ ',') = blank := by
    refine List.filter_eq_self.mpr fun c hc => decide_eq_true ?_
    rintro rfl
    exact absurd (hblank _ hc) (by decide)
  have hfirst : Nat.digitChar (2 ^ (k % 4)) ∉ ['0', '+', ',', '?'] := by
    have hk : k % 4 < 4 := Nat.mod_lt k (by decide)
    interval_cases k % 4 <;> decide
  have hdrop : ∀ z : Nat, (List.replicate z '0' ++ Nat.toDigits 16 (2 ^ k) ++ blank).dropWhile
      (fun c => decide (c ∈ ['0', '+', ',', '?'])) = Nat.toDigits 16 (2 ^ k) ++ blank := by
    intro z
    rw [List.append_assoc, List.dropWhile_append_of_pos, toDigits_two_pow, List.cons_append,
      List.dropWhile_cons_of_neg]
    · exact mt of_decide_eq_true hfirst
    · intro c hc
      rw [List.eq_of_mem_replicate hc]
      decide
  rw [cleaned, filter_dropWhile, List.filter_append, hkeep, smpAffinity,
    filter_intercalate fun g hg hmem => hcomma ((of_mem_groups (by decide) hg).2 hmem),
    flatten_groups (by decide), hdrop,
    strip_append_space Nat.toDigits_ne_nil (fun _ => isSpace_eq_false_of_mem_toDigits) hblank]
  intro c hc
  have hc : c = ',' := by simpa using hc
  rw [hc]
  decide

end Cleaned

/-! ## The loop over the interrupts -/

section Loop

variable {output : String → List Char}

theorem get?_cpuSelects_foldl {text : List Char} {irqs : List String}
    (h : ∀ irq ∈ irqs, cleaned (output irq) ≠ text) (s : Checked) :
    (irqs.foldl (checkInterrupt output) s).cpuSelects.get? text = s.cpuSelects.get? text := by
  induction irqs generalizing s with
  | nil => rfl
  | cons irq irqs ih =>
      obtain ⟨hirq, hirqs⟩ := List.forall_mem_cons.mp h
      rw [List.foldl_cons, ih hirqs, checkInterrupt]
      split
      next => rfl
      next cpu hcpu => exact Dict.get?_erase_ne _ hirq.symm

theorem get?_cpuIrqMap_foldl {irqId : String} {irqs : List String} (h : irqId ∉ irqs)
    (s : Checked) :
    (irqs.foldl (checkInterrupt output) s).cpuIrqMap.get? irqId = s.cpuIrqMap.get? irqId := by
  induction irqs generalizing s with
  | nil => rfl
  | cons irq irqs ih =>
      obtain ⟨hirq, hirqs⟩ := not_or.mp (mt List.mem_cons.mpr h)
      rw [List.foldl_cons, ih hirqs, checkInterrupt]
      split
      next => rfl
      next cpu hcpu => exact Dict.get?_set_ne _ hirq _

/-- An interrupt is mapped if its text is a key that no earlier interrupt took. -/
theorem get?_cpuIrqMap_of_key {numQueues cpu : Nat} {irqId : String} {before after : List String}
    (hbefore : ∀ irq ∈ before, cleaned (output irq) ≠ cleaned (output irqId))
    (hafter : irqId ∉ after)
    (hkey : (cpuSelects numQueues).get? (cleaned (output irqId)) = some cpu) :
    (checkInterrupts2vcpus output numQueues (before ++ irqId :: after)).cpuIrqMap.get? irqId =
      some cpu := by
  have hfree := get?_cpuSelects_foldl hbefore ⟨∅, [], cpuSelects numQueues⟩
  rw [checkInterrupts2vcpus, List.foldl_append, List.foldl_cons, get?_cpuIrqMap_foldl hafter,
    checkInterrupt]
  simp only [hfree, hkey]
  exact Dict.get?_set_self _ _ _

/-- It is reset if its text is no key. -/
theorem get?_cpuIrqMap_of_not_key (output : String → List Char) (numQueues : Nat) (irqId : String)
    (hkey : (cpuSelects numQueues).get? (cleaned (output irqId)) = none) :
    (checkInterrupts2vcpus output numQueues [irqId]).cpuIrqMap.get? irqId = none := by
  rw [checkInterrupts2vcpus, List.foldl_cons, List.foldl_nil, checkInterrupt]
  simp only [hkey]
  rfl

end Loop

section Results

/-- The mask of a CPU is recognised wherever an interrupt has it first, and its key denotes it. -/
def RoundTrips (numQueues k : Nat) (text : List Char) : Prop :=
  (∀ (output : String → List Char) (irqId : String) (before after : List String),
    output irqId = text → (before ++ irqId :: after).Nodup →
    (∀ irq ∈ before, cleaned (output irq) ≠ cleaned text) →
    (checkInterrupts2vcpus output numQueues (before ++ irqId :: after)).cpuIrqMap.get? irqId =
      some k) ∧
  ∀ key, (key, k) ∈ (cpuSelects numQueues).entries → maskValue key = 2 ^ k

theorem get?_cleaned_iff {numQueues k cpus : Nat} (hk : k < numQueues) {blank : List Char}
    (hblank : ∀ c ∈ blank, isSpace c = true) :
    (cpuSelects numQueues).get? (cleaned (smpAffinity cpus k ++ blank)) = some k ↔ k < 32 := by
  rw [cleaned_smpAffinity cpus k hblank, get?_cpuSelects, ← maskText_eq_toDigits_iff, eq_comm,
    and_iff_right hk]

theorem get?_cleaned_eq_none {numQueues k cpus : Nat} (hk : ¬ k < 32) {blank : List Char}
    (hblank : ∀ c ∈ blank, isSpace c = true) :
    (cpuSelects numQueues).get? (cleaned (smpAffinity cpus k ++ blank)) = none := by
  refine Option.eq_none_iff_forall_ne_some.mpr fun cpu hcpu => ?_
  rw [cleaned_smpAffinity cpus k hblank, get?_cpuSelects] at hcpu
  obtain ⟨-, htext⟩ := hcpu
  have hmask : 2 ^ k = 2 ^ cpu := by
    rw [← maskValue_toDigits (2 ^ k), htext, maskValue_maskText]
  rw [Nat.pow_right_injective le_rfl hmask] at htext hk
  exact hk ((maskText_eq_toDigits_iff cpu).mp htext.symm)

theorem maskValue_of_mem_entries {numQueues k : Nat} {key : List Char}
    (h : (key, k) ∈ (cpuSelects numQueues).entries) : maskValue key = 2 ^ k := by
  obtain ⟨-, rfl⟩ := get?_cpuSelects.mp (Dict.get?_eq_some_iff.mpr h)
  exact maskValue_maskText _

/-- Masks round trip exactly for the first 32 CPUs. -/
theorem affinity_roundTrips_iff (numQueues k cpus : Nat) (hk : k < numQueues) (blank : List Char)
    (hblank : ∀ c ∈ blank, isSpace c = true) :
    RoundTrips numQueues k (smpAffinity cpus k ++ blank) ↔ k < 32 := by
  constructor
  · rintro ⟨hrecognised, -⟩
    by_contra hlarge
    have hmapped := hrecognised (fun _ => smpAffinity cpus k ++ blank) "24" [] [] rfl
      (List.nodup_singleton _) (List.forall_mem_nil _)
    have hreset := get?_cpuIrqMap_of_not_key (fun _ => smpAffinity cpus k ++ blank) numQueues "24"
      (get?_cleaned_eq_none hlarge hblank)
    cases hreset.symm.trans hmapped
  · intro hsmall
    refine ⟨fun output irqId before after htext hnodup hbefore => ?_,
      fun key => maskValue_of_mem_entries⟩
    rw [← htext] at hbefore
    refine get?_cpuIrqMap_of_key hbefore ?_ ?_
    · exact (List.nodup_cons.mp hnodup.of_append_right).1
    · rw [htext]
      exact (get?_cleaned_iff hk hblank).mpr hsmall

theorem affinity_roundTrips_iff_cpu33 :
    (∀ c ∈ ['\n'], isSpace c = true) ∧ (RoundTrips 40 33 (smpAffinity 40 33 ++ ['\n']) ↔ 33 < 32) :=
  ⟨List.forall_mem_singleton.mpr (by decide), affinity_roundTrips_iff 40 33 40 (by decide) ['\n']
    (List.forall_mem_singleton.mpr (by decide))⟩

/-- The first mask with a comma. The text is cleaned to a 1 and eight zeros, and is no key. -/
theorem cpu32_not_recognised :
    smpAffinity 33 32 = "1,00000000".toList ∧ maskText (2 ^ 32) = "1,00000000".toList ∧
      cleaned ("1,00000000".toList ++ ['\n']) = "100000000".toList ∧
      ¬ RoundTrips 33 32 ("1,00000000".toList ++ ['\n']) := by
  have htext : smpAffinity 33 32 = "1,00000000".toList := by decide
  refine ⟨htext, by decide, by decide, fun h => ?_⟩
  have hmapped := h.1 (fun _ => "1,00000000".toList ++ ['\n']) "24" [] [] rfl
    (List.nodup_singleton _) (List.forall_mem_nil _)
  have hreset := get?_cpuIrqMap_of_not_key (fun _ => "1,00000000".toList ++ ['\n']) 33 "24" (by
    rw [← htext]
    exact get?_cleaned_eq_none (by decide) (List.forall_mem_singleton.mpr (by decide)))
  cases hreset.symm.trans hmapped

end Results

end TpQemu.ScsiMq

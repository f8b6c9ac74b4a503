import TpQemu.Lib.Python
import TpQemu.ScsiMq.Affinity

/-!
# Pinning interrupts

`pin_interrupts2vcpus` and `compare_interrupts` in `qemu/tests/virtio_scsi_mq.py`. The CPUs that no
interrupt was recognised on are handed out to the other interrupts.
-/

namespace TpQemu.ScsiMq

/-- The commands of `pin_interrupts2vcpus`, and `cpu_irq_map` after it. -/
structure Pinned where
  bindCpuCmd : List (List Char)
  cpuIrqMap : Dict String Nat

section Definitions

end Definitions

/-! ## Recognised interrupts -/

section Check

variable {output : String → List Char} {numQueues : Nat}

/-- What holds after some interrupts: each is mapped or to be reset, no two are mapped to one CPU,
and the CPUs that are left are not mapped to. -/
structure Invariant (numQueues : Nat) (irqs : List String) (s : Checked) : Prop where
  mem_iff : ∀ irq, irq ∈ irqs ↔ irq ∈ s.irqsIdReset ∨ irq ∈ s.cpuIrqMap.keys
  reset_notMem : ∀ irq ∈ s.irqsIdReset, irq ∉ s.cpuIrqMap.keys
  reset_nodup : s.irqsIdReset.Nodup
  bound : ∀ irq cpu, s.cpuIrqMap.get? irq = some cpu → cpu < numQueues
  injective : ∀ irq irq' cpu, s.cpuIrqMap.get? irq = some cpu → s.cpuIrqMap.get? irq' = some cpu →
    irq = irq'
  key : ∀ text cpu, s.cpuSelects.get? text = some cpu → cpu < numQueues ∧ text = maskText (2 ^ cpu)
  unmapped : ∀ text cpu, s.cpuSelects.get? text = some cpu → ∀ irq, s.cpuIrqMap.get? irq ≠ some cpu
  select_count : s.cpuSelects.keys.length + s.cpuIrqMap.keys.length = numQueues
  irq_count : s.irqsIdReset.length + s.cpuIrqMap.keys.length = irqs.length

/-- An interrupt that is not recognised. -/
theorem Invariant.reset {irqs : List String} {s : Checked} (h : Invariant numQueues irqs s)
    {irq : String} (hirq : irq ∉ irqs) :
    Invariant numQueues (irqs ++ [irq]) { s with irqsIdReset := s.irqsIdReset ++ [irq] } := by
  obtain ⟨hreset, hmap⟩ := not_or.mp (mt (h.mem_iff irq).mpr hirq)
  constructor
  case mem_iff =>
    intro irq'
    simp only [List.mem_append, List.mem_singleton, h.mem_iff irq']
    tauto
  case reset_notMem =>
    intro irq' hmem
    rcases List.mem_append.mp hmem with hmem | hmem
    · exact h.reset_notMem irq' hmem
    · rw [List.mem_singleton.mp hmem]
      exact hmap
  case reset_nodup => exact h.reset_nodup.append (List.nodup_singleton _) (by simpa using hreset)
  case bound => exact h.bound
  case injective => exact h.injective
  case key => exact h.key
  case unmapped => exact h.unmapped
  case select_count => exact h.select_count
  case irq_count =>
    have hcount := h.irq_count
    simp only [List.length_append, List.length_singleton]
    omega

/-- An interrupt that is recognised. -/
theorem Invariant.recognise {irqs : List String} {s : Checked} (h : Invariant numQueues irqs s)
    {irq : String} (hirq : irq ∉ irqs) {text : List Char} {cpu : Nat}
    (htext : s.cpuSelects.get? text = some cpu) :
    Invariant numQueues (irqs ++ [irq])
      { s with
        cpuIrqMap := s.cpuIrqMap.set irq cpu
        cpuSelects := s.cpuSelects.erase text } := by
  obtain ⟨hreset, hmap⟩ := not_or.mp (mt (h.mem_iff irq).mpr hirq)
  have hkeys : (s.cpuIrqMap.set irq cpu).keys = s.cpuIrqMap.keys ++ [irq] := by
    rw [Dict.keys_set, if_neg hmap]
  have hleft : ∀ {text' cpu'}, (s.cpuSelects.erase text).get? text' = some cpu' →
      text' ≠ text ∧ s.cpuSelects.get? text' = some cpu' := by
    intro text' cpu' hget
    by_cases hne : text' = text
    · rw [hne, Dict.get?_erase_self] at hget
      cases hget
    · rw [Dict.get?_erase_ne _ hne] at hget
      exact ⟨hne, hget⟩
  constructor
  case mem_iff =>
    intro irq'
    simp only [List.mem_append, List.mem_singleton, h.mem_iff irq', hkeys]
    tauto
  case reset_notMem =>
    intro irq' hmem hset
    rcases Dict.mem_keys_set.mp hset with rfl | hset
    · exact hreset hmem
    · exact h.reset_notMem irq' hmem hset
  case reset_nodup => exact h.reset_nodup
  case bound =>
    intro irq' cpu' hget
    rcases Dict.get?_set_cases hget with ⟨-, rfl⟩ | ⟨-, hget⟩
    · exact (h.key text cpu' htext).1
    · exact h.bound irq' cpu' hget
  case injective =>
    intro irq₁ irq₂ cpu' hget₁ hget₂
    rcases Dict.get?_set_cases hget₁ with ⟨rfl, rfl⟩ | ⟨-, hold₁⟩
    · rcases Dict.get?_set_cases hget₂ with ⟨rfl, -⟩ | ⟨-, hold₂⟩
      · rfl
      · exact absurd hold₂ (h.unmapped text cpu' htext irq₂)
    · rcases Dict.get?_set_cases hget₂ with ⟨rfl, rfl⟩ | ⟨-, hold₂⟩
      · exact absurd hold₁ (h.unmapped text cpu' htext irq₁)
      · exact h.injective irq₁ irq₂ cpu' hold₁ hold₂
  case key => exact fun text' cpu' hget => h.key text' cpu' (hleft hget).2
  case unmapped =>
    intro text' cpu' hget irq' hset
    obtain ⟨hne, hleft⟩ := hleft hget
    rcases Dict.get?_set_cases hset with ⟨-, rfl⟩ | ⟨-, hold⟩
    · exact hne ((h.key text' cpu' hleft).2.trans (h.key text cpu' htext).2.symm)
    · exact h.unmapped text' cpu' hleft irq' hold
  case select_count =>
    have hcount := h.select_count
    have herase := Dict.length_keys_erase_add_one (Dict.mem_keys_iff.mpr ⟨cpu, htext⟩)
    simp only [hkeys, List.length_append, List.length_singleton]
    omega
  case irq_count =>
    have hcount := h.irq_count
    simp only [hkeys, List.length_append, List.length_singleton]
    omega

theorem Invariant.checkInterrupt {irqs : List String} {s : Checked}
    (h : Invariant numQueues irqs s) {irq : String} (hirq : irq ∉ irqs) :
    Invariant numQueues (irqs ++ [irq]) (checkInterrupt output s irq) := by
  rw [ScsiMq.checkInterrupt]
  split
  next => exact h.reset hirq
  next cpu hcpu => exact h.recognise hirq hcpu

end Check

/-! ## The other interrupts -/

section Pin

variable {numQueues : Nat} {irqs : List String} {s : Checked}

/-- There are enough CPUs left. -/
theorem Invariant.length_le (h : Invariant numQueues irqs s) (hirqs : irqs.length ≤ numQueues) :
    s.irqsIdReset.length ≤ s.cpuSelects.entries.length := by
  have hselect := h.select_count
  have hirq := h.irq_count
  rw [Dict.keys, List.length_map] at hselect
  omega

variable (h : Invariant numQueues irqs s) (hirqs : irqs.length ≤ numQueues)

include h hirqs

end Pin

/-! ## Comparing counts -/

section Compare

variable {cpuIrqMap : Dict String Nat} {prevIrqs curIrqs : IrqMap}

end Compare

section Results

end Results

end TpQemu.ScsiMq

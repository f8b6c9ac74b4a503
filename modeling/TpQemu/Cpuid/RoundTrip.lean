import TpQemu.Cpuid.Printing

/-!
# The dump round trip

The parser reads back what the kernel wrote: a key for every dumped entry and
every register, and no other, with the processor's register value. Serial noise
around the dump is harmless as long as the start marker does not occur before the
dump and the end marker does not occur behind it. The markers are searched for
anywhere in the text, not only as whole lines: a marker inside a longer line of
the noise makes the parser reject the dump.
-/

namespace TpQemu.Cpuid

open Text Scan

/-! ## One line -/

theorem hexField_ne_nil (width : Nat) (d : BitVec 32) : hexField width d ≠ [] := by
  intro h
  exact Nat.toDigits_ne_nil (List.append_eq_nil_iff.mp h).2

theorem run1_hexField (width : Nat) (d : BitVec 32) (s : List Char)
    (hs : Stops Numeral.isHexDigit s) :
    run1 Numeral.isHexDigit (hexField width d ++ s) = some (hexField width d, s) :=
  run1_append _ s (hexField_ne_nil width d) (fun _ => isHexDigit_of_mem_hexField) hs

theorem hexValue_hexField (width : Nat) (d : BitVec 32) :
    Numeral.hexValue (hexField width d) = d.toNat := by
  rw [hexField, Numeral.hexValue_replicate_append, Numeral.hexValue_toDigits]

/-- A printed field is not taken for a base prefix. -/
theorem int16_hexField (width : Nat) (d : BitVec 32) : int16 (hexField width d) = d.toNat := by
  rw [int16.eq_def]
  split
  · rename_i ds h
    have hx : Numeral.isHexDigit 'x' = true := isHexDigit_of_mem_hexField (by rw [h]; simp)
    exact absurd hx (by decide)
  · exact hexValue_hexField width d

/-- The groups the line pattern finds in the line of an entry. -/
def leafMatch (cpuid : Oracle) (entry : BitVec 32 × BitVec 32) : LineMatch where
  inEax := "0x".toList ++ hexField 8 entry.1
  inEcx := hexField 2 entry.2
  eax := hexField 8 (cpuid entry.1 entry.2).eax
  ebx := hexField 8 (cpuid entry.1 entry.2).ebx
  ecx := hexField 8 (cpuid entry.1 entry.2).ecx
  edx := hexField 8 (cpuid entry.1 entry.2).edx

theorem bind_of_eq_some {α β : Type} {x : Option α} {a : α} (h : x = some a)
    (f : α → Option β) : (x >>= f) = f a := by
  rw [h, Option.bind_eq_bind, Option.bind_some]

theorem cpuidRe_leafLine (cpuid : Oracle) (entry : BitVec 32 × BitVec 32) :
    cpuidRe (leafLine cpuid entry) = some (leafMatch cpuid entry) := by
  let r := cpuid entry.1 entry.2
  have beforeSpace (width : Nat) (d : BitVec 32) (s : List Char) :
      run1 Numeral.isHexDigit (hexField width d ++ ' ' :: s) = some (hexField width d, ' ' :: s) :=
    run1_hexField width d _ (stops_cons (by decide) s)
  have beforeColon (s : List Char) : run1 Numeral.isHexDigit (hexField 2 entry.2 ++ ':' :: s) =
      some (hexField 2 entry.2, ':' :: s) := run1_hexField 2 entry.2 _ (stops_cons (by decide) s)
  have atEnd : run1 Numeral.isHexDigit (hexField 8 r.edx) = some (hexField 8 r.edx, []) := by
    simpa using run1_hexField 8 r.edx [] (stops_nil Numeral.isHexDigit)
  have gap {c : Char} (hc : decide (c = ' ') = false) (s : List Char) :
      run1 (fun c => decide (c = ' ')) (' ' :: c :: s) = some ([' '], c :: s) :=
    run1_append [' '] _ (by decide) (by simp) (stops_cons hc s)
  -- The scanner consumes the line piece by piece, in the order of the pattern.
  refine (bind_of_eq_some (literal_append "0x".toList _) _).trans ?_
  refine (bind_of_eq_some (beforeSpace 8 entry.1 _) _).trans ?_
  refine (bind_of_eq_some (gap (by decide) _) _).trans ?_
  refine (bind_of_eq_some (literal_append "0x".toList _) _).trans ?_
  refine (bind_of_eq_some (beforeColon _) _).trans ?_
  refine (bind_of_eq_some (literal_append ":".toList _) _).trans ?_
  refine (bind_of_eq_some (gap (by decide) _) _).trans ?_
  refine (bind_of_eq_some (literal_append "eax=0x".toList _) _).trans ?_
  refine (bind_of_eq_some (beforeSpace 8 r.eax _) _).trans ?_
  refine (bind_of_eq_some (literal_append " ebx=0x".toList _) _).trans ?_
  refine (bind_of_eq_some (beforeSpace 8 r.ebx _) _).trans ?_
  refine (bind_of_eq_some (literal_append " ecx=0x".toList _) _).trans ?_
  refine (bind_of_eq_some (beforeSpace 8 r.ecx _) _).trans ?_
  refine (bind_of_eq_some (literal_append " edx=0x".toList _) _).trans ?_
  refine (bind_of_eq_some atEnd _).trans ?_
  rfl

theorem oneLine_hexField (width : Nat) (d : BitVec 32) : OneLine (hexField width d) := by
  intro c hc
  have hhex := isHexDigit_of_mem_hexField hc
  by_contra hbreak
  rw [Bool.not_eq_false, isLineBreak, decide_eq_true_eq] at hbreak
  simp only [Numeral.isHexDigit, Bool.or_eq_true, Bool.and_eq_true, decide_eq_true_eq,
    Char.le_def, UInt32.le_iff_toNat_le] at hhex
  change (48 ≤ c.toNat ∧ c.toNat ≤ 57) ∨ (97 ≤ c.toNat ∧ c.toNat ≤ 102) at hhex
  simp only [List.mem_cons, List.not_mem_nil, or_false] at hbreak
  omega

theorem oneLine_leafLine (cpuid : Oracle) (entry : BitVec 32 × BitVec 32) :
    OneLine (leafLine cpuid entry) := by
  dsimp only [leafLine]
  simp only [oneLine_append, oneLine_hexField, true_and, and_true]
  decide

/-! ## The dictionary -/

/-- The register of a result a name stands for. -/
def Regs.named (r : Regs) (name : String) : Option (BitVec 32) :=
  if name = "eax" then some r.eax
  else if name = "ebx" then some r.ebx
  else if name = "ecx" then some r.ecx
  else if name = "edx" then some r.edx
  else none

/-- What one dumped entry contributes to the dictionary. -/
def entryValue (cpuid : Oracle) (entry : BitVec 32 × BitVec 32) : Key → Option Nat
  | .leafIndex _ _ => none
  | .leafIndexReg leaf index reg =>
      if leaf = entry.1.toNat ∧ index = entry.2.toNat then
        ((cpuid entry.1 entry.2).named reg).map BitVec.toNat
      else none

theorem get?_storeLine_leafMatch (cpuid : Oracle) (entry : BitVec 32 × BitVec 32)
    (d : CpuidDump) (k : Key) :
    (storeLine d (leafMatch cpuid entry)).get? k =
      (entryValue cpuid entry k).or (d.get? k) := by
  have hleaf : int16 (leafMatch cpuid entry).inEax = entry.1.toNat := hexValue_hexField 8 entry.1
  have hindex : int16 (leafMatch cpuid entry).inEcx = entry.2.toNat := int16_hexField 2 entry.2
  have heax : int16 (leafMatch cpuid entry).eax = (cpuid entry.1 entry.2).eax.toNat :=
    int16_hexField 8 _
  have hebx : int16 (leafMatch cpuid entry).ebx = (cpuid entry.1 entry.2).ebx.toNat :=
    int16_hexField 8 _
  have hecx : int16 (leafMatch cpuid entry).ecx = (cpuid entry.1 entry.2).ecx.toNat :=
    int16_hexField 8 _
  have hedx : int16 (leafMatch cpuid entry).edx = (cpuid entry.1 entry.2).edx.toNat :=
    int16_hexField 8 _
  simp only [storeLine, hleaf, hindex, heax, hebx, hecx, hedx, Dict.get?_set]
  cases k with
  | leafIndex leaf index => simp [entryValue]
  | leafIndexReg leaf index reg =>
      by_cases hk : leaf = entry.1.toNat ∧ index = entry.2.toNat
      · obtain ⟨rfl, rfl⟩ := hk
        simp only [entryValue, Key.leafIndexReg.injEq, true_and, and_self, if_true, Regs.named]
        by_cases h1 : reg = "eax"
        · simp [h1]
        by_cases h2 : reg = "ebx"
        · simp [h2]
        by_cases h3 : reg = "ecx"
        · simp [h3]
        by_cases h4 : reg = "edx"
        · simp [h4]
        simp [h1, h2, h3, h4]
      · have hne (name : String) :
            ¬(Key.leafIndexReg leaf index reg =
              .leafIndexReg entry.1.toNat entry.2.toNat name) := by
          intro h
          injection h with h1 h2
          exact hk ⟨h1, h2⟩
        simp [entryValue, hk, hne]

/-- Two entries agree on a key they both contribute: the value only depends on
the leaf and the subleaf. -/
theorem entryValue_unique {cpuid : Oracle} {e e' : BitVec 32 × BitVec 32} {k : Key} {v v' : Nat}
    (h : entryValue cpuid e k = some v) (h' : entryValue cpuid e' k = some v') : v = v' := by
  cases k with
  | leafIndex leaf index => cases h
  | leafIndexReg leaf index reg =>
      simp only [entryValue] at h h'
      split at h
      · split at h'
        · rename_i hk hk'
          have h1 : e.1 = e'.1 := BitVec.eq_of_toNat_eq (hk.1.symm.trans hk'.1)
          have h2 : e.2 = e'.2 := BitVec.eq_of_toNat_eq (hk.2.symm.trans hk'.2)
          rw [h1, h2] at h
          exact Option.some.inj (h.symm.trans h')
        · cases h'
      · cases h

/-- Parsing the lines of some entries files exactly their values. -/
theorem parseLines_leafLines (cpuid : Oracle) (es : List (BitVec 32 × BitVec 32))
    (d : CpuidDump) :
    ∃ result, parseLines (es.map (leafLine cpuid)) d = some result ∧
      ∀ k v, result.get? k = some v ↔ (∃ e ∈ es, entryValue cpuid e k = some v) ∨
        (∀ e ∈ es, entryValue cpuid e k = none) ∧ d.get? k = some v := by
  induction es generalizing d with
  | nil => exact ⟨d, rfl, by simp⟩
  | cons e es ih =>
      obtain ⟨result, hparse, hget⟩ := ih (storeLine d (leafMatch cpuid e))
      refine ⟨result, ?_, ?_⟩
      · rw [List.map_cons, parseLines, cpuidRe_leafLine]
        exact hparse
      · intro k v
        rw [hget, get?_storeLine_leafMatch]
        cases hv : entryValue cpuid e k with
        | none => simp [hv]
        | some w =>
            simp only [Option.some_or, Option.some.injEq, List.exists_mem_cons_iff,
              List.forall_mem_cons, hv, reduceCtorEq, false_and, or_false]
            constructor
            · rintro (h | ⟨-, h⟩)
              · exact .inr h
              · exact .inl h
            · rintro (h | h)
              · -- The last line with this key decides, and it repeats the same value.
                by_cases hes : ∀ e ∈ es, entryValue cpuid e k = none
                · exact .inr ⟨hes, h⟩
                · simp only [not_forall] at hes
                  obtain ⟨e', he', hne⟩ := hes
                  obtain ⟨w', hw'⟩ := Option.ne_none_iff_exists'.mp hne
                  exact .inl ⟨e', he', by rw [hw', ← h, entryValue_unique hv hw']⟩
              · exact .inl h

/-! ## The whole text -/

/-- The entries a dump has to contain: the table entries that are range heads or do
not exceed the `eax` of their head, and the hypervisor leaves `dump_kvm_leafs`
selects. -/
def Dumped (cpuid : Oracle) (stale : BitVec 32 → BitVec 32) (entry : BitVec 32 × BitVec 32) :
    Prop :=
  (entry ∈ levels ∧ Selected cpuid entry) ∨
    (entry.2 = 0 ∧
      (entry.1 ∈ kvmLeafs cpuid (stale KVM_CPUID_SIGNATURE) KVM_CPUID_SIGNATURE ∨
        entry.1 ∈ kvmLeafs cpuid (stale KVM_CPUID_SIGNATURE_NEXT) KVM_CPUID_SIGNATURE_NEXT))

theorem mem_dumped {cpuid : Oracle} {stale : BitVec 32 → BitVec 32}
    {entry : BitVec 32 × BitVec 32} : entry ∈ dumped cpuid stale ↔ Dumped cpuid stale entry := by
  obtain ⟨leaf, index⟩ := entry
  simp only [dumped, Dumped, List.mem_append, List.mem_filter, decide_eq_true_eq, List.mem_map,
    Prod.mk.injEq]
  constructor
  · rintro (h | ⟨leaf', h, rfl, rfl⟩)
    · exact .inl h
    · exact .inr ⟨rfl, h⟩
  · rintro (h | ⟨rfl, h⟩)
    · exact .inl h
    · exact .inr ⟨leaf, h, rfl, rfl⟩

/-- The registers a dump line names. -/
def regNames : List String := ["eax", "ebx", "ecx", "edx"]

theorem named_isSome_iff (r : Regs) (name : String) :
    (∃ value, r.named name = some value) ↔ name ∈ regNames := by
  simp only [Regs.named, regNames, List.mem_cons, List.not_mem_nil, or_false]
  constructor
  · rintro ⟨value, h⟩
    by_contra hne
    simp only [not_or] at hne
    simp [hne] at h
  · rintro (rfl | rfl | rfl | rfl)
    · exact ⟨r.eax, rfl⟩
    · exact ⟨r.ebx, rfl⟩
    · exact ⟨r.ecx, rfl⟩
    · exact ⟨r.edx, rfl⟩

/-- The parser reads the text of a dump back: keys for exactly the dumped entries
and the four registers, with the processor's values. -/
def ReadsBack (cpuid : Oracle) (stale : BitVec 32 → BitVec 32) (text : List Char) : Prop :=
  ∃ d, parseCpuidDump text = some d ∧
    (∀ k, k ∈ d.keys ↔ ∃ entry reg, Dumped cpuid stale entry ∧ reg ∈ regNames ∧
      k = .leafIndexReg entry.1.toNat entry.2.toNat reg) ∧
    (∀ entry, Dumped cpuid stale entry → ∀ reg value,
      (cpuid entry.1 entry.2).named reg = some value →
        d.get? (.leafIndexReg entry.1.toNat entry.2.toNat reg) = some value.toNat)

/-- The lines between the markers. -/
def dumpLines (cpuid : Oracle) (stale : BitVec 32 → BitVec 32) : List (List Char) :=
  "CPU:".toList :: (dumped cpuid stale).map (leafLine cpuid)

/-- The kernel's text as the parser's search sees it: what stands between the first
start marker and the last end marker, each followed by a line feed. -/
theorem cmain_eq (cpuid : Oracle) (stale : BitVec 32 → BitVec 32) :
    cmain cpuid stale = some
      (startMarker ++ ('\n' :: unlines (dumpLines cpuid stale) ++ (endMarker ++ ['\n']))) := by
  rw [kernel_output]
  simp [dumpLines]

theorem oneLine_dumpLines (cpuid : Oracle) (stale : BitVec 32 → BitVec 32) :
    ∀ l ∈ dumpLines cpuid stale, OneLine l := by
  intro l hl
  obtain rfl | hl := List.mem_cons.mp hl
  · decide
  · obtain ⟨entry, -, rfl⟩ := List.mem_map.mp hl
    exact oneLine_leafLine cpuid entry

/-- Reading a dump back from a noisy serial log. -/
theorem readsBack_kernel_output (cpuid : Oracle) (stale : BitVec 32 → BitVec 32)
    (before after : List Char) (ends : before = [] ∨ ∃ b, before = b ++ ['\n'])
    (noStart : ¬startMarker <:+: before) (noEnd : ¬endMarker <:+: after) :
    ∃ text, cmain cpuid stale = some text ∧ ReadsBack cpuid stale (before ++ text ++ after) := by
  refine ⟨_, cmain_eq cpuid stale, ?_⟩
  obtain ⟨d, hlines, hget⟩ := parseLines_leafLines cpuid (dumped cpuid stale) ∅
  have hget' (k : Key) (v : Nat) : d.get? k = some v ↔
      ∃ e ∈ dumped cpuid stale, entryValue cpuid e k = some v := by
    simpa using hget k v
  refine ⟨d, ?_, ?_, ?_⟩
  · have hassoc : before ++ (startMarker ++
        ('\n' :: unlines (dumpLines cpuid stale) ++ (endMarker ++ ['\n']))) ++ after =
        before ++ (startMarker ++
          ('\n' :: unlines (dumpLines cpuid stale) ++ (endMarker ++ '\n' :: after))) := by
      simp
    rw [hassoc, unlines, dumpLines, parseCpuidDump_markers (by decide) ends noStart noEnd
      (oneLine_dumpLines cpuid stale), if_pos rfl]
    exact hlines
  · intro k
    rw [Dict.mem_keys_iff]
    constructor
    · rintro ⟨v, hv⟩
      obtain ⟨entry, hentry, hvalue⟩ := (hget' k v).mp hv
      cases k with
      | leafIndex leaf index => cases hvalue
      | leafIndexReg leaf index reg =>
          simp only [entryValue] at hvalue
          split at hvalue
          · rename_i hk
            obtain ⟨value, hnamed, -⟩ := Option.map_eq_some_iff.mp hvalue
            exact ⟨entry, reg, mem_dumped.mp hentry, (named_isSome_iff _ reg).mp ⟨value, hnamed⟩,
              by rw [hk.1, hk.2]⟩
          · cases hvalue
    · rintro ⟨entry, reg, hentry, hreg, rfl⟩
      obtain ⟨value, hnamed⟩ := (named_isSome_iff (cpuid entry.1 entry.2) reg).mpr hreg
      exact ⟨value.toNat, (hget' _ _).mpr ⟨entry, mem_dumped.mpr hentry, by
        simp [entryValue, hnamed]⟩⟩
  · intro entry hentry reg value hnamed
    exact (hget' _ _).mpr ⟨entry, mem_dumped.mpr hentry, by simp [entryValue, hnamed]⟩

/-- A processor that reports zero everywhere. -/
def zeroOracle : Oracle := fun _ _ => ⟨0, 0, 0, 0⟩

theorem readsBack_boot_log : ∃ text, cmain zeroOracle (fun _ => 0) = some text ∧
    ReadsBack zeroOracle (fun _ => 0) ("boot\n".toList ++ text ++ "\nhalt".toList) :=
  readsBack_kernel_output zeroOracle (fun _ => 0) "boot\n".toList "\nhalt".toList
    (.inr ⟨"boot".toList, rfl⟩) (by decide) (by decide)

/-- A start marker in the middle of a line of the noise is found by the search, and
the dump is rejected, although no line of the noise is a marker line. -/
theorem marker_inside_line_rejected :
    ¬∀ (cpuid : Oracle) (stale : BitVec 32 → BitVec 32) (text before after : List Char),
      cmain cpuid stale = some text →
      (before = [] ∨ ∃ b, before = b ++ ['\n']) → (after = [] ∨ ∃ a, after = '\n' :: a) →
      startMarker ∉ splitlines before → endMarker ∉ splitlines before →
      startMarker ∉ splitlines after → endMarker ∉ splitlines after →
      ReadsBack cpuid stale (before ++ text ++ after) := by
  intro h
  obtain ⟨d, hparse, -⟩ := h zeroOracle (fun _ => 0) _ "x==START TEST==\n".toList []
    (cmain_eq zeroOracle (fun _ => 0)) (.inr ⟨"x==START TEST==".toList, rfl⟩) (.inl rfl)
    (by decide) (by decide) (by decide) (by decide)
  generalize hdump : dumpLines zeroOracle (fun _ => 0) = ls at hparse
  have hls : ∀ l ∈ startMarker :: ls, OneLine l := fun l hl => by
    obtain rfl | hl := List.mem_cons.mp hl
    · decide
    · exact oneLine_dumpLines _ _ l (hdump ▸ hl)
  have hx : 'x' ∉ startMarker := by decide
  have ends : ['x'] = [] ∨ ∃ b, ['x'] = b ++ ['x'] := .inr ⟨[], rfl⟩
  have noStart : ¬startMarker <:+: ['x'] := by decide
  have noEnd : ¬endMarker <:+: [] := by decide
  have hassoc : "x==START TEST==\n".toList ++ (startMarker ++
      ('\n' :: unlines ls ++ (endMarker ++ ['\n']))) ++ [] =
      ['x'] ++ (startMarker ++
        ('\n' :: unlines (startMarker :: ls) ++ (endMarker ++ ['\n']))) := by
    have hnoise : "x==START TEST==\n".toList = ['x'] ++ (startMarker ++ ['\n']) := rfl
    rw [hnoise]
    simp only [unlines, List.flatMap_cons, List.append_assoc, List.cons_append, List.nil_append,
      List.append_nil]
  rw [hassoc, unlines, parseCpuidDump_markers hx ends noStart noEnd hls,
    if_neg (by decide)] at hparse
  cases hparse

end TpQemu.Cpuid

import TpQemu.Cpuid.Dump
import TpQemu.Lib.Python

/-!
# Comparing CPUID dumps

`compare_cpuid_output` and `check_cpuid_dump` of `qemu/tests/cpuid.py`. A dump of the guest is
compared bit by bit with a reference dump. Leaves, subleaves, registers and bits may be exempt.
-/

namespace TpQemu.Cpuid

open Text

/-- How a test ends before its end. -/
inductive Stop where
  /-- `test.cancel` -/
  | cancel (msg : List Char)
  /-- `test.fail` -/
  | fail (msg : List Char)
  | raised (e : PyError)
  deriving DecidableEq

/-- `compare_cpuid_output`: the bits that differ, with both values. -/
def compareCpuidOutput (a : Nat) (b : Option Nat) : List (Nat × Nat × Option Nat) :=
  (List.range 32).filterMap fun bit =>
    let ba := (a &&& 1 <<< bit) >>> bit
    let bb := b.map fun b => (b &&& 1 <<< bit) >>> bit
    if some ba ≠ bb then some (bit, ba, bb) else none

/-- A component of a tuple of the whitelist. -/
inductive Component where
  | number (z : Int)
  | text (cs : List Char)
  deriving DecidableEq

/-- The tuple of a word of `ignore_cpuid_leaves`. The components 0, 1 and 3 are numbers. -/
def ignoredLeaf (leaf : List Char) : Except PyError (List Component) :=
  (leaf.splitOn ',').zipIdx.mapM fun (cs, i) =>
    if i = 0 ∨ i = 1 ∨ i = 3 then Component.number <$> orRaise .valueError (Numeral.int0 cs)
    else .ok (.text cs)

def whitelist (ignoreCpuidLeaves : List Char) : Except PyError (List (List Component)) :=
  (words ignoreCpuidLeaves).mapM ignoredLeaf

/-- `whitelisted` of a bit. -/
def Whitelisted (whitelist : List (List Component)) (leaf index : Nat) (reg : String)
    (bit : Nat) : Prop :=
  [.number leaf] ∈ whitelist ∨ [.number leaf, .number index] ∈ whitelist ∨
    [.number leaf, .number index, .text reg.toList] ∈ whitelist ∨
    [.number leaf, .number index, .text reg.toList, .number bit] ∈ whitelist

instance (whitelist : List (List Component)) (leaf index : Nat) (reg : String) (bit : Nat) :
    Decidable (Whitelisted whitelist leaf index reg bit) :=
  inferInstanceAs (Decidable (_ ∨ _))

/-- The inner loop of the comparison, for a register. -/
def checkRegister (whitelist : List (List Component)) (okMissing : Bool) (leaf index : Nat)
    (reg : String) (diffs : List (Nat × Nat × Option Nat)) (ok : Bool) : Bool :=
  diffs.foldl (fun ok (bit, _, vout) =>
    let silent := vout.isNone && okMissing
    if Whitelisted whitelist leaf index reg bit ∨ silent then ok else false) ok

/-- One round of the loop over the reference. -/
def checkEntry (whitelist : List (List Component)) (okMissing : Bool) (out : CpuidDump)
    (ok : Bool) : Key × Nat → Except PyError Bool
  | (.leafIndexReg leaf index reg, v) =>
      .ok (checkRegister whitelist okMissing leaf index reg
        (compareCpuidOutput v (out.get? (.leafIndexReg leaf index reg))) ok)
  -- the key has too few components
  | (.leafIndex _ _, _) => .error .valueError

/-- The loop over the registers of the reference. -/
def checkDumps (whitelist : List (List Component)) (okMissing : Bool) (reference out : CpuidDump) :
    Except PyError Bool :=
  reference.entries.foldlM (checkEntry whitelist okMissing out) true

/-- `os.path.join` -/
def osPathJoin (a b : List Char) : List Char :=
  if b.head? = some '/' then b
  else if a.getLast?.all (· = '/') then a ++ b
  else a ++ '/' :: b

/-- What `get_guest_cpuid` does. -/
inductive Guest where
  | dump (out : CpuidDump)
  /-- `VMStartError` or `VMCreateError`, and what `in` says about it. -/
  | startError (mentions : String → Except PyError Bool)
  | raised (e : PyError)

/-- What is outside the function: the test parameters, the files and the guest. -/
structure CheckEnv where
  param : String → Option (List Char)
  depsDir : List Char
  readFile : List Char → Option (List Char)
  /-- The guest of a machine type with a CPU model and flags, in QOM mode or not. -/
  guest : List Char → List Char → List Char → Bool → Guest

namespace CheckEnv

variable (env : CheckEnv)

def cpuModel : List Char := (env.param "cpu_model").getD "qemu64".toList

def machineType : List Char := (env.param "machine_type_to_check").getD []

def cpuModelFlags : List Char := (env.param "cpu_model_flags").getD []

def ignoreCpuidLeaves : List Char := (env.param "ignore_cpuid_leaves").getD []

def qomMode : Bool := ((env.param "qom_mode").getD "no".toList).map Char.toLower = "yes".toList

def okMissing : Bool := (env.param "ok_missing").getD "no".toList = "yes".toList

def fullCpuModelName : List Char :=
  if env.cpuModelFlags = [] then env.cpuModel
  else env.cpuModel ++ ',' :: env.cpuModelFlags.dropWhile (· = ',')

def refFile : List Char :=
  let kvm := if (env.param "enable_kvm").getD "yes".toList = "yes".toList then "kvm" else "nokvm"
  ["cpuid".toList, "cpuid_dumps".toList, kvm.toList, env.machineType,
    env.fullCpuModelName ++ "-dump.txt".toList].foldl osPathJoin env.depsDir

/-- The guest that is started. -/
def started : Guest :=
  let flags := if env.qomMode then env.cpuModelFlags else env.cpuModelFlags ++ ",enforce".toList
  env.guest env.machineType env.cpuModel flags env.qomMode

/-- The guest cannot run on this host. -/
def cannotRun (mentions : String → Except PyError Bool) : Except PyError Bool := do
  if ← mentions "host doesn't support requested feature:" then return true
  if ← mentions "host cpuid" then
    if ← mentions "lacks requested flag" then return true
    if ← mentions "flag restricted to guest" then return true
  mentions "Unable to find CPU definition:"

end CheckEnv

def orStop {α : Type} : Except PyError α → Except Stop α
  | .ok a => .ok a
  | .error e => .error (.raised e)

/-- The dump of the guest. -/
def guestDump (env : CheckEnv) : Except Stop CpuidDump :=
  match env.started with
  | .dump out => .ok out
  | .startError mentions => do
      if ← orStop (CheckEnv.cannotRun mentions) then
        throw (.cancel ("Can't run CPU model ".toList ++ env.fullCpuModelName ++
          " on this host".toList))
      else throw (.raised .runtimeError)
  | .raised e => .error (.raised e)

/-- `check_cpuid_dump` -/
def checkCpuidDump (env : CheckEnv) : Except Stop Unit := do
  let whitelist ← orStop (whitelist env.ignoreCpuidLeaves)
  if env.machineType = [] then
    throw (.cancel "No machine_type_to_check defined".toList)
  else
    match env.readFile env.refFile with
    | none => throw (.cancel ("no cpuid dump file: ".toList ++ env.refFile))
    | some reference =>
        if reference = [] then
          throw (.cancel ("no cpuid dump data on file: ".toList ++ env.refFile))
        else
          match parseCpuidDump reference with
          | none =>
              throw (.cancel ("couldn't parse reference cpuid dump from file; ".toList ++
                env.refFile))
          | some reference =>
              let out ← guestDump env
              let ok ← orStop (checkDumps whitelist env.okMissing reference out)
              if ok then return else throw (.fail "Unexpected CPUID data".toList)

/-! ## Bits -/

theorem and_shift_eq (a bit : Nat) : (a &&& 1 <<< bit) >>> bit = (a.testBit bit).toNat := by
  rw [Nat.shiftRight_and_distrib, Nat.shiftLeft_shiftRight, Nat.and_one_is_mod,
    Nat.shiftRight_eq_div_pow, Nat.toNat_testBit]

theorem toNat_injective : Function.Injective Bool.toNat := by
  intro a b h
  cases a <;> cases b <;> first | rfl | cases h

/-- A bit is listed exactly if it differs, or if there is nothing to compare it with. -/
theorem mem_compareCpuidOutput {a : Nat} {b : Option Nat} {d : Nat × Nat × Option Nat} :
    d ∈ compareCpuidOutput a b ↔ d.1 < 32 ∧ d.2.1 = (a.testBit d.1).toNat ∧
      d.2.2 = b.map (fun b => (b.testBit d.1).toNat) ∧
      ∀ w, b = some w → a.testBit d.1 ≠ w.testBit d.1 := by
  obtain ⟨bit, va, vb⟩ := d
  simp only [compareCpuidOutput, and_shift_eq, List.mem_filterMap, List.mem_range]
  constructor
  · rintro ⟨i, hi, h⟩
    split at h
    · rename_i hne
      cases h
      refine ⟨hi, rfl, rfl, ?_⟩
      rintro w rfl heq
      exact hne (by rw [heq]; rfl)
    · cases h
  · rintro ⟨hbit, rfl, rfl, hne⟩
    refine ⟨bit, hbit, if_pos ?_⟩
    cases b with
    | none => exact nofun
    | some w =>
        intro heq
        exact hne w rfl (toNat_injective (Option.some.inj heq))

/-! ## The comparison -/

/-- The bit of the reference is not that of the dump. -/
def Mismatch (okMissing : Bool) (reference out : CpuidDump) (k : Key) (bit : Nat) : Prop :=
  ∃ v, reference.get? k = some v ∧
    match out.get? k with
    | some w => v.testBit bit ≠ w.testBit bit
    | none => okMissing = false

/-- A bit of a register that is not exempt and differs. -/
def Unexpected (exempt : Nat → Nat → String → Nat → Prop) (okMissing : Bool)
    (reference out : CpuidDump) : Prop :=
  ∃ leaf index reg bit, bit < 32 ∧
    Mismatch okMissing reference out (.leafIndexReg leaf index reg) bit ∧
    ¬exempt leaf index reg bit

/-- The fields of an entry of `ignore_cpuid_leaves` name the bit: its leaf, its leaf and index,
these and the register, or all four. -/
def NamesBit (leaf index : Nat) (reg : String) (bit : Nat) : List (List Char) → Prop
  | [a] => Numeral.int0 a = some (leaf : Int)
  | [a, b] => Numeral.int0 a = some (leaf : Int) ∧ Numeral.int0 b = some (index : Int)
  | [a, b, r] =>
      Numeral.int0 a = some (leaf : Int) ∧ Numeral.int0 b = some (index : Int) ∧ r = reg.toList
  | [a, b, r, c] =>
      Numeral.int0 a = some (leaf : Int) ∧ Numeral.int0 b = some (index : Int) ∧
        r = reg.toList ∧ Numeral.int0 c = some (bit : Int)
  | _ => False

/-- An entry of the text names the bit. -/
def Exempt (ignoreCpuidLeaves : List Char) (leaf index : Nat) (reg : String) (bit : Nat) : Prop :=
  ∃ entry ∈ words ignoreCpuidLeaves, NamesBit leaf index reg bit (entry.splitOn ',')

/-- The fields of an entry that are to be numbers are numbers. -/
def Readable (fields : List (List Char)) : Prop :=
  ∀ f ∈ fields.zipIdx, f.2 = 0 ∨ f.2 = 1 ∨ f.2 = 3 → (Numeral.int0 f.1).isSome

section Comparison

variable {whitelist : List (List Component)} {okMissing : Bool} {reference out : CpuidDump}

theorem checkRegister_eq_false_iff {leaf index : Nat} {reg : String}
    {diffs : List (Nat × Nat × Option Nat)} {ok : Bool} :
    checkRegister whitelist okMissing leaf index reg diffs ok = false ↔
      ok = false ∨ ∃ d ∈ diffs, ¬Whitelisted whitelist leaf index reg d.1 ∧
        ¬(d.2.2 = none ∧ okMissing = true) := by
  rw [checkRegister]
  induction diffs generalizing ok with
  | nil => simp
  | cons d diffs ih =>
      obtain ⟨bit, va, vb⟩ := d
      rw [List.foldl_cons, ih]
      have hor : (Whitelisted whitelist leaf index reg bit ∨ (vb.isNone && okMissing) = true) ↔
          (Whitelisted whitelist leaf index reg bit ∨ vb = none ∧ okMissing = true) := by
        rw [Bool.and_eq_true, Option.isNone_iff_eq_none]
      simp only [hor, List.exists_mem_cons_iff]
      by_cases h : Whitelisted whitelist leaf index reg bit ∨ vb = none ∧ okMissing = true
      · rw [if_pos h, ← not_or]
        simp only [h, not_true_eq_false, false_or]
      · rw [if_neg h, ← not_or]
        simp only [h, not_false_eq_true, true_or, or_true]

/-- The differences of a register are its mismatches. -/
theorem exists_diff_iff {k : Key} {v : Nat} (hv : reference.get? k = some v) {p : Nat → Prop} :
    (∃ d ∈ compareCpuidOutput v (out.get? k), p d.1 ∧ ¬(d.2.2 = none ∧ okMissing = true)) ↔
      ∃ bit < 32, Mismatch okMissing reference out k bit ∧ p bit := by
  constructor
  · rintro ⟨⟨bit, va, vb⟩, hd, hp, hcounts⟩
    obtain ⟨hbit, -, hvb, hne⟩ := mem_compareCpuidOutput.mp hd
    refine ⟨bit, hbit, ⟨v, hv, ?_⟩, hp⟩
    cases hout : out.get? k with
    | none =>
        rw [hout] at hvb
        exact Bool.eq_false_iff.mpr fun hok => hcounts ⟨hvb, hok⟩
    | some w => exact hne w hout
  · rintro ⟨bit, hbit, ⟨v', hv', hmismatch⟩, hp⟩
    cases hv.symm.trans hv'
    refine ⟨(bit, (v.testBit bit).toNat, (out.get? k).map fun w => (w.testBit bit).toNat),
      mem_compareCpuidOutput.mpr ⟨hbit, rfl, rfl, ?_⟩, hp, ?_⟩
    · intro w hout
      rw [hout] at hmismatch
      exact hmismatch
    · rintro ⟨hnone, hok⟩
      rw [Option.map_eq_none_iff.mp hnone] at hmismatch
      exact absurd hok (Bool.eq_false_iff.mp hmismatch)

/-- A difference that counts. -/
def Counts (whitelist : List (List Component)) (okMissing : Bool) (out : CpuidDump)
    (e : Key × Nat) : Prop :=
  ∃ leaf index reg, e.1 = .leafIndexReg leaf index reg ∧
    ∃ d ∈ compareCpuidOutput e.2 (out.get? e.1),
      ¬Whitelisted whitelist leaf index reg d.1 ∧ ¬(d.2.2 = none ∧ okMissing = true)

theorem foldlM_registers (whitelist : List (List Component)) (okMissing : Bool) (out : CpuidDump)
    {es : List (Key × Nat)}
    (hes : ∀ e ∈ es, ∃ leaf index reg, e.1 = .leafIndexReg leaf index reg) (ok : Bool) :
    ∃ ok', es.foldlM (checkEntry whitelist okMissing out) ok = .ok ok' ∧
      (ok' = false ↔ ok = false ∨ ∃ e ∈ es, Counts whitelist okMissing out e) := by
  induction es generalizing ok with
  | nil => exact ⟨ok, rfl, by simp⟩
  | cons e es ih =>
      obtain ⟨⟨leaf, index, reg, hkey⟩, hrest⟩ := List.forall_mem_cons.mp hes
      obtain ⟨k, v⟩ := e
      subst hkey
      obtain ⟨ok', hok', hiff⟩ := ih hrest (checkRegister whitelist okMissing leaf index reg
        (compareCpuidOutput v (out.get? (.leafIndexReg leaf index reg))) ok)
      refine ⟨ok', hok', ?_⟩
      rw [hiff, checkRegister_eq_false_iff, List.exists_mem_cons_iff, or_assoc]
      refine or_congr_right (or_congr_left ?_)
      constructor
      · exact fun h => ⟨leaf, index, reg, rfl, h⟩
      · rintro ⟨leaf', index', reg', hkey, h⟩
        cases hkey
        exact h

/-- The loop over the registers finds what is unexpected. -/
theorem checkDumps_eq (whitelist : List (List Component)) (okMissing : Bool) (out : CpuidDump)
    (hkeys : RegisterKeys reference) :
    ∃ ok, checkDumps whitelist okMissing reference out = .ok ok ∧
      (ok = false ↔ Unexpected (Whitelisted whitelist) okMissing reference out) := by
  obtain ⟨ok, hok, hiff⟩ := foldlM_registers whitelist okMissing out
    (fun e he => hkeys e.1 (List.mem_map_of_mem he)) true
  refine ⟨ok, hok, hiff.trans ?_⟩
  constructor
  · rintro (h | ⟨⟨k, v⟩, he, leaf, index, reg, hkey, hdiff⟩)
    · cases h
    · subst hkey
      obtain ⟨bit, hbit, hmismatch, hlisted⟩ :=
        (exists_diff_iff (p := fun bit => ¬Whitelisted whitelist leaf index reg bit)
          (Dict.get?_eq_some_iff.mpr he)).mp hdiff
      exact ⟨leaf, index, reg, bit, hbit, hmismatch, hlisted⟩
  · rintro ⟨leaf, index, reg, bit, hbit, hmismatch, hlisted⟩
    obtain ⟨v, hv, -⟩ := id hmismatch
    refine .inr ⟨(.leafIndexReg leaf index reg, v), Dict.get?_eq_some_iff.mp hv, leaf, index, reg,
      rfl, ?_⟩
    exact (exists_diff_iff (p := fun bit => ¬Whitelisted whitelist leaf index reg bit) hv).mpr
      ⟨bit, hbit, hmismatch, hlisted⟩

end Comparison

/-! ## The entries -/

/-- What becomes of a field. -/
def component (f : List Char × Nat) : Component :=
  if f.2 = 0 ∨ f.2 = 1 ∨ f.2 = 3 then .number ((Numeral.int0 f.1).getD 0) else .text f.1

theorem ignoredLeaf_eq {entry : List Char} (h : Readable (entry.splitOn ',')) :
    ignoredLeaf entry = .ok ((entry.splitOn ',').zipIdx.map component) := by
  refine mapM_eq_map fun f hf => ?_
  obtain ⟨cs, i⟩ := f
  by_cases hi : i = 0 ∨ i = 1 ∨ i = 3
  · obtain ⟨z, hz⟩ := Option.isSome_iff_exists.mp (h (cs, i) hf hi)
    simp only [component, if_pos hi, hz]
    rfl
  · simp only [component, if_neg hi]

theorem whitelist_eq {text : List Char} (h : ∀ entry ∈ words text, Readable (entry.splitOn ',')) :
    whitelist text =
      .ok ((words text).map fun entry => (entry.splitOn ',').zipIdx.map component) :=
  mapM_eq_map fun entry hentry => ignoredLeaf_eq (h entry hentry)

theorem number_eq_iff {cs : List Char} (h : (Numeral.int0 cs).isSome) (z : Int) :
    Component.number ((Numeral.int0 cs).getD 0) = .number z ↔ Numeral.int0 cs = some z := by
  obtain ⟨w, hw⟩ := Option.isSome_iff_exists.mp h
  rw [hw, Option.getD_some, Component.number.injEq, Option.some.injEq]

/-- The tuple of an entry is one of those that are looked for exactly if the entry names the
bit. -/
theorem tuple_iff {fields : List (List Char)} (h : Readable fields) (leaf index : Nat)
    (reg : String) (bit : Nat) :
    (fields.zipIdx.map component = [.number leaf] ∨
      fields.zipIdx.map component = [.number leaf, .number index] ∨
      fields.zipIdx.map component = [.number leaf, .number index, .text reg.toList] ∨
      fields.zipIdx.map component =
        [.number leaf, .number index, .text reg.toList, .number bit]) ↔
      NamesBit leaf index reg bit fields := by
  match fields, h with
  | [], _ => simp [NamesBit]
  | [a], h =>
      have ha : (Numeral.int0 a).isSome := h (a, 0) (by simp) (.inl rfl)
      simp [NamesBit, component, number_eq_iff ha]
  | [a, b], h =>
      have ha : (Numeral.int0 a).isSome := h (a, 0) (by simp) (.inl rfl)
      have hb : (Numeral.int0 b).isSome := h (b, 1) (by simp) (.inr (.inl rfl))
      simp [NamesBit, component, number_eq_iff ha, number_eq_iff hb]
  | [a, b, r], h =>
      have ha : (Numeral.int0 a).isSome := h (a, 0) (by simp) (.inl rfl)
      have hb : (Numeral.int0 b).isSome := h (b, 1) (by simp) (.inr (.inl rfl))
      simp [NamesBit, component, number_eq_iff ha, number_eq_iff hb]
  | [a, b, r, c], h =>
      have ha : (Numeral.int0 a).isSome := h (a, 0) (by simp) (.inl rfl)
      have hb : (Numeral.int0 b).isSome := h (b, 1) (by simp) (.inr (.inl rfl))
      have hc : (Numeral.int0 c).isSome := h (c, 3) (by simp) (.inr (.inr rfl))
      simp [NamesBit, component, number_eq_iff ha, number_eq_iff hb, number_eq_iff hc]
  | a :: b :: r :: c :: d :: rest, _ => simp [NamesBit]

theorem whitelisted_iff {text : List Char} (h : ∀ entry ∈ words text, Readable (entry.splitOn ','))
    (leaf index : Nat) (reg : String) (bit : Nat) :
    Whitelisted ((words text).map fun entry => (entry.splitOn ',').zipIdx.map component)
      leaf index reg bit ↔ Exempt text leaf index reg bit := by
  simp only [Whitelisted, List.mem_map, Exempt]
  constructor
  · intro hlisted
    obtain ⟨entry, hentry, heq⟩ | ⟨entry, hentry, heq⟩ | ⟨entry, hentry, heq⟩ |
      ⟨entry, hentry, heq⟩ := hlisted
    · exact ⟨entry, hentry, (tuple_iff (h entry hentry) ..).mp (.inl heq)⟩
    · exact ⟨entry, hentry, (tuple_iff (h entry hentry) ..).mp (.inr (.inl heq))⟩
    · exact ⟨entry, hentry, (tuple_iff (h entry hentry) ..).mp (.inr (.inr (.inl heq)))⟩
    · exact ⟨entry, hentry, (tuple_iff (h entry hentry) ..).mp (.inr (.inr (.inr heq)))⟩
  · rintro ⟨entry, hentry, hnames⟩
    obtain heq | heq | heq | heq := (tuple_iff (h entry hentry) ..).mpr hnames
    · exact .inl ⟨entry, hentry, heq⟩
    · exact .inr (.inl ⟨entry, hentry, heq⟩)
    · exact .inr (.inr (.inl ⟨entry, hentry, heq⟩))
    · exact .inr (.inr (.inr ⟨entry, hentry, heq⟩))

/-- The registers have 32 bits. -/
def Registers32 (d : CpuidDump) : Prop := ∀ e ∈ d.entries, e.2 < 2 ^ 32

/-- A number below 2^32 is its 32 bits. -/
theorem eq_of_bits {a b : Nat} (ha : a < 2 ^ 32) (hb : b < 2 ^ 32)
    (h : ∀ bit < 32, a.testBit bit = b.testBit bit) : a = b := by
  apply Nat.eq_of_testBit_eq
  intro bit
  by_cases hbit : bit < 32
  · exact h bit hbit
  · have hpow : 2 ^ 32 ≤ 2 ^ bit := Nat.pow_le_pow_right (by decide) (Nat.le_of_not_lt hbit)
    rw [Nat.testBit_lt_two_pow (Nat.lt_of_lt_of_le ha hpow),
      Nat.testBit_lt_two_pow (Nat.lt_of_lt_of_le hb hpow)]

/-- Without exemptions, every register of the reference has to be there. -/
theorem not_unexpected_iff {exempt : Nat → Nat → String → Nat → Prop} {reference out : CpuidDump}
    (hnone : ∀ leaf index reg bit, ¬exempt leaf index reg bit) (hkeys : RegisterKeys reference)
    (href : Registers32 reference) (hout : Registers32 out) :
    ¬Unexpected exempt false reference out ↔
      ∀ k v, reference.get? k = some v → out.get? k = some v := by
  constructor
  · intro h k v hv
    obtain ⟨leaf, index, reg, rfl⟩ := hkeys k (Dict.mem_keys_iff.mpr ⟨v, hv⟩)
    have hbits : ∀ bit < 32, ¬Mismatch false reference out (.leafIndexReg leaf index reg) bit := by
      intro bit hbit hmismatch
      exact h ⟨leaf, index, reg, bit, hbit, hmismatch, hnone leaf index reg bit⟩
    cases hw : out.get? (.leafIndexReg leaf index reg) with
    | none =>
        refine absurd ⟨v, hv, ?_⟩ (hbits 0 (by decide))
        rw [hw]
    | some w =>
        have heq : v = w := by
          apply eq_of_bits (href _ (Dict.get?_eq_some_iff.mp hv))
            (hout _ (Dict.get?_eq_some_iff.mp hw))
          intro bit hbit
          by_contra hne
          refine hbits bit hbit ⟨v, hv, ?_⟩
          rwa [hw]
        rw [heq]
  · rintro h ⟨leaf, index, reg, bit, -, ⟨v, hv, hmismatch⟩, -⟩
    rw [h _ v hv] at hmismatch
    exact hmismatch rfl

/-- The test gets as far as the comparison of two dumps. -/
structure Compared (env : CheckEnv) (reference out : CpuidDump) : Prop where
  entries : ∀ entry ∈ words env.ignoreCpuidLeaves, Readable (entry.splitOn ',')
  machineType : env.machineType ≠ []
  reference : ∃ text, env.readFile env.refFile = some text ∧ text ≠ [] ∧
    parseCpuidDump text = some reference
  guest : env.started = .dump out

section Compared

variable {env : CheckEnv} {reference out : CpuidDump}

theorem checkCpuidDump_eq (h : Compared env reference out) :
    ∃ ok, (ok = false ↔
        Unexpected (Exempt env.ignoreCpuidLeaves) env.okMissing reference out) ∧
      checkCpuidDump env =
        if ok then .ok () else .error (.fail "Unexpected CPUID data".toList) := by
  obtain ⟨hentries, hmachine, ⟨text, hread, htext, hparse⟩, hguest⟩ := h
  obtain ⟨ok, hok, hiff⟩ := checkDumps_eq
    ((words env.ignoreCpuidLeaves).map fun entry => (entry.splitOn ',').zipIdx.map component)
    env.okMissing out (parseCpuidDump_registerKeys hparse)
  refine ⟨ok, ?_, ?_⟩
  · rw [hiff]
    simp only [Unexpected, whitelisted_iff hentries]
  · rw [checkCpuidDump, whitelist_eq hentries, orStop, bind_of_eq_ok rfl, if_neg hmachine, hread]
    dsimp only
    rw [if_neg htext, hparse]
    dsimp only
    rw [guestDump, hguest, bind_of_eq_ok rfl, hok, orStop, bind_of_eq_ok rfl]
    rfl

/-- The test fails exactly if a bit of the reference that no entry names is missing or different.
Without entries it passes exactly if the reference is contained in the dump. -/
theorem checkCpuidDump_fails_iff (h : Compared env reference out)
    (href : Registers32 reference) (hout : Registers32 out) :
    (checkCpuidDump env = .error (.fail "Unexpected CPUID data".toList) ↔
      Unexpected (Exempt env.ignoreCpuidLeaves) env.okMissing reference out) ∧
    (checkCpuidDump env = .ok () ↔
      ¬Unexpected (Exempt env.ignoreCpuidLeaves) env.okMissing reference out) ∧
    (words env.ignoreCpuidLeaves = [] → env.okMissing = false →
      (checkCpuidDump env = .ok () ↔
        ∀ k v, reference.get? k = some v → out.get? k = some v)) := by
  obtain ⟨ok, hiff, heq⟩ := checkCpuidDump_eq h
  have hpass : checkCpuidDump env = .ok () ↔
      ¬Unexpected (Exempt env.ignoreCpuidLeaves) env.okMissing reference out := by
    rw [heq, ← hiff]
    cases ok <;> simp
  refine ⟨?_, hpass, ?_⟩
  · rw [heq, ← hiff]
    cases ok <;> simp
  · intro hnone hok
    obtain ⟨text, -, -, hparse⟩ := h.reference
    rw [hpass, hok]
    refine not_unexpected_iff ?_ (parseCpuidDump_registerKeys hparse) href hout
    rintro leaf index reg bit ⟨entry, hentry, -⟩
    rw [hnone] at hentry
    cases hentry

end Compared

/-- A dump with one leaf. -/
def smallDump : List Char :=
  "==START TEST==\nCPU:\n 0x1 0x0: eax=0x6fb ebx=0x800 ecx=0x1 edx=0x2\n==END TEST==".toList

/-- Leaf 1 with the registers of `smallDump`. -/
def smallReference : CpuidDump :=
  ((((∅ : CpuidDump).set (.leafIndexReg 1 0 "eax") 0x6fb).set (.leafIndexReg 1 0 "ebx") 0x800).set
    (.leafIndexReg 1 0 "ecx") 0x1).set (.leafIndexReg 1 0 "edx") 0x2

theorem parse_smallDump : parseCpuidDump smallDump = some smallReference := by rfl

/-- A guest that has `eax` only, with a bit of it changed that is exempt. -/
def smallEnv : CheckEnv where
  param
    | "machine_type_to_check" => some "pc".toList
    | "ignore_cpuid_leaves" => some "0x1,0,eax,4 2".toList
    | _ => none
  depsDir := "/deps".toList
  readFile _ := some smallDump
  guest _ _ _ _ := .dump ((∅ : CpuidDump).set (.leafIndexReg 1 0 "eax") 0x6eb)

/-- The missing registers make the test fail. -/
theorem checkCpuidDump_smallEnv :
    checkCpuidDump smallEnv = .error (.fail "Unexpected CPUID data".toList) := by
  have hcompared : Compared smallEnv smallReference
      ((∅ : CpuidDump).set (.leafIndexReg 1 0 "eax") 0x6eb) := by
    refine ⟨?_, by decide, ⟨smallDump, rfl, by decide, parse_smallDump⟩, rfl⟩
    unfold Readable
    decide
  have href : Registers32 smallReference := by
    unfold Registers32
    decide
  have hout : Registers32 ((∅ : CpuidDump).set (.leafIndexReg 1 0 "eax") 0x6eb) := by
    unfold Registers32
    decide
  refine (checkCpuidDump_fails_iff hcompared href hout).1.mpr ?_
  refine ⟨1, 0, "ebx", 0, by decide, ⟨0x800, by decide, ?_⟩, ?_⟩
  · show smallEnv.okMissing = false
    decide
  · have hentries : words smallEnv.ignoreCpuidLeaves = ["0x1,0,eax,4".toList, "2".toList] := by
      decide
    have hfields : "0x1,0,eax,4".toList.splitOn ',' =
        ["0x1".toList, "0".toList, "eax".toList, "4".toList] := by decide
    have hfield : "2".toList.splitOn ',' = ["2".toList] := by decide
    rintro ⟨entry, hentry, hnames⟩
    rw [hentries, List.mem_cons, List.mem_singleton] at hentry
    obtain rfl | rfl := hentry
    · rw [hfields] at hnames
      exact absurd hnames.2.2.1 (by decide)
    · rw [hfield] at hnames
      exact absurd hnames (by unfold NamesBit; decide)

end TpQemu.Cpuid

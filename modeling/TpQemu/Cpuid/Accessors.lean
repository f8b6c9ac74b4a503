import Mathlib.Data.List.DropRight
import Mathlib.Data.Nat.Bitwise
import TpQemu.Cpuid.Dump
import TpQemu.Lib.Python

/-!
# Reading a CPUID dump

The accessors of `qemu/tests/cpuid.py` other than `cpuid_to_vendor` subscript a dump
twice, first with the pair of leaf and subleaf and then with a register name. The
parser stores numbers under triples. An accessor only ever subscripts the dump it
is given, so it is modelled over the dump's subscript function.

The accessors compute the documented values from a table nested the way they
expect (`run_nested`), but on every dump the parser accepts they leave with
`KeyError`. The callers run them under a bare `except` that re-raises only when
the test is not marked `xfail`; such a test passes whatever the dump holds.
-/

namespace TpQemu.Cpuid

/-- What a subscript of a dump can yield: a number, or a row of registers. -/
inductive Value where
  | int (n : Nat)
  | row (reg : String → Option Nat)

/-- `value[name]`: an integer cannot be subscripted. -/
def Value.subscript : Value → String → Except PyError Nat
  | .int _, _ => .error .typeError
  | .row reg, name => orRaise .keyError (reg name)

/-- The subscript function of a table. -/
abbrev GetItem := Key → Except PyError Value

/-- Subscripting a parsed dump. -/
def CpuidDump.getItem (d : CpuidDump) : GetItem := fun k => orRaise .keyError ((d.get? k).map .int)

/-! ## The accessors -/

/-- `cpuid_to_level(cpuid_dump)`. -/
def cpuidToLevel (dump : GetItem) : Except PyError Nat := do
  let r ← dump (.leafIndex 0 0)
  r.subscript "eax"

/-- `cpuid_to_family(cpuid_dump)`. -/
def cpuidToFamily (dump : GetItem) : Except PyError Nat := do
  let eax ← (← dump (.leafIndex 1 0)).subscript "eax"
  let family := (eax >>> 8) &&& 0xF
  if family = 0xF then
    return family + ((eax >>> 20) &&& 0xFF)
  return family

/-- `cpuid_to_model(cpuid_dump)`. -/
def cpuidToModel (dump : GetItem) : Except PyError Nat := do
  let eax ← (← dump (.leafIndex 1 0)).subscript "eax"
  return ((eax >>> 4) &&& 0xF) ||| ((eax >>> 12) &&& 0xF0)

/-- `cpuid_to_stepping(cpuid_dump)`. -/
def cpuidToStepping (dump : GetItem) : Except PyError Nat := do
  let eax ← (← dump (.leafIndex 1 0)).subscript "eax"
  return eax &&& 0xF

/-- `cpuid_to_xlevel(cpuid_dump)`. -/
def cpuidToXlevel (dump : GetItem) : Except PyError Nat := do
  (← dump (.leafIndex 0x80000000 0)).subscript "eax"

/-- The byte of a register at a shift of whole bytes. -/
def byteAt (value shift : Nat) : Nat := (value >>> (shift * 8)) &&& 0xFF

/-- The innermost loop of `cpuid_to_model_id`; a zero byte leaves it. -/
def appendName (regs : Value) (name : String) : List Nat → List Char → Except PyError (List Char)
  | [], mId => pure mId
  | shift :: shifts, mId => do
      let c := byteAt (← regs.subscript name) shift
      if c = 0 then pure mId else appendName regs name shifts (mId ++ [Char.ofNat c])

/-- `cpuid_to_model_id(cpuid_dump)`. -/
def cpuidToModelId (dump : GetItem) : Except PyError (List Char) :=
  [0x80000002, 0x80000003, 0x80000004].foldlM (fun mId idx => do
    let regs ← dump (.leafIndex idx 0)
    ["eax", "ebx", "ecx", "edx"].foldlM (fun mId name => appendName regs name [0, 1, 2, 3] mId)
      mId) []

/-- `isprintable(c)`: membership in `string.printable`. -/
def isprintable (c : Char) : Bool :=
  (9 ≤ c.toNat && c.toNat ≤ 13) || (32 ≤ c.toNat && c.toNat ≤ 126)

/-- A byte as `cpuid_regs_to_string` shows it: itself, or `\xhh`. -/
def showByte (n : Nat) : List Char :=
  if isprintable (Char.ofNat n) then [Char.ofNat n]
  else ['\\', 'x', Nat.digitChar (n / 16), Nat.digitChar (n % 16)]

/-- `cpuid_regs_to_string(cpuid_dump, leaf, idx, regs)`. -/
def cpuidRegsToString (dump : GetItem) (leaf idx : Nat) (regs : List String) :
    Except PyError (List Char) := do
  let r ← dump (.leafIndex leaf idx)
  regs.foldlM (fun signature i =>
    [0, 1, 2, 3].foldlM (fun signature shift => do
      let value ← r.subscript i
      return signature ++ showByte (byteAt value shift)) signature) []

/-- The lookup `out[leaf, idx][reg]` of `cpuid_bit_test` and `cpuid_reg_test`. -/
def registerValue (dump : GetItem) (leaf idx : Nat) (reg : String) : Except PyError Nat := do
  (← dump (.leafIndex leaf idx)).subscript reg

/-! ## The calls and what they should return -/

/-- A call of one of the accessors. -/
inductive Accessor where
  | level
  | family
  | model
  | stepping
  | xlevel
  | modelId
  | regsToString (leaf idx : Nat) (regs : List String)
  | register (leaf idx : Nat) (reg : String)

/-- The result of an accessor. -/
inductive Answer where
  | number (n : Nat)
  | text (cs : List Char)
  deriving DecidableEq

/-- `str` of a number, and a text as it is. -/
def Answer.str : Answer → List Char
  | .number n => Nat.toDigits 10 n
  | .text cs => cs

def Accessor.run (dump : GetItem) : Accessor → Except PyError Answer
  | .level => .number <$> cpuidToLevel dump
  | .family => .number <$> cpuidToFamily dump
  | .model => .number <$> cpuidToModel dump
  | .stepping => .number <$> cpuidToStepping dump
  | .xlevel => .number <$> cpuidToXlevel dump
  | .modelId => .text <$> cpuidToModelId dump
  | .regsToString leaf idx regs => .text <$> cpuidRegsToString dump leaf idx regs
  | .register leaf idx reg => .number <$> registerValue dump leaf idx reg

/-- The leaf, subleaf and registers a call reads. -/
def Accessor.reads : Accessor → List Key
  | .level => [.leafIndexReg 0 0 "eax"]
  | .family | .model | .stepping => [.leafIndexReg 1 0 "eax"]
  | .xlevel => [.leafIndexReg 0x80000000 0 "eax"]
  | .modelId => [0x80000002, 0x80000003, 0x80000004].flatMap fun leaf =>
      ["eax", "ebx", "ecx", "edx"].map fun reg => .leafIndexReg leaf 0 reg
  | .regsToString leaf idx regs => regs.map (.leafIndexReg leaf idx)
  | .register leaf idx reg => [.leafIndexReg leaf idx reg]

/-- The dump has the registers a call reads. -/
def Accessor.Present (d : CpuidDump) (a : Accessor) : Prop := ∀ k ∈ a.reads, k ∈ d.keys

/-- The number a dump holds for a register. -/
def held (d : CpuidDump) (leaf idx : Nat) (reg : String) : Nat :=
  (d.get? (.leafIndexReg leaf idx reg)).getD 0

/-- The four bytes of a register, least significant byte first. -/
def littleEndian (value : Nat) : List Nat :=
  [value % 256, value / 256 % 256, value / 65536 % 256, value / 16777216 % 256]

/-- The twelve registers of the brand string, in the order of their bytes. -/
def brandRegisters (d : CpuidDump) : List Nat :=
  [0x80000002, 0x80000003, 0x80000004].flatMap fun leaf =>
    ["eax", "ebx", "ecx", "edx"].map fun reg => held d leaf 0 reg

/-- What a call is documented to return, in terms of the registers of the dump. -/
def Accessor.expected (d : CpuidDump) : Accessor → Answer
  | .level => .number (held d 0 0 "eax")
  | .family =>
      let eax := held d 1 0 "eax"
      let base := eax / 256 % 16
      .number (if base = 15 then base + eax / 1048576 % 256 else base)
  | .model =>
      let eax := held d 1 0 "eax"
      .number (eax / 65536 % 16 * 16 + eax / 16 % 16)
  | .stepping => .number (held d 1 0 "eax" % 16)
  | .xlevel => .number (held d 0x80000000 0 "eax")
  | .modelId => .text (((brandRegisters d).flatMap littleEndian |>.rdropWhile (· = 0)).map Char.ofNat)
  | .regsToString leaf idx regs =>
      .text (regs.flatMap fun reg => (littleEndian (held d leaf idx reg)).flatMap showByte)
  | .register leaf idx reg => .number (held d leaf idx reg)

/-! ## Parsed dumps -/

theorem getItem_leafIndex {d : CpuidDump} (h : RegisterKeys d) (leaf idx : Nat) :
    d.getItem (.leafIndex leaf idx) = .error .keyError := by
  have habsent : d.get? (.leafIndex leaf idx) = none := by
    rw [Dict.get?_eq_none_iff]
    intro hmem
    obtain ⟨_, _, _, hk⟩ := h _ hmem
    cases hk
  rw [CpuidDump.getItem, habsent]
  rfl

/-- On a dump with register keys only, the first subscript of every call raises. -/
theorem run_registerKeys {d : CpuidDump} (h : RegisterKeys d) (a : Accessor) :
    a.run d.getItem = .error .keyError := by
  have hfirst := getItem_leafIndex h
  cases a with
  | level => rw [Accessor.run, cpuidToLevel, hfirst]; rfl
  | family => rw [Accessor.run, cpuidToFamily, hfirst]; rfl
  | model => rw [Accessor.run, cpuidToModel, hfirst]; rfl
  | stepping => rw [Accessor.run, cpuidToStepping, hfirst]; rfl
  | xlevel => rw [Accessor.run, cpuidToXlevel, hfirst]; rfl
  | modelId => rw [Accessor.run, cpuidToModelId, List.foldlM_cons, hfirst]; rfl
  | regsToString leaf idx regs => rw [Accessor.run, cpuidRegsToString, hfirst]; rfl
  | register leaf idx reg => rw [Accessor.run, registerValue, hfirst]; rfl

/-- No call returns on a dump the parser accepted, whatever registers it has. -/
theorem accessor_raises_on_accepted (output : List Char) (d : CpuidDump)
    (accepted : parseCpuidDump output = some d) (a : Accessor) (_present : a.Present d) :
    a.run d.getItem = .error .keyError ∧ a.run d.getItem ≠ .ok (a.expected d) := by
  have hraise := run_registerKeys (parseCpuidDump_registerKeys accepted) a
  refine ⟨hraise, ?_⟩
  rw [hraise]
  intro h
  cases h

/-- The dump of a processor that reports level 13 and nothing else. -/
def levelOutput : List Char :=
  ("==START TEST==\nCPU:\n" ++
    "   0x00000000 0x00: eax=0x0000000d ebx=0x00000000 ecx=0x00000000 edx=0x00000000\n" ++
    "==END TEST==\n").toList

def levelDump : CpuidDump :=
  storeLine ∅ ⟨"0x00000000".toList, "00".toList, "0000000d".toList, "00000000".toList,
    "00000000".toList, "00000000".toList⟩

theorem levelOutput_accepted : parseCpuidDump levelOutput = some levelDump := by rfl

theorem accessor_raises_on_level_output :
    Accessor.level.Present levelDump ∧ Accessor.level.run levelDump.getItem = .error .keyError ∧
      Accessor.level.run levelDump.getItem ≠ .ok (Accessor.level.expected levelDump) :=
  have present : Accessor.level.Present levelDump := by unfold Accessor.Present; decide
  ⟨present, accessor_raises_on_accepted levelOutput levelDump levelOutput_accepted .level present⟩

/-- A dump with leaf 0, from which `cpuid_to_level` should return 13. -/
theorem level_output_not_read :
    ¬∀ (output : List Char) (d : CpuidDump), parseCpuidDump output = some d →
      ∀ a : Accessor, a.Present d → a.run d.getItem = .ok (a.expected d) := by
  intro h
  have present : Accessor.level.Present levelDump := by unfold Accessor.Present; decide
  have hlevel := h levelOutput levelDump levelOutput_accepted .level present
  rw [run_registerKeys (parseCpuidDump_registerKeys levelOutput_accepted)] at hlevel
  cases hlevel

/-! ## The tests that use the accessors -/

/-- The body of a test under its bare `except`: a failure is re-raised unless the test
is marked `xfail`, and a test so marked has to fail. -/
def expectFailure (xfail : Bool) (body : Except PyError Unit) : Except PyError Unit :=
  match body with
  | .error e => if xfail then pure () else .error e
  | .ok () =>
      if xfail then .error (.testFail "Test was expected to fail, but it didn't") else pure ()

/-- The failure message of the `custom_*` tests. -/
def mismatch (what : String) (guest required : List Char) : String :=
  "Guest's " ++ what ++ " [" ++ String.ofList guest ++ "], doesn't match required " ++ what ++
    " [" ++ String.ofList required ++ "]"

/-- The shared body of the `custom_*` tests and `cpuid_signature` once the dump is there:
the answer, shown as text, is compared with the required text. -/
def checkText (xfail : Bool) (dump : GetItem) (a : Accessor)
    (message : List Char → List Char → String) (required : List Char) : Except PyError Unit :=
  expectFailure xfail do
    let answer ← a.run dump
    if answer.str ≠ required then throw (.testFail (message answer.str required))

def customLevel (xfail : Bool) (dump : GetItem) (level : List Char) : Except PyError Unit :=
  checkText xfail dump .level (mismatch "level") level

def customFamily (xfail : Bool) (dump : GetItem) (family : List Char) : Except PyError Unit :=
  checkText xfail dump .family (mismatch "family") family

def customModel (xfail : Bool) (dump : GetItem) (model : List Char) : Except PyError Unit :=
  checkText xfail dump .model (mismatch "model") model

def customStepping (xfail : Bool) (dump : GetItem) (stepping : List Char) :
    Except PyError Unit :=
  checkText xfail dump .stepping (mismatch "stepping") stepping

def customXlevel (xfail : Bool) (dump : GetItem) (xlevel : List Char) : Except PyError Unit :=
  checkText xfail dump .xlevel (mismatch "xlevel") xlevel

def customModelId (xfail : Bool) (dump : GetItem) (modelId : List Char) : Except PyError Unit :=
  checkText xfail dump .modelId (mismatch "model_id") modelId

/-- The message of this test lacks the blank between its two halves. -/
def cpuidSignature (xfail : Bool) (dump : GetItem) (leaf idx : Nat) (regs : List String)
    (signature : List Char) : Except PyError Unit :=
  checkText xfail dump (.regsToString leaf idx regs) (fun guest required =>
    "Guest's signature [" ++ String.ofList guest ++ "], doesn'tmatch required signature [" ++
      String.ofList required ++ "]") signature

/-- `CPUID(leaf.idx).reg`. -/
def registerName (leaf idx : Nat) (reg : String) : String :=
  "CPUID(" ++ toString leaf ++ "." ++ toString idx ++ ")." ++ reg

/-- `%08x`. -/
def hex8 (n : Nat) : String :=
  let digits := Nat.toDigits 16 n
  String.ofList (List.replicate (8 - digits.length) '0' ++ digits)

/-- `cpuid_reg_test` once the dump is there. -/
def cpuidRegTest (xfail : Bool) (dump : GetItem) (leaf idx : Nat) (reg : String) (val : Nat) :
    Except PyError Unit :=
  expectFailure xfail do
    if (← registerValue dump leaf idx reg) ≠ val then
      throw (.testFail (registerName leaf idx reg ++ " is not 0x" ++ hex8 val))

/-- `cpuid_bit_test` once the dump is there; `int` is the built-in applied to a word. -/
def cpuidBitTest (int : String → Except PyError Nat) (xfail : Bool) (dump : GetItem)
    (leaf idx : Nat) (reg : String) (bits : List String) : Except PyError Unit :=
  expectFailure xfail do
    let r ← registerValue dump leaf idx reg
    bits.forM fun i => do
      if r &&& (1 <<< (← int i)) = 0 then
        throw (.testFail (registerName leaf idx reg ++ "[" ++ i ++ "] is not set"))

theorem expectFailure_error (xfail : Bool) (e : PyError) :
    expectFailure xfail (.error e) = if xfail then .ok () else .error e := rfl

/-- Over a parsed dump the verdict of a test does not depend on what the dump holds. -/
theorem checkText_accepted {output : List Char} {d : CpuidDump}
    (accepted : parseCpuidDump output = some d) (xfail : Bool) (a : Accessor)
    (message : List Char → List Char → String) (required : List Char) :
    checkText xfail d.getItem a message required = if xfail then .ok () else .error .keyError := by
  rw [checkText, run_registerKeys (parseCpuidDump_registerKeys accepted)]
  exact expectFailure_error xfail .keyError

theorem cpuidRegTest_accepted {output : List Char} {d : CpuidDump}
    (accepted : parseCpuidDump output = some d) (xfail : Bool) (leaf idx : Nat) (reg : String)
    (val : Nat) :
    cpuidRegTest xfail d.getItem leaf idx reg val =
      if xfail then .ok () else .error .keyError := by
  rw [cpuidRegTest, registerValue, getItem_leafIndex (parseCpuidDump_registerKeys accepted)]
  exact expectFailure_error xfail .keyError

theorem cpuidBitTest_accepted {output : List Char} {d : CpuidDump}
    (accepted : parseCpuidDump output = some d) (int : String → Except PyError Nat)
    (xfail : Bool) (leaf idx : Nat) (reg : String) (bits : List String) :
    cpuidBitTest int xfail d.getItem leaf idx reg bits =
      if xfail then .ok () else .error .keyError := by
  rw [cpuidBitTest, registerValue, getItem_leafIndex (parseCpuidDump_registerKeys accepted)]
  exact expectFailure_error xfail .keyError

/-! ## Nested tables -/

/-- The table the accessors expect: a row of registers for each leaf and subleaf. -/
def nested (d : CpuidDump) : GetItem
  | .leafIndex leaf idx => .ok (.row fun reg => d.get? (.leafIndexReg leaf idx reg))
  | .leafIndexReg _ _ _ => .error .keyError

theorem subscript_nested {d : CpuidDump} {leaf idx : Nat} {reg : String}
    (h : .leafIndexReg leaf idx reg ∈ d.keys) :
    (Value.row fun reg => d.get? (.leafIndexReg leaf idx reg)).subscript reg =
      .ok (held d leaf idx reg) := by
  obtain ⟨v, hv⟩ := Dict.mem_keys_iff.mp h
  simp only [Value.subscript, held, hv, orRaise_some, Option.getD_some]

theorem registerValue_nested {d : CpuidDump} {leaf idx : Nat} {reg : String}
    (h : .leafIndexReg leaf idx reg ∈ d.keys) :
    registerValue (nested d) leaf idx reg = .ok (held d leaf idx reg) := subscript_nested h

theorem byteAt_eq (value shift : Nat) : byteAt value shift = value / 2 ^ (shift * 8) % 256 := by
  rw [byteAt, Nat.shiftRight_eq_div_pow]
  exact Nat.and_two_pow_sub_one_eq_mod _ 8

theorem map_byteAt (value : Nat) : [0, 1, 2, 3].map (byteAt value) = littleEndian value := by
  simp [byteAt_eq, littleEndian]

/-- The extended model is the nibble at bit 16, moved up by four. -/
theorem extendedModel_eq (eax : Nat) :
    (eax >>> 12) &&& 0xF0 = 2 ^ 4 * (eax / 65536 % 16) := by
  have hmask : (eax >>> 12) &&& 0xF0 = ((eax >>> 16) &&& 0xF) <<< 4 := by
    apply Nat.eq_of_testBit_eq
    intro i
    have hF0 : (0xF0 : Nat) = 0xF <<< 4 := rfl
    rw [hF0, Nat.testBit_and, Nat.testBit_shiftRight, Nat.testBit_shiftLeft, Nat.testBit_shiftLeft,
      Nat.testBit_and, Nat.testBit_shiftRight]
    by_cases hi : i ≥ 4
    · have hindex : 16 + (i - 4) = 12 + i := by omega
      simp [hi, hindex]
    · simp [hi]
  rw [hmask, Nat.shiftLeft_eq, Nat.mul_comm, Nat.shiftRight_eq_div_pow,
    Nat.and_two_pow_sub_one_eq_mod _ 4]

/-- The two nibbles of the model number do not overlap. -/
theorem model_eq (eax : Nat) : ((eax >>> 4) &&& 0xF) ||| ((eax >>> 12) &&& 0xF0) =
    eax / 65536 % 16 * 16 + eax / 16 % 16 := by
  have hbase : (eax >>> 4) &&& 0xF = eax / 16 % 16 := by
    rw [Nat.shiftRight_eq_div_pow, Nat.and_two_pow_sub_one_eq_mod _ 4]
  have hlt : eax / 16 % 16 < 2 ^ 4 := Nat.mod_lt _ (by decide)
  rw [extendedModel_eq, hbase, Nat.or_comm, ← Nat.two_pow_add_eq_or_of_lt hlt]
  omega

theorem family_eq (eax : Nat) : (eax >>> 8) &&& 0xF = eax / 256 % 16 := by
  rw [Nat.shiftRight_eq_div_pow, Nat.and_two_pow_sub_one_eq_mod _ 4]

theorem extendedFamily_eq (eax : Nat) : (eax >>> 20) &&& 0xFF = eax / 1048576 % 256 := by
  rw [Nat.shiftRight_eq_div_pow, Nat.and_two_pow_sub_one_eq_mod _ 8]

/-- The loop over the bytes of a register stops at the first zero byte. -/
theorem appendName_nested {d : CpuidDump} {leaf idx : Nat} {reg : String}
    (h : .leafIndexReg leaf idx reg ∈ d.keys) (shifts : List Nat) (mId : List Char) :
    appendName (.row fun reg => d.get? (.leafIndexReg leaf idx reg)) reg shifts mId =
      .ok (mId ++ ((shifts.map (byteAt (held d leaf idx reg))).takeWhile (· ≠ 0)).map
        Char.ofNat) := by
  induction shifts generalizing mId with
  | nil => simp [appendName, pure, Except.pure]
  | cons shift shifts ih =>
      rw [appendName, subscript_nested h]
      by_cases hzero : byteAt (held d leaf idx reg) shift = 0
      · simp [hzero, bind, Except.bind, pure, Except.pure]
      · simp [hzero, bind, Except.bind, ih]

/-- The brand string is padded with zero bytes at its end only. -/
def BrandPadded (d : CpuidDump) : Prop :=
  ∃ text n, (brandRegisters d).flatMap littleEndian = text ++ List.replicate n 0 ∧ 0 ∉ text

theorem takeWhile_ne_zero {text : List Nat} (h : 0 ∉ text) (n : Nat) :
    (text ++ List.replicate n 0).takeWhile (· ≠ 0) = text := by
  have hall : ∀ b ∈ text, decide (b ≠ 0) = true := fun b hb => by
    rw [decide_eq_true_eq]
    rintro rfl
    exact h hb
  rw [List.takeWhile_append_of_pos hall]
  cases n with
  | zero => simp
  | succ n => simp [List.replicate_succ]

/-- Stopping at the first zero of each chunk loses nothing when the zeros are all at
the end. -/
theorem flatMap_takeWhile_of_padded {chunks : List (List Nat)} {text : List Nat} {n : Nat}
    (h : chunks.flatten = text ++ List.replicate n 0) (hne : 0 ∉ text) :
    chunks.flatMap (List.takeWhile (· ≠ 0)) = text := by
  induction chunks generalizing text n with
  | nil => exact ((List.append_eq_nil_iff.mp h.symm).1).symm
  | cons c chunks ih =>
      rw [List.flatten_cons] at h
      rw [List.flatMap_cons]
      obtain ⟨rest, rfl, hrest⟩ | ⟨zeros, rfl, hzeros⟩ := List.append_eq_append_iff.mp h
      · have hc : 0 ∉ c := fun hmem => hne (List.mem_append_left _ hmem)
        have hc' : c.takeWhile (· ≠ 0) = c := by simpa using takeWhile_ne_zero hc 0
        rw [hc', ih hrest fun hmem => hne (List.mem_append_right _ hmem)]
      · obtain ⟨hlen, hz, hr⟩ := List.replicate_eq_append_iff.mp hzeros
        have htail : chunks.flatMap (List.takeWhile (· ≠ 0)) = [] :=
          ih (by rw [List.nil_append]; exact hr) (List.not_mem_nil)
        rw [hz, takeWhile_ne_zero hne, htail, List.append_nil]

theorem rdropWhile_padded {text : List Nat} (h : 0 ∉ text) (n : Nat) :
    (text ++ List.replicate n 0).rdropWhile (· = 0) = text := by
  induction n with
  | zero =>
      rw [List.replicate_zero, List.append_nil]
      obtain rfl | hne := eq_or_ne text []
      · rfl
      · refine List.rdropWhile_eq_self_iff.mpr fun hne => ?_
        rw [decide_eq_true_eq]
        intro hlast
        exact h (hlast ▸ List.getLast_mem hne)
  | succ n ih =>
      rw [List.replicate_succ', ← List.append_assoc, List.rdropWhile_concat_pos]
      · exact ih
      · rfl

theorem modelId_nested {d : CpuidDump} (h : Accessor.modelId.Present d) :
    cpuidToModelId (nested d) = .ok ((((brandRegisters d).map littleEndian).flatMap
      (List.takeWhile (· ≠ 0))).map Char.ofNat) := by
  have hname (leaf : Nat) (hleaf : leaf ∈ [0x80000002, 0x80000003, 0x80000004]) (reg : String)
      (hreg : reg ∈ ["eax", "ebx", "ecx", "edx"]) (mId : List Char) :
      appendName (.row fun reg => d.get? (.leafIndexReg leaf 0 reg)) reg [0, 1, 2, 3] mId =
        .ok (mId ++ ((littleEndian (held d leaf 0 reg)).takeWhile (· ≠ 0)).map Char.ofNat) := by
    rw [appendName_nested (h _ (List.mem_flatMap.mpr ⟨leaf, hleaf, List.mem_map.mpr
      ⟨reg, hreg, rfl⟩⟩)), map_byteAt]
  refine (foldlM_append (fun leaf hleaf mId => foldlM_append (hname leaf hleaf) mId) []).trans ?_
  rw [List.nil_append]
  simp only [brandRegisters, List.flatMap_cons, List.flatMap_nil, List.map_cons, List.map_nil,
    List.map_append, List.append_nil, List.append_assoc, List.cons_append, List.nil_append]

/-- Over a nested table every call returns the documented answer; the brand string, if
it has no zero byte before its end. -/
theorem run_nested {d : CpuidDump} (a : Accessor) (present : a.Present d)
    (padded : a = .modelId → BrandPadded d) : a.run (nested d) = .ok (a.expected d) := by
  have held' {leaf idx : Nat} {reg : String} (hk : .leafIndexReg leaf idx reg ∈ a.reads) :=
    registerValue_nested (present _ hk)
  cases a with
  | level => exact congrArg (Answer.number <$> ·) (held' (by simp [Accessor.reads]))
  | family =>
      refine (congrArg (Answer.number <$> ·)
        (bind_of_eq_ok (held' (by simp [Accessor.reads])) _)).trans ?_
      rw [family_eq, extendedFamily_eq]
      by_cases hbase : held d 1 0 "eax" / 256 % 16 = 15
      · simp only [Accessor.expected, hbase, if_true]
        rfl
      · simp only [Accessor.expected, hbase, if_false]
        rfl
  | model =>
      refine (congrArg (Answer.number <$> ·)
        (bind_of_eq_ok (held' (by simp [Accessor.reads])) _)).trans ?_
      rw [model_eq]
      rfl
  | stepping =>
      refine (congrArg (Answer.number <$> ·)
        (bind_of_eq_ok (held' (by simp [Accessor.reads])) _)).trans ?_
      rw [Nat.and_two_pow_sub_one_eq_mod _ 4]
      rfl
  | xlevel => exact congrArg (Answer.number <$> ·) (held' (by simp [Accessor.reads]))
  | modelId =>
      obtain ⟨text, n, hbytes, hne⟩ := padded rfl
      rw [List.flatMap_def] at hbytes
      rw [Accessor.run, modelId_nested present, flatMap_takeWhile_of_padded hbytes hne,
        Accessor.expected, List.flatMap_def, hbytes, rdropWhile_padded hne]
      rfl
  | regsToString leaf idx regs =>
      refine (congrArg (Answer.text <$> ·) (foldlM_append (fun reg hreg signature =>
        foldlM_append (fun shift _ acc => bind_of_eq_ok (held' (List.mem_map.mpr
          ⟨reg, hreg, rfl⟩)) _) signature) [])).trans ?_
      simp only [Accessor.expected, ← map_byteAt, List.flatMap_map]
      rfl
  | register leaf idx reg => exact congrArg (Answer.number <$> ·) (held' (by simp [Accessor.reads]))

end TpQemu.Cpuid

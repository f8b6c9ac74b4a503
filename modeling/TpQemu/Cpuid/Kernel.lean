import Mathlib.Data.List.Basic
import TpQemu.Lib.CString
import TpQemu.Lib.Numeral

/-!
# The CPUID dump kernel

The freestanding test kernel (`deps/cpuid/src/main.c`, `deps/cpuid/src/test.c`)
executes CPUID for a fixed table of leaves and writes one line per leaf to the
serial port through its own `printf` and `itoa`. Words are 32 bits wide, also
`unsigned long`. The processor is an oracle from a leaf and a subleaf to the four
result registers.

`none` is undefined behaviour: a store outside of a buffer, a missing argument or
a format that ends inside of a conversion. The serial port itself is a plain
output stream; its initialisation and the busy wait are not modelled.
-/

namespace TpQemu.Cpuid

open CString

/-- The result registers of one CPUID execution. -/
structure Regs where
  eax : BitVec 32
  ebx : BitVec 32
  ecx : BitVec 32
  edx : BitVec 32
  deriving DecidableEq

/-- The processor: leaf and subleaf to result registers. -/
abbrev Oracle := BitVec 32 → BitVec 32 → Regs

/-- One slot of the variadic argument area. -/
inductive Arg where
  | int (d : BitVec 32)
  | str (p : Option (List Char))

/-! ## `itoa` -/

/-- `(remainder < 10) ? remainder + '0' : remainder + 'a' - 10`. -/
def remainderChar (remainder : Nat) : Char :=
  if remainder < 10 then Char.ofNat (remainder + '0'.toNat)
  else Char.ofNat (remainder + 'a'.toNat - 10)

/-- The `do … while (ud /= divisor)` loop, which writes the digits from the least
significant one on. `ud + 1` rounds always suffice. -/
def itoaLoop (divisor : Nat) : Nat → Nat → Nat → List Char → Option (Nat × List Char)
  | 0, _, _, _ => none
  | rounds + 1, ud, p, buf => do
      let buf ← store buf p (remainderChar (ud % divisor))
      if ud / divisor = 0 then pure (p + 1, buf)
      else itoaLoop divisor rounds (ud / divisor) (p + 1) buf

/-- `itoa(buf, base, d)`: the buffer afterwards. The sign of a negative `%d`
operand is written in front of the digits and is not part of the reversal. -/
def itoa (buf : List Char) (base : Char) (d : BitVec 32) : Option (List Char) := do
  let negative := base = 'd' ∧ d.toInt < 0
  let buf ← if negative then store buf 0 '-' else pure buf
  let first := if negative then 1 else 0
  let ud := if negative then (-d).toNat else d.toNat
  let divisor := if base = 'x' then 16 else 10
  let (p, buf) ← itoaLoop divisor (ud + 1) ud first buf
  let buf ← store buf p nul
  reverseLoop buf.length buf first (p - 1)

/-! ## `printf` -/

/-- `sizeof(buf)` in `printf`. -/
def bufSize : Nat := 20

/-- The flags and the width collected since the last `%`. The digits of the width
itself sit in the first `width` positions of the buffer. -/
structure Conversion where
  zeroPad : Bool
  width : Nat

/-- The width read back from the digits in the buffer, up to the first character
that is not a digit. -/
def readWidth : Nat → List Char → Nat
  | tmp, [] => tmp
  | tmp, c :: cs =>
      if '0' ≤ c ∧ c ≤ '9' then readWidth (tmp * 10 + (c.toNat - '0'.toNat)) cs else tmp

/-- The `d`, `u` and `x` conversions: the buffer that is then printed. The padded
text is built in a second array of the same size and copied back. -/
def formatInt (buf : List Char) (conv : Conversion) (base : Char) (d : BitVec 32) :
    Option (List Char) := do
  let width := readWidth 0 (buf.take conv.width)
  let buf ← itoa buf base d
  let digits ← cstr buf
  if digits.length < width then
    let padChar := if conv.zeroPad then '0' else ' '
    storeAll buf 0 (List.replicate (width - digits.length) padChar ++ digits ++ [nul])
  else pure buf

/-- `printf` on the rest of the format: outside of a conversion, or behind a `%`. -/
def printfFrom (buf : List Char) (mode : Option Conversion) (args : List Arg) :
    List Char → Option (List Char)
  | [] => if mode.isNone then some [] else none
  | c :: format =>
      match mode with
      | none =>
          if c = '%' then printfFrom buf (some ⟨false, 0⟩) args format
          else (printfFrom buf none args format).map (c :: ·)
      | some conv =>
          if c = '0' then printfFrom buf (some { conv with zeroPad := true }) args format
          else if c = 'd' ∨ c = 'u' ∨ c = 'x' then
            match args with
            | .int d :: args => do
                let buf ← formatInt buf conv c d
                let text ← cstr buf
                (printfFrom buf none args format).map (text ++ ·)
            | _ => none
          else if c = 's' then
            match args with
            | .str p :: args =>
                (printfFrom buf none args format).map (p.getD "(null)".toList ++ ·)
            | _ => none
          else if '0' ≤ c ∧ c ≤ '9' then do
            let buf ← store buf conv.width c
            printfFrom buf (some { conv with width := conv.width + 1 }) args format
          else
            match args with
            | .int d :: args =>
                (printfFrom buf none args format).map (Char.ofNat (d.toNat % 256) :: ·)
            | _ => none

/-- `printf(format, …)`. What the array holds on entry is never read; the printing
rules below hold for any contents. -/
def printf (format : List Char) (args : List Arg) : Option (List Char) :=
  printfFrom (List.replicate bufSize nul) none args format

/-! ## The dump -/

/-- The `levels` table. -/
def levels : List (BitVec 32 × BitVec 32) :=
  [(0, 0), (1, 0), (2, 0), (3, 0), (4, 0), (4, 1), (4, 2), (4, 3), (5, 0), (6, 0), (7, 0),
    (9, 0), (0xA, 0), (0xB, 0), (0xC, 0), (0xD, 0), (0xD, 1), (0xD, 2), (0xD, 3), (0xD, 4),
    (0xD, 5), (0xD, 6), (0xD, 7),
    (0x80000000, 0), (0x80000001, 0), (0x80000002, 0), (0x80000003, 0), (0x80000004, 0),
    (0x80000005, 0), (0x80000006, 0), (0x80000007, 0), (0x80000008, 0), (0x8000000A, 0),
    (0xC0000000, 0), (0xC0000001, 0), (0xC0000002, 0), (0xC0000003, 0), (0xC0000004, 0)]

def leafFormat : List Char :=
  ("   0x%08x 0x%02x: eax=0x%08x ebx=0x%08x" ++ " ecx=0x%08x edx=0x%08x\n").toList

/-- `print_leaf`: the text written and the `eax` returned. -/
def printLeaf (cpuid : Oracle) (leaf idx : BitVec 32) : Option (List Char × BitVec 32) := do
  let r := cpuid leaf idx
  let text ← printf leafFormat
    [.int leaf, .int idx, .int r.eax, .int r.ebx, .int r.ecx, .int r.edx]
  pure (text, r.eax)

/-- The running thresholds of `test`. -/
structure Thresholds where
  level : BitVec 32
  xlevel : BitVec 32
  x2level : BitVec 32

/-- The three assignments behind `print_leaf` in the loop of `test`. -/
def Thresholds.update (t : Thresholds) (leaf eax : BitVec 32) : Thresholds where
  level := if leaf = 0 then eax else t.level
  xlevel := if leaf = 0x80000000 &&& eax then eax else t.xlevel
  x2level := if leaf = 0xC0000000 &&& eax then eax else t.x2level

/-- The loop of `test` over the rest of the table, with its two `continue`s and its
`break`. -/
def testLoop (cpuid : Oracle) :
    List (BitVec 32 × BitVec 32) → Thresholds → Option (List Char)
  | [], _ => some []
  | (leaf, index) :: rest, t =>
      if leaf > t.level ∧ leaf < 0x80000000 then testLoop cpuid rest t
      else if leaf > t.xlevel ∧ leaf < 0xC0000000 ∧ leaf > 0x80000000 then
        testLoop cpuid rest t
      else if leaf > t.x2level ∧ leaf ≤ 0xFFFFFFFF ∧ leaf > 0xC0000000 then some []
      else do
        let (text, eax) ← printLeaf cpuid leaf index
        (testLoop cpuid rest (t.update leaf eax)).map (text ++ ·)

/-- Several `print_leaf` calls in a row, with subleaf 0. -/
def printLeafs (cpuid : Oracle) : List (BitVec 32) → Option (List Char)
  | [] => some []
  | leaf :: leafs => do
      let (text, _) ← printLeaf cpuid leaf 0
      (printLeafs cpuid leafs).map (text ++ ·)

def KVM_CPUID_SIGNATURE : BitVec 32 := 0x40000000
def KVM_CPUID_FEATURES : BitVec 32 := 0x40000001
def HYPERV_CPUID_VENDOR_AND_MAX_FUNCTIONS : BitVec 32 := 0x40000000
def HYPERV_CPUID_INTERFACE : BitVec 32 := 0x40000001
def HYPERV_CPUID_VERSION : BitVec 32 := 0x40000002
def HYPERV_CPUID_FEATURES : BitVec 32 := 0x40000003
def HYPERV_CPUID_ENLIGHTMENT_INFO : BitVec 32 := 0x40000004
def HYPERV_CPUID_IMPLEMENT_LIMITS : BitVec 32 := 0x40000005
def KVM_CPUID_SIGNATURE_NEXT : BitVec 32 := 0x40000100

/-- The leaves `dump_kvm_leafs` prints. Its own CPUID names no subleaf, so `ecx` is
whatever the register held. -/
def kvmLeafs (cpuid : Oracle) (ecx base : BitVec 32) : List (BitVec 32) :=
  let r := cpuid (KVM_CPUID_SIGNATURE ||| base) ecx
  -- "KVMKVMKVM\0\0\0"
  if r.ebx = 0x4b4d564b ∧ r.ecx = 0x564b4d56 ∧ r.edx = 0x4d then
    [base ||| KVM_CPUID_SIGNATURE, base ||| KVM_CPUID_FEATURES]
  -- "Microsoft Hv"
  else if base = HYPERV_CPUID_VENDOR_AND_MAX_FUNCTIONS ∧ r.ebx = 0x7263694d ∧
      r.ecx = 0x666f736f ∧ r.edx = 0x76482074 then
    [HYPERV_CPUID_VENDOR_AND_MAX_FUNCTIONS, HYPERV_CPUID_INTERFACE, HYPERV_CPUID_VERSION,
      HYPERV_CPUID_FEATURES, HYPERV_CPUID_ENLIGHTMENT_INFO, HYPERV_CPUID_IMPLEMENT_LIMITS]
  else []

/-- `dump_kvm_leafs(base)`. -/
def dumpKvmLeafs (cpuid : Oracle) (ecx base : BitVec 32) : Option (List Char) :=
  printLeafs cpuid (kvmLeafs cpuid ecx base)

/-- `test()`. `stale` gives the contents of `ecx` at the two signature probes. -/
def test (cpuid : Oracle) (stale : BitVec 32 → BitVec 32) : Option (List Char) := do
  let head ← printf "CPU:\n".toList []
  let table ← testLoop cpuid levels ⟨0, 0, 0⟩
  let kvm ← dumpKvmLeafs cpuid (stale KVM_CPUID_SIGNATURE) KVM_CPUID_SIGNATURE
  let next ← dumpKvmLeafs cpuid (stale KVM_CPUID_SIGNATURE_NEXT) KVM_CPUID_SIGNATURE_NEXT
  pure (head ++ table ++ kvm ++ next)

/-- `cmain`: everything the kernel writes to the serial port. -/
def cmain (cpuid : Oracle) (stale : BitVec 32 → BitVec 32) : Option (List Char) := do
  let start ← printf "==START TEST==\n".toList []
  let body ← test cpuid stale
  let finish ← printf "==END TEST==\n".toList []
  pure (start ++ body ++ finish)

end TpQemu.Cpuid

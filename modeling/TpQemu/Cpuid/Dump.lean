import TpQemu.Lib.Dict
import TpQemu.Lib.Numeral
import TpQemu.Lib.Scan
import TpQemu.Lib.Text

/-!
# Parsing a CPUID dump

`parse_cpuid_dump` of `qemu/tests/cpuid.py`. A dump is a dictionary whose keys are
triples of leaf, subleaf and register name. Keys of other shapes can be looked up
in a Python dictionary as well, so the key type has pairs too.

The search `(==START TEST==.*==END TEST==)` runs from the leftmost start marker to
the rightmost end marker behind it. In the line pattern every repetition is
followed by a character of another class, so that greedy scanning never has to
give characters back.
-/

namespace TpQemu.Cpuid

open Text Scan

/-- Dictionary keys: `(leaf, index)` and `(leaf, index, register)`. -/
inductive Key where
  | leafIndex (leaf index : Nat)
  | leafIndexReg (leaf index : Nat) (reg : String)
  deriving DecidableEq

abbrev CpuidDump := Dict Key Nat

def startMarker : List Char := "==START TEST==".toList

def endMarker : List Char := "==END TEST==".toList

/-- `re.search("(==START TEST==.*==END TEST==)", output, re.M | re.DOTALL)`. -/
def searchDump (output : List Char) : Option (List Char) := do
  let rest ← afterFirst startMarker output
  let mid ← beforeLast endMarker rest
  pure (startMarker ++ mid ++ endMarker)

/-- The six groups of `cpuid_re`. -/
structure LineMatch where
  inEax : List Char
  inEcx : List Char
  eax : List Char
  ebx : List Char
  ecx : List Char
  edx : List Char

/-- `cpuid_re.match(l)`. -/
def cpuidRe (l : List Char) : Option LineMatch := do
  let s ← literal "0x".toList (l.dropWhile (· = ' '))
  let (inEax, s) ← run1 Numeral.isHexDigit s
  let (_, s) ← run1 (· = ' ') s
  let s ← literal "0x".toList s
  let (inEcx, s) ← run1 Numeral.isHexDigit s
  let s ← literal ":".toList s
  let (_, s) ← run1 (· = ' ') s
  let s ← literal "eax=0x".toList s
  let (eax, s) ← run1 Numeral.isHexDigit s
  let s ← literal " ebx=0x".toList s
  let (ebx, s) ← run1 Numeral.isHexDigit s
  let s ← literal " ecx=0x".toList s
  let (ecx, s) ← run1 Numeral.isHexDigit s
  let s ← literal " edx=0x".toList s
  let (edx, s) ← run1 Numeral.isHexDigit s
  if s = [] then pure ⟨"0x".toList ++ inEax, inEcx, eax, ebx, ecx, edx⟩ else none

/-- `int(s, 16)` on a matched group, with or without the base prefix. -/
def int16 : List Char → Nat
  | '0' :: 'x' :: ds => Numeral.hexValue ds
  | ds => Numeral.hexValue ds

/-- The four assignments for a matched line. -/
def storeLine (result : CpuidDump) (m : LineMatch) : CpuidDump :=
  (((result.set (.leafIndexReg (int16 m.inEax) (int16 m.inEcx) "eax") (int16 m.eax)).set
    (.leafIndexReg (int16 m.inEax) (int16 m.inEcx) "ebx") (int16 m.ebx)).set
    (.leafIndexReg (int16 m.inEax) (int16 m.inEcx) "ecx") (int16 m.ecx)).set
    (.leafIndexReg (int16 m.inEax) (int16 m.inEcx) "edx") (int16 m.edx)

/-- The loop over the leaf lines; an unexpected line rejects the dump. -/
def parseLines : List (List Char) → CpuidDump → Option CpuidDump
  | [], result => some result
  | l :: ls, result => (cpuidRe l).bind fun m => parseLines ls (storeLine result m)

/-- The delimiter tests and the loop. A text that passes the first test has at
least the two marker lines, so none of the index accesses can fail. -/
def parseOutLines (outLines : List (List Char)) : Option CpuidDump :=
  if outLines.head? ≠ some startMarker ∨ outLines.getLast? ≠ some endMarker then none
  else if outLines[1]? ≠ some "CPU:".toList then none
  else parseLines (outLines.dropLast.drop 2) ∅

/-- `parse_cpuid_dump(output)`. -/
def parseCpuidDump (output : List Char) : Option CpuidDump :=
  (searchDump output).bind fun group => parseOutLines (splitlines group)

/-! ## A dump between its markers -/

/-- The text found by the search splits into the marker lines around whole lines. -/
theorem splitlines_group {ls : List (List Char)} (hls : ∀ l ∈ ls, OneLine l) :
    splitlines (startMarker ++ ('\n' :: ls.flatMap (· ++ ['\n'])) ++ endMarker) =
      startMarker :: (ls ++ [endMarker]) := by
  have hstart : OneLine startMarker := by decide
  have hend : OneLine endMarker := by decide
  have hall : ∀ l ∈ startMarker :: ls, OneLine l := fun l hl => by
    obtain rfl | hl := List.mem_cons.mp hl
    · exact hstart
    · exact hls l hl
  have h := splitlines_flatMap hall hend (by decide)
  simpa using h

/-- Between the marker lines, the first line must be the heading. -/
theorem parseOutLines_markers (l : List Char) (ls : List (List Char)) :
    parseOutLines (startMarker :: (l :: ls ++ [endMarker])) =
      if l = "CPU:".toList then parseLines ls ∅ else none := by
  have hlast : (startMarker :: (l :: ls ++ [endMarker])).getLast? = some endMarker := by
    rw [← List.cons_append, List.getLast?_concat]
  have hmid : (startMarker :: (l :: ls ++ [endMarker])).dropLast.drop 2 = ls := by
    rw [← List.cons_append, List.dropLast_concat]
    rfl
  rw [parseOutLines, hlast, hmid]
  simp

section Markers

variable {before after : List Char} {c : Char} (hc : c ∉ startMarker)
  (ends : before = [] ∨ ∃ b, before = b ++ [c]) (noStart : ¬startMarker <:+: before)
  (noEnd : ¬endMarker <:+: after)

include hc ends noStart noEnd

/-- The search finds the stated markers when the text before ends in a character
foreign to the start marker and neither side contains its marker. -/
theorem searchDump_eq (mid : List Char) :
    searchDump (before ++ (startMarker ++ (mid ++ (endMarker ++ '\n' :: after)))) =
      some (startMarker ++ mid ++ endMarker) := by
  have hbefore : beforeLast endMarker (mid ++ (endMarker ++ '\n' :: after)) = some mid :=
    beforeLast_append (by decide) (by decide) noEnd
  rw [searchDump, afterFirst_append (by decide) hc ends noStart, Option.bind_eq_bind,
    Option.bind_some, hbefore]
  rfl

/-- A dump with the heading `l` and the lines `ls` in a serial log. -/
theorem parseCpuidDump_markers {l : List Char} {ls : List (List Char)}
    (hls : ∀ l' ∈ l :: ls, OneLine l') :
    parseCpuidDump (before ++ (startMarker ++
        ('\n' :: (l :: ls).flatMap (· ++ ['\n']) ++ (endMarker ++ '\n' :: after)))) =
      if l = "CPU:".toList then parseLines ls ∅ else none := by
  rw [parseCpuidDump, searchDump_eq hc ends noStart noEnd, Option.bind_some,
    splitlines_group hls, parseOutLines_markers]

end Markers

/-! ## The keys of a dump -/

/-- Every key of an accepted dump names a register. -/
def RegisterKeys (d : CpuidDump) : Prop :=
  ∀ k ∈ d.keys, ∃ leaf index reg, k = .leafIndexReg leaf index reg

theorem RegisterKeys.storeLine {d : CpuidDump} (h : RegisterKeys d) (m : LineMatch) :
    RegisterKeys (storeLine d m) := by
  intro k hk
  simp only [Cpuid.storeLine, Dict.mem_keys_set] at hk
  obtain rfl | rfl | rfl | rfl | hk := hk
  · exact ⟨_, _, _, rfl⟩
  · exact ⟨_, _, _, rfl⟩
  · exact ⟨_, _, _, rfl⟩
  · exact ⟨_, _, _, rfl⟩
  · exact h k hk

theorem parseLines_registerKeys {ls : List (List Char)} {d result : CpuidDump}
    (h : RegisterKeys d) (accepted : parseLines ls d = some result) : RegisterKeys result := by
  induction ls generalizing d with
  | nil =>
      cases accepted
      exact h
  | cons l ls ih =>
      obtain ⟨m, -, hrest⟩ := Option.bind_eq_some_iff.mp accepted
      exact ih (h.storeLine m) hrest

/-- The parser's data model: an accepted dump has register keys only. -/
theorem parseCpuidDump_registerKeys {output : List Char} {d : CpuidDump}
    (accepted : parseCpuidDump output = some d) : RegisterKeys d := by
  obtain ⟨group, -, hlines⟩ := Option.bind_eq_some_iff.mp accepted
  rw [parseOutLines] at hlines
  split at hlines
  · cases hlines
  · split at hlines
    · cases hlines
    · exact parseLines_registerKeys (fun k hk => absurd hk (by simp)) hlines

end TpQemu.Cpuid

import Mathlib.Data.Nat.Basic
import Mathlib.Tactic.IntervalCases
import TpQemu.Lib.Text

/-!
# Numerals

`hexValue` reads a text of lower-case hexadecimal digits, most significant digit
first. It is the left inverse of `Nat.toDigits 16`, and leading zeros do not
change what it reads.

`int` reads a decimal number the way Python's `int` does: white space around it is
ignored, a sign may precede the digits and single underscores may stand between
them. It inverts `str`.
-/

namespace TpQemu.Numeral

/-- The characters `0`-`9` and `a`-`f`. -/
def isHexDigit (c : Char) : Bool :=
  ('0' ≤ c && c ≤ '9') || ('a' ≤ c && c ≤ 'f')

/-- The value of a lower-case hexadecimal digit. -/
def hexDigitValue (c : Char) : Nat :=
  if c ≤ '9' then c.toNat - '0'.toNat else c.toNat - 'a'.toNat + 10

/-- The number a text of hexadecimal digits denotes. -/
def hexValue (cs : List Char) : Nat := cs.foldl (fun n c => n * 16 + hexDigitValue c) 0

theorem hexDigitValue_digitChar {d : Nat} (h : d < 16) :
    hexDigitValue (Nat.digitChar d) = d := by
  interval_cases d <;> decide

theorem isHexDigit_digitChar {d : Nat} (h : d < 16) : isHexDigit (Nat.digitChar d) = true := by
  interval_cases d <;> decide

theorem hexValue_append_singleton (cs : List Char) (c : Char) :
    hexValue (cs ++ [c]) = hexValue cs * 16 + hexDigitValue c := by
  simp [hexValue]

/-- Reading inverts writing. -/
theorem hexValue_toDigits (n : Nat) : hexValue (Nat.toDigits 16 n) = n := by
  induction n using Nat.strongRecOn with
  | ind n ih =>
      rw [Nat.toDigits_eq_if (by decide)]
      split
      · rename_i h
        have hd := hexDigitValue_digitChar h
        simpa [hexValue] using hd
      · rename_i h
        have hlt : n / 16 < n := Nat.div_lt_self (by omega) (by decide)
        rw [hexValue_append_singleton, ih _ hlt,
          hexDigitValue_digitChar (Nat.mod_lt n (by decide))]
        omega

theorem hexValue_replicate_append (k : Nat) (cs : List Char) :
    hexValue (List.replicate k '0' ++ cs) = hexValue cs := by
  induction k with
  | zero => rfl
  | succ k ih => simpa [List.replicate_succ, hexValue, hexDigitValue] using ih

/-- A digit with zeros behind it. -/
theorem toDigits_mul_pow {b m : Nat} (hm : 0 < m) (hlt : m < b) (q : Nat) :
    Nat.toDigits b (m * b ^ q) = Nat.digitChar m :: List.replicate q '0' := by
  have hb : 1 < b := by omega
  induction q with
  | zero => rw [Nat.pow_zero, Nat.mul_one, Nat.toDigits_of_lt_base hlt, List.replicate_zero]
  | succ q ih =>
      have hnum : m * b ^ (q + 1) = m * b ^ q * b := by rw [Nat.pow_succ, Nat.mul_assoc]
      have hpos : 0 < m * b ^ q := Nat.mul_pos hm (Nat.pow_pos (by omega))
      rw [hnum, Nat.toDigits_of_base_le hb (Nat.le_mul_of_pos_left b hpos),
        Nat.mul_div_cancel _ (by omega), Nat.mul_mod_left, ih, List.replicate_succ']
      rfl

theorem isHexDigit_of_mem_toDigits {n : Nat} {c : Char} (h : c ∈ Nat.toDigits 16 n) :
    isHexDigit c = true := by
  induction n using Nat.strongRecOn with
  | ind n ih =>
      rw [Nat.toDigits_eq_if (by decide)] at h
      split at h
      · rename_i hn
        rw [List.mem_singleton.mp h]
        exact isHexDigit_digitChar hn
      · rename_i hn
        rcases List.mem_append.mp h with h | h
        · exact ih _ (Nat.div_lt_self (by omega) (by decide)) h
        · rw [List.mem_singleton.mp h]
          exact isHexDigit_digitChar (Nat.mod_lt n (by decide))

section Decimal

open Text

/-- `str.strip()` -/
def strip (cs : List Char) : List Char :=
  ((cs.dropWhile isSpace).reverse.dropWhile isSpace).reverse

/-- Digits, with single underscores between them. -/
def digitsValue (cs : List Char) : Option Nat :=
  let groups := cs.splitOn '_'
  if groups.all (fun g => !g.isEmpty && g.all Char.isDigit) then
    some (Nat.ofDigitChars 10 groups.flatten 0)
  else none

/-- Python's `int`, on the ASCII digits. -/
def int (cs : List Char) : Option Int :=
  match strip cs with
  | '-' :: ds => (digitsValue ds).map fun (n : Nat) => -(n : Int)
  | '+' :: ds => (digitsValue ds).map fun (n : Nat) => (n : Int)
  | ds => (digitsValue ds).map fun (n : Nat) => (n : Int)

/-- Digits of a base up to 16, with single underscores between them. -/
def baseValue (base : Nat) (cs : List Char) : Option Nat :=
  let groups := cs.splitOn '_'
  let isDigit := fun c : Char => isHexDigit c.toLower && hexDigitValue c.toLower < base
  if groups.all (fun g => !g.isEmpty && g.all isDigit) then
    some (groups.flatten.foldl (fun n c => n * base + hexDigitValue c.toLower) 0)
  else none

/-- An underscore may follow the prefix of the base. -/
def dropUnderscore : List Char → List Char
  | '_' :: ds => ds
  | ds => ds

/-- A number with the prefix of its base. A decimal one has no leading zeros. -/
def prefixedValue : List Char → Option Nat
  | '0' :: 'x' :: ds | '0' :: 'X' :: ds => baseValue 16 (dropUnderscore ds)
  | '0' :: 'o' :: ds | '0' :: 'O' :: ds => baseValue 8 (dropUnderscore ds)
  | '0' :: 'b' :: ds | '0' :: 'B' :: ds => baseValue 2 (dropUnderscore ds)
  | '0' :: ds => (digitsValue ('0' :: ds)).filter (· = 0)
  | ds => digitsValue ds

/-- `int(s, 0)`, on the ASCII digits. -/
def int0 (cs : List Char) : Option Int :=
  match strip cs with
  | '-' :: ds => (prefixedValue ds).map fun (n : Nat) => -(n : Int)
  | '+' :: ds => (prefixedValue ds).map fun (n : Nat) => (n : Int)
  | ds => (prefixedValue ds).map fun (n : Nat) => (n : Int)

example : int0 "0x8000_000A".toList = some 0x8000000a ∧ int0 "12".toList = some 12 ∧
    int0 "012".toList = none ∧ int0 "00".toList = some 0 := by decide

/-- Python's `str` of an integer, also `%d`. -/
def str (z : Int) : List Char :=
  if z < 0 then '-' :: Nat.toDigits 10 z.natAbs else Nat.toDigits 10 z.natAbs

/-- `"%d" % z` -/
def decimal (z : Int) : String := String.ofList (str z)

example : int " +1_000 ".toList = some 1000 ∧ int "1__0".toList = none ∧ int [] = none := by decide

theorem isSpace_eq_false_of_isDigit {c : Char} (h : c.isDigit) : isSpace c = false := by
  have hc : 48 ≤ c.toNat ∧ c.toNat ≤ 57 := by
    simpa [Char.isDigit, UInt32.le_iff_toNat_le] using h
  simp only [isSpace, Bool.or_eq_false_iff, Bool.and_eq_false_iff, decide_eq_false_iff_not]
  omega

theorem strip_append_space {cs blank : List Char} (hne : cs ≠ [])
    (hcs : ∀ c ∈ cs, isSpace c = false) (hblank : ∀ c ∈ blank, isSpace c = true) :
    strip (cs ++ blank) = cs := by
  have hdrop : ∀ ds rest : List Char, ds ≠ [] → (∀ c ∈ ds, isSpace c = false) →
      (ds ++ rest).dropWhile isSpace = ds ++ rest := by
    intro ds rest hds hspace
    cases ds with
    | nil => exact absurd rfl hds
    | cons c ds => simp [hspace c List.mem_cons_self]
  have hback : ∀ c ∈ blank.reverse, isSpace c = true := by simpa using hblank
  have hreverse := hdrop cs.reverse [] (by simpa using hne) (by simpa using hcs)
  rw [List.append_nil] at hreverse
  rw [strip, hdrop cs blank hne hcs, List.reverse_append, List.dropWhile_append_of_pos hback,
    hreverse, List.reverse_reverse]

theorem strip_digits {cs : List Char} (h : ∀ c ∈ cs, c.isDigit) : strip cs = cs := by
  by_cases hne : cs = []
  · rw [hne]
    rfl
  · have hstrip := strip_append_space hne (fun c hc => isSpace_eq_false_of_isDigit (h c hc))
      (List.forall_mem_nil (isSpace · = true))
    rwa [List.append_nil] at hstrip

theorem int_digits {cs : List Char} (h : ∀ c ∈ cs, c.isDigit) :
    int cs = if cs = [] then none else some (Nat.ofDigitChars 10 cs 0 : Int) := by
  have hone : cs.splitOn '_' = [cs] :=
    List.splitOn_eq_singleton fun hmem => absurd (h '_' hmem) (by decide)
  have hall : cs.all Char.isDigit := by simpa using h
  have hvalue : digitsValue cs = if cs = [] then none else some (Nat.ofDigitChars 10 cs 0) := by
    rw [digitsValue, hone]
    cases cs <;> simp_all
  rw [int, strip_digits h]
  split
  · exact absurd (h '-' List.mem_cons_self) (by decide)
  · exact absurd (h '+' List.mem_cons_self) (by decide)
  · rw [hvalue]
    split <;> rfl

theorem isDigit_of_mem_str {z : Int} (hz : 0 ≤ z) {c : Char} (h : c ∈ str z) : c.isDigit := by
  rw [str, if_neg (by omega)] at h
  exact Nat.isDigit_of_mem_toDigits (by decide) (by decide) h

theorem str_ne_nil {z : Int} (hz : 0 ≤ z) : str z ≠ [] := by
  rw [str, if_neg (by omega)]
  exact Nat.toDigits_ne_nil

/-- Reading inverts writing. -/
theorem int_str {z : Int} (hz : 0 ≤ z) : int (str z) = some z := by
  rw [int_digits fun c hc => isDigit_of_mem_str hz hc, if_neg (str_ne_nil hz), str,
    if_neg (by omega), Nat.ofDigitChars_ten_toDigits, Int.natAbs_of_nonneg hz]

end Decimal

end TpQemu.Numeral

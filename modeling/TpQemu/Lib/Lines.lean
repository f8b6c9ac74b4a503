import TpQemu.Lib.Numeral
import TpQemu.Lib.Tokens

/-!
# Reading a file of fields

The lines of a text file, the split of a line at the first occurrence of a separator, trimming at
the end, and Python's `int(s, 16)`.
-/

namespace TpQemu.Lines

open Text Numeral

/-- The line ends of a file opened in text mode. -/
def universal : List Char → List Char
  | '\r' :: '\n' :: cs => '\n' :: universal cs
  | '\r' :: cs => '\n' :: universal cs
  | c :: cs => c :: universal cs
  | [] => []

/-- The lines that iterating over a file gives, without their ends. -/
def fileLines (s : List Char) : List (List Char) :=
  let pieces := (universal s).splitOn '\n'
  if pieces.getLast? = some [] then pieces.dropLast else pieces

/-- `str.rstrip()` -/
def rstrip (s : List Char) : List Char := (s.reverse.dropWhile isSpace).reverse

/-- `str.split(sep, 1)`, as the part before the separator and the one behind it, if there is a
separator. -/
def cut (sep : Char) (s : List Char) : List Char × Option (List Char) :=
  match s.dropWhile (· ≠ sep) with
  | [] => (s, none)
  | _ :: after => (s.takeWhile (· ≠ sep), some after)

/-- `str.strip(chars)` -/
def stripChars (p : Char → Bool) (s : List Char) : List Char :=
  ((s.dropWhile p).reverse.dropWhile p).reverse

/-- The digits of a hexadecimal number, behind a prefix or not. -/
def hexDigits : List Char → List Char
  | '0' :: 'x' :: ds | '0' :: 'X' :: ds => dropUnderscore ds
  | ds => ds

/-- `int(s, 16)`, on the ASCII digits. -/
def int16 (cs : List Char) : Option Int :=
  match strip cs with
  | '-' :: ds => (baseValue 16 (hexDigits ds)).map fun (n : Nat) => -(n : Int)
  | '+' :: ds => (baseValue 16 (hexDigits ds)).map fun (n : Nat) => (n : Int)
  | ds => (baseValue 16 (hexDigits ds)).map fun (n : Nat) => (n : Int)

example : int16 "0x120013".toList = some 0x120013 ∧ int16 "AB_41".toList = some 0xab41 ∧
    int16 "".toList = none ∧ int16 "-f ".toList = some (-15) := by decide

/-! ## Lines -/

theorem universal_of_notMem {s : List Char} (h : '\r' ∉ s) : universal s = s := by
  induction s with
  | nil => rfl
  | cons c s ih =>
      have hc : c ≠ '\r' := fun he => h (he ▸ List.mem_cons_self)
      rw [universal.eq_3 _ _ (fun _ hr _ => hc hr) hc,
        ih fun hmem => h (List.mem_cons_of_mem c hmem)]

theorem splitOn_flatMap {sep : Char} {ls : List (List Char)} (h : ∀ l ∈ ls, sep ∉ l) :
    (ls.flatMap (· ++ [sep])).splitOn sep = ls ++ [[]] := by
  induction ls with
  | nil => rfl
  | cons l ls ih =>
      rw [List.flatMap_cons, List.append_assoc, List.singleton_append,
        List.splitOn_append_cons_self_of_not_mem (h l List.mem_cons_self),
        ih fun m hm => h m (List.mem_cons_of_mem l hm)]
      rfl

/-- The lines of a file that was written line by line. -/
theorem fileLines_flatMap {ls : List (List Char)} (h : ∀ l ∈ ls, '\n' ∉ l ∧ '\r' ∉ l) :
    fileLines (ls.flatMap (· ++ ['\n'])) = ls := by
  have hcr : '\r' ∉ ls.flatMap (· ++ ['\n']) := by
    intro hmem
    obtain ⟨l, hl, hmem⟩ := List.mem_flatMap.mp hmem
    rcases List.mem_append.mp hmem with hmem | hmem
    · exact (h l hl).2 hmem
    · exact absurd (List.mem_singleton.mp hmem) (by decide)
  rw [fileLines, universal_of_notMem hcr, splitOn_flatMap fun l hl => (h l hl).1]
  simp

/-! ## Fields -/

theorem cut_append {sep : Char} {key : List Char} (h : sep ∉ key) (value : List Char) :
    cut sep (key ++ sep :: value) = (key, some value) := by
  have hkey : ∀ c ∈ key, decide (c ≠ sep) = true :=
    fun c hc => decide_eq_true fun he => h (he ▸ hc)
  rw [cut, List.dropWhile_append_of_pos hkey, List.takeWhile_append_of_pos hkey]
  simp

theorem rstrip_append_cons {c : Char} (hc : isSpace c = false) (s value : List Char) :
    rstrip (s ++ c :: value) = s ++ c :: rstrip value := by
  have hstop : (c :: s.reverse).dropWhile isSpace = c :: s.reverse :=
    List.dropWhile_cons_of_neg (by rw [hc]; decide)
  rw [rstrip, rstrip, List.reverse_append, List.reverse_cons, List.append_assoc,
    List.singleton_append, List.dropWhile_append, hstop]
  cases hvalue : value.reverse.dropWhile isSpace with
  | nil => simp
  | cons d ds => simp

theorem rstrip_of_notSpace {s : List Char} (h : ∀ c ∈ s, isSpace c = false) : rstrip s = s := by
  rcases s.eq_nil_or_concat' with rfl | ⟨t, c, rfl⟩
  · rfl
  · exact rstrip_append_cons (h c (by simp)) t []

theorem words_rstrip (s : List Char) : words (rstrip s) = words s := words_rdropWhile s

theorem stripChars_between {p : Char → Bool} {c d : Char} (hc : p c = true) (hd : p d = true)
    (s : List Char) : stripChars p (c :: s ++ [d]) = stripChars p s := by
  rw [stripChars, stripChars, List.cons_append, List.dropWhile_cons_of_pos hc,
    List.dropWhile_append]
  cases hs : s.dropWhile p with
  | nil => simp [hd]
  | cons b bs =>
      rw [List.isEmpty_cons, if_neg Bool.false_ne_true, List.reverse_append,
        List.reverse_singleton, List.singleton_append, List.dropWhile_cons_of_pos hd]

theorem wordsFrom_append {w : List Char} (hw : ∀ c ∈ w, isSpace c = false) (word s : List Char) :
    wordsFrom word (w ++ s) = wordsFrom (word ++ w) s := by
  induction w generalizing word with
  | nil => rw [List.nil_append, List.append_nil]
  | cons c w ih =>
      rw [List.cons_append, wordsFrom, if_neg (by rw [hw c List.mem_cons_self]; decide),
        ih fun d hd => hw d (List.mem_cons_of_mem c hd), List.append_assoc]
      rfl

theorem words_append_cons {w : List Char} (hne : w ≠ []) (hw : ∀ c ∈ w, isSpace c = false)
    {c : Char} (hc : isSpace c = true) (s : List Char) : words (w ++ c :: s) = w :: words s := by
  rw [words, wordsFrom_append hw, List.nil_append, wordsFrom, if_pos hc,
    if_neg (by simpa using hne)]
  rfl

/-! ## Hexadecimal numbers -/

/-- The codes of the lower-case digits. -/
theorem code_of_isHexDigit {c : Char} (h : isHexDigit c = true) :
    (48 ≤ c.toNat ∧ c.toNat ≤ 57) ∨ (97 ≤ c.toNat ∧ c.toNat ≤ 102) := by
  simpa [isHexDigit, Char.le_def, UInt32.le_iff_toNat_le] using h

theorem toLower_of_isHexDigit {c : Char} (h : isHexDigit c = true) : c.toLower = c := by
  have hcode := code_of_isHexDigit h
  have hupper : ¬(c.val ≥ 'A'.val ∧ c.val ≤ 'Z'.val) := by
    simp only [ge_iff_le, UInt32.le_iff_toNat_le]
    change ¬(65 ≤ c.toNat ∧ c.toNat ≤ 90)
    omega
  exact dif_neg hupper

theorem hexDigitValue_lt {c : Char} (h : isHexDigit c = true) : hexDigitValue c < 16 := by
  have hcode := code_of_isHexDigit h
  rw [hexDigitValue]
  split
  · change c.toNat - 48 < 16
    rename_i hle
    have hle : c.toNat ≤ 57 := by simpa [Char.le_def, UInt32.le_iff_toNat_le] using hle
    omega
  · change c.toNat - 97 + 10 < 16
    omega

theorem isSpace_of_isHexDigit {c : Char} (h : isHexDigit c = true) : isSpace c = false := by
  have hcode := code_of_isHexDigit h
  simp only [isSpace, Bool.or_eq_false_iff, Bool.and_eq_false_iff, decide_eq_false_iff_not]
  omega

theorem baseValue_hexDigits {ds : List Char} (hne : ds ≠ [])
    (h : ∀ c ∈ ds, isHexDigit c = true) : baseValue 16 ds = some (hexValue ds) := by
  have hone : ds.splitOn '_' = [ds] :=
    List.splitOn_eq_singleton fun hmem => absurd (h '_' hmem) (by decide)
  have hall : ds.all (fun c => isHexDigit c.toLower && hexDigitValue c.toLower < 16) = true := by
    rw [List.all_eq_true]
    intro c hc
    rw [toLower_of_isHexDigit (h c hc), h c hc, Bool.true_and, decide_eq_true_eq]
    exact hexDigitValue_lt (h c hc)
  have hempty : ds.isEmpty = false := by simpa using hne
  rw [baseValue, hone]
  simp only [List.all_cons, List.all_nil, hempty, hall, Bool.not_false, Bool.and_true, if_true,
    List.flatten_singleton]
  rw [hexValue]
  refine congrArg some (List.foldl_ext _ _ _ fun n c hc => ?_)
  rw [toLower_of_isHexDigit (h c hc)]

/-- Lower-case digits are read as the number they denote. -/
theorem int16_hexDigits {ds : List Char} (hne : ds ≠ []) (h : ∀ c ∈ ds, isHexDigit c = true) :
    int16 ds = some (hexValue ds : Int) := by
  have hstrip : strip ds = ds := by
    have happend := strip_append_space hne (fun c hc => isSpace_of_isHexDigit (h c hc))
      (List.forall_mem_nil (isSpace · = true))
    rwa [List.append_nil] at happend
  -- the second digit is not the letter of a prefix
  have hwhole : hexDigits ds = ds := by
    fun_cases hexDigits ds
    · exact absurd (h 'x' (List.mem_cons_of_mem _ List.mem_cons_self)) (by decide)
    · exact absurd (h 'X' (List.mem_cons_of_mem _ List.mem_cons_self)) (by decide)
    · rfl
  rw [int16, hstrip]
  split
  · exact absurd (h '-' List.mem_cons_self) (by decide)
  · exact absurd (h '+' List.mem_cons_self) (by decide)
  · rw [hwhole, baseValue_hexDigits hne h, Option.map_some]

/-- Digits behind the prefix of their base. -/
theorem int16_prefixed {ds : List Char} (hne : ds ≠ []) (h : ∀ c ∈ ds, isHexDigit c = true) :
    int16 ('0' :: 'x' :: ds) = some (hexValue ds : Int) := by
  have hspace : ∀ c ∈ '0' :: 'x' :: ds, isSpace c = false := by
    intro c hc
    rcases List.mem_cons.mp hc with rfl | hc
    · decide
    · rcases List.mem_cons.mp hc with rfl | hc
      · decide
      · exact isSpace_of_isHexDigit (h c hc)
  have hstrip : strip ('0' :: 'x' :: ds) = '0' :: 'x' :: ds := by
    have happend := strip_append_space (List.cons_ne_nil _ _) hspace
      (List.forall_mem_nil (isSpace · = true))
    rwa [List.append_nil] at happend
  have hunderscore : dropUnderscore ds = ds := by
    fun_cases dropUnderscore ds
    · exact absurd (h '_' List.mem_cons_self) (by decide)
    · rfl
  rw [int16, hstrip]
  change (baseValue 16 (dropUnderscore ds)).map _ = _
  rw [hunderscore, baseValue_hexDigits hne h, Option.map_some]

end TpQemu.Lines

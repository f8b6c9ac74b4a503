import TpQemu.Lib.Quotient
import TpQemu.StgParams.Parsers

/-!
# Ranges with the number of images

`_range(buf, n)` of `qemu/tests/multi_disk.py`, with the number of images. What it puts in for
`n` depends on the position: the number itself, an end that far away, a step that makes as many
values, or the number of times each value is repeated. Step and repetition are quotients, which
are floating point numbers in between.

The quotients need a divisor, and to be exact enough: a range of no values cannot be repeated,
and beyond 53 digits a rounded quotient may give too few values.
-/

namespace TpQemu.StgParams

open Double Scan

/-! ## Numbers -/

/-- `sys.maxsize` -/
def maxsize : Int := 0x7FFFFFFFFFFFFFFF

/-- `len(range(a, b, c))` -/
def rangeLen (a b c : Int) : Except PyError Int := do
  let zs ← pyRange a b c
  if maxsize < zs.length then .error .overflowError else .ok zs.length

/-- `[z] * times` for every value. -/
def repeatEach (zs : List Int) (times : Int) : Except PyError (List Int) :=
  if zs ≠ [] ∧ maxsize < times then .error .overflowError
  else .ok (zs.flatMap (List.replicate times.toNat))

/-! ## The number of images put in -/

/-- `int(out[i])`, where `n` stands for a number. -/
def Arg.orElse (n : Except PyError Int) : Arg → Except PyError Int
  | .num z => .ok z
  | .n => n

/-- `(int(out[1]) - int(out[0])) / n`, as an integer. -/
def stepFor (a b n : Int) : Except PyError Int := truncate <$> trueDiv (b - a) n

/-- `n / _len`, and one more if there is a remainder, as an integer. -/
def timesFor (len n : Int) : Except PyError Int := do
  let quotient ← trueDiv n len
  let quotient ← if n % len ≠ 0 then asFloat (quotient + 1) else .ok quotient
  return truncate quotient

/-- The arguments as integers. An argument behind the fourth one is never put in. -/
def substitute (n : Int) : List Arg → Except PyError (List Int)
  | [] => .ok []
  | [arg0] => do
      let a ← arg0.orElse (.ok n)
      return [a]
  | [arg0, arg1] => do
      let a ← arg0.orElse (.ok n)
      let b ← arg1.orElse (.ok (a + n))
      return [a, b]
  | [arg0, arg1, arg2] => do
      let a ← arg0.orElse (.ok n)
      let b ← arg1.orElse (.ok (a + n))
      let c ← arg2.orElse (stepFor a b n)
      return [a, b, c]
  | arg0 :: arg1 :: arg2 :: arg3 :: more => do
      let a ← arg0.orElse (.ok n)
      let b ← arg1.orElse (.ok (a + n))
      let c ← arg2.orElse (stepFor a b n)
      let times ← arg3.orElse (rangeLen a b c >>= fun len => timesFor len n)
      let more ← orRaise .valueError (numbersOf more)
      return a :: b :: c :: times :: more

/-- The values of a range with one to four arguments. -/
def rangeValues : List Int → Except PyError (List Int)
  | [a] => pyRange 0 a 1
  | [a, b] => pyRange a b 1
  | [a, b, c] => pyRange a b c
  | [a, b, c, times] => do
      let zs ← pyRange a b c
      repeatEach zs times
  | _ => .error .valueError

/-- `_range(buf, n)`; no value stands for `False`. -/
def rangeFor (buf : Text) (n : Int) : Except PyError (Option (List Int)) :=
  match range1 buf with
  | none => .ok none
  | some first => do
      let out ← substitute n (first :: range2 buf)
      some <$> rangeValues out

/-! ## Texts of ranges -/

/-- An argument as a text. -/
inductive ArgText where
  | n
  | num (negative : Bool) (digits : Text) (nonempty : digits ≠ [])
      (digitsOnly : ∀ c ∈ digits, isDigit c = true)

def ArgText.text : ArgText → Text
  | .n => ['n']
  | .num negative digits _ _ => (if negative then ['-'] else []) ++ digits

def ArgText.value : ArgText → Arg
  | .n => .n
  | .num negative digits _ _ => .num (if negative then -natOf digits else natOf digits)

/-- The arguments of a range with the blanks before each of them. -/
abbrev RangeText := List (Nat × ArgText)

/-- The text behind the first argument. -/
def laterText (later : RangeText) : Text :=
  later.flatMap fun a => ',' :: (List.replicate a.1 ' ' ++ a.2.text)

/-- `range(a1,..,ak)` -/
def rangeText (first : Nat × ArgText) (later : RangeText) : Text :=
  "range(".toList ++ (List.replicate first.1 ' ' ++ first.2.text ++ (laterText later ++ [')']))

theorem arg_text (a : ArgText) {rest : Text} (h : Stops isDigit rest) :
    arg (a.text ++ rest) = some (a.value, rest) := by
  cases a with
  | n => rfl
  | num negative digits nonempty digitsOnly =>
      have hrun := run1_append digits rest nonempty digitsOnly h
      cases negative with
      | true =>
          show arg ('-' :: (digits ++ rest)) = _
          rw [arg, hrun]
          rfl
      | false =>
          obtain ⟨d, ds, rfl⟩ := List.exists_cons_of_ne_nil nonempty
          have hd := digitsOnly d List.mem_cons_self
          have hn : d ≠ 'n' := by
            rintro rfl
            exact absurd hd (by decide)
          have hminus : d ≠ '-' := by
            rintro rfl
            exact absurd hd (by decide)
          show arg (d :: ds ++ rest) = _
          rw [arg, hrun]
          · rfl
          · intro s hs
            exact hn (List.cons.inj hs).1
          · intro s hs
            exact hminus (List.cons.inj hs).1

theorem notMem_text {c : Char} (hn : c ≠ 'n') (hminus : c ≠ '-') (hdigit : isDigit c = false)
    (a : ArgText) : c ∉ a.text := by
  cases a with
  | n => simpa [ArgText.text] using hn
  | num negative digits nonempty digitsOnly =>
      rw [ArgText.text, List.mem_append]
      rintro (hc | hc)
      · cases negative with
        | true => exact hminus (List.mem_singleton.mp hc)
        | false => cases hc
      · rw [digitsOnly c hc] at hdigit
        cases hdigit

theorem dropWhile_blanks (k : Nat) (a : ArgText) (rest : Text) :
    (List.replicate k ' ' ++ (a.text ++ rest)).dropWhile (· = ' ') = a.text ++ rest := by
  have hne : a.text ≠ [] := by
    intro hnil
    have harg := arg_text a (stops_nil isDigit)
    rw [hnil] at harg
    cases harg
  obtain ⟨c, cs, hcs⟩ := List.exists_cons_of_ne_nil hne
  have hc : c ≠ ' ' := by
    rintro rfl
    exact notMem_text (by decide) (by decide) (by decide) a (hcs ▸ List.mem_cons_self)
  rw [List.dropWhile_append_of_pos fun b hb => by simpa using List.eq_of_mem_replicate hb, hcs]
  simp [hc]

theorem stops_laterText (later : RangeText) : Stops isDigit (laterText later ++ [')']) := by
  cases later with
  | nil => exact stops_cons (by decide) _
  | cons a later => exact stops_cons (by decide) _

theorem range2_append {s : Text} (h : ',' ∉ s) (rest : Text) :
    range2 (s ++ rest) = range2 rest := by
  induction s with
  | nil => rfl
  | cons c s ih =>
      have hc : c ≠ ',' := fun hc => h (hc ▸ List.mem_cons_self)
      rw [List.cons_append, range2, if_neg hc, ih fun hs => h (List.mem_cons_of_mem c hs)]
      rfl

theorem comma_notMem (k : Nat) (a : ArgText) : ',' ∉ List.replicate k ' ' ++ a.text := by
  rw [List.mem_append]
  rintro (hc | hc)
  · exact absurd (List.eq_of_mem_replicate hc) (by decide)
  · exact notMem_text (by decide) (by decide) (by decide) a hc

theorem range2_laterText (later : RangeText) :
    range2 (laterText later ++ [')']) = later.map fun a => a.2.value := by
  induction later with
  | nil => rfl
  | cons a later ih =>
      have hcons : laterText (a :: later) ++ [')'] =
          ',' :: (List.replicate a.1 ' ' ++ (a.2.text ++ (laterText later ++ [')']))) := by
        simp [laterText]
      rw [hcons, range2, if_pos rfl, dropWhile_blanks, arg_text a.2 (stops_laterText later),
        ← List.append_assoc, range2_append (comma_notMem a.1 a.2), ih]
      rfl

theorem oneLine_laterText (later : RangeText) :
    ∀ c ∈ laterText later ++ [')'], decide (c ≠ '\n') = true := by
  intro c hc
  refine decide_eq_true ?_
  rintro rfl
  rw [List.mem_append, laterText, List.mem_flatMap] at hc
  obtain ⟨a, -, hc⟩ | hc := hc
  · rw [List.mem_cons, List.mem_append] at hc
    obtain hc | hc | hc := hc
    · cases hc
    · exact absurd (List.eq_of_mem_replicate hc) (by decide)
    · exact notMem_text (by decide) (by decide) (by decide) a.2 hc
  · exact absurd (List.mem_singleton.mp hc) (by decide)

/-- The arguments are read as they were written. -/
theorem args_rangeText (first : Nat × ArgText) (later : RangeText) :
    range1 (rangeText first later) = some first.2.value ∧
      range2 (rangeText first later) = later.map fun a => a.2.value := by
  constructor
  · have hclose : ')' ∈ (laterText later ++ [')']).takeWhile (· ≠ '\n') := by
      rw [List.takeWhile_eq_self_iff.mpr (oneLine_laterText later)]
      exact List.mem_append_right _ List.mem_cons_self
    have hliteral : literal "range(".toList (rangeText first later) =
        some (List.replicate first.1 ' ' ++ first.2.text ++ (laterText later ++ [')'])) :=
      literal_append _ _
    rw [range1, hliteral]
    simp only [Option.bind_eq_bind, Option.bind_some, List.append_assoc]
    rw [dropWhile_blanks, arg_text first.2 (stops_laterText later)]
    simp only [Option.bind_some, if_pos hclose]
    rfl
  · have hname : ',' ∉ "range(".toList := by decide
    calc range2 (rangeText first later)
        = range2 (List.replicate first.1 ' ' ++ first.2.text ++ (laterText later ++ [')'])) :=
          range2_append hname _
      _ = range2 (laterText later ++ [')']) := range2_append (comma_notMem first.1 first.2) _
      _ = later.map fun a => a.2.value := range2_laterText later

/-! ## Lengths -/

/-- When a range has at least so many values. -/
theorem le_length_pyRange_iff {a b c n : Int} (hn : 1 ≤ n) (hc : c ≠ 0) :
    ∃ zs, pyRange a b c = .ok zs ∧
      (n ≤ zs.length ↔ (0 < c ∧ (n - 1) * c < b - a) ∨ (c < 0 ∧ (n - 1) * -c < a - b)) := by
  refine ⟨_, by rw [pyRange, if_neg hc], ?_⟩
  have hlength (count : Nat) :
      (List.map (fun i : Int => a + c * i) (do let i ← List.range count; pure (i : Int))).length =
        count := by
    simp
  rw [hlength]
  obtain hpos | hneg : 0 < c ∨ c < 0 := by omega
  · rw [if_pos hpos]
    have hcount : n ≤ (b - a + c - 1) / c ↔ n * c ≤ b - a + c - 1 := Int.le_ediv_iff_mul_le hpos
    have hmul : (n - 1) * c = n * c - c := by ring
    omega
  · rw [if_neg (by omega)]
    have hcount : n ≤ (a - b - c - 1) / (-c) ↔ n * -c ≤ a - b - c - 1 :=
      Int.le_ediv_iff_mul_le (by omega)
    have hmul : (n - 1) * -c = n * -c - -c := by ring
    omega

theorem length_repeat (zs : List Int) (times : Int) (h : 0 ≤ times) :
    ((zs.flatMap (List.replicate times.toNat)).length : Int) = zs.length * times := by
  have hlength : (zs.flatMap (List.replicate times.toNat)).length = zs.length * times.toNat := by
    rw [List.length_flatMap]
    simp
  rw [hlength]
  push_cast
  rw [Int.toNat_of_nonneg h]

/-! ## Quotients -/

/-- Integers up to this one are exact as floats. -/
def exactLimit : Int := 0x20000000000000

/-- A rounded step is small enough for `n` values. -/
theorem floor_magnitude_mul_lt {d n : Int} (hd : 0 < d) (hn : 1 ≤ n) (hexact : n ≤ exactLimit)
    (hstep : 0 < ⌊magnitude (d / n)⌋) : (n - 1) * ⌊magnitude (d / n)⌋ < d := by
  have hnpos : (0 : ℚ) < n := by exact_mod_cast hn
  have hquotient : (0 : ℚ) < d / n := div_pos (by exact_mod_cast hd) hnpos
  have hfloor : (⌊magnitude (d / n)⌋ : ℚ) ≤ magnitude (d / n) := Int.floor_le _
  have hone : (1 : ℚ) ≤ ⌊magnitude (d / n)⌋ := by exact_mod_cast hstep
  have hlt := magnitude_lt hquotient (hone.trans hfloor)
  have hmul : (0x20000000000000 : ℚ) * (d / n) * n = 0x20000000000000 * d := by
    rw [mul_assoc, div_mul_cancel₀ _ hnpos.ne']
  have hlt' : (⌊magnitude (d / n)⌋ : ℚ) * 0x1FFFFFFFFFFFFF * n < 0x20000000000000 * d := by
    rw [← hmul]
    refine mul_lt_mul_of_pos_right (lt_of_le_of_lt ?_ hlt) hnpos
    exact mul_le_mul_of_nonneg_right hfloor (by norm_num)
  have hint : ⌊magnitude (d / n)⌋ * 0x1FFFFFFFFFFFFF * n < 0x20000000000000 * d := by
    exact_mod_cast hlt'
  generalize ⌊magnitude (d / n)⌋ = c at hint hstep
  have hle : c * n ≤ c * 0x20000000000000 := Int.mul_le_mul_of_nonneg_left hexact hstep.le
  have hexpand : (n - 1) * c * 0x20000000000000 =
      c * 0x1FFFFFFFFFFFFF * n + c * n - c * 0x20000000000000 := by ring
  omega

/-- The step has the direction of the range, and is exact enough for small numbers. -/
theorem stepFor_eq_ok {a b n c : Int} (hn : 1 ≤ n) (h : stepFor a b n = .ok c) :
    (0 < c → 0 < b - a ∧ (n ≤ exactLimit → (n - 1) * c < b - a)) ∧
      (c < 0 → 0 < a - b ∧ (n ≤ exactLimit → (n - 1) * -c < a - b)) := by
  have hnpos : (0 : ℚ) < n := by exact_mod_cast hn
  rw [stepFor, trueDiv, if_neg (by omega)] at h
  cases hfloat : asFloat (((b - a : Int) : ℚ) / n) with
  | error e =>
      rw [hfloat] at h
      cases h
  | ok x =>
      rw [hfloat, asFloat_eq_ok hfloat] at h
      have hc : truncate (toDouble (((b - a : Int) : ℚ) / n)) = c := Except.ok.inj h
      rw [truncate_toDouble] at hc
      by_cases hneg : (((b - a : Int) : ℚ) / n) < 0
      · have hdir : 0 < a - b := by
          have hlt := (div_neg_iff.mp hneg).resolve_left fun h => absurd h.2 (by linarith)
          have hlt' : b - a < 0 := by exact_mod_cast hlt.1
          omega
        have hswap : -(((b - a : Int) : ℚ) / n) = ((a - b : Int) : ℚ) / n := by
          push_cast
          ring
        rw [if_pos hneg, hswap] at hc
        have hnonneg : 0 ≤ ⌊magnitude (((a - b : Int) : ℚ) / n)⌋ := by
          refine Int.floor_nonneg.mpr (magnitude_nonneg (div_nonneg ?_ hnpos.le))
          exact_mod_cast hdir.le
        refine ⟨fun hpos => by omega, fun hlt => ⟨hdir, fun hexact => ?_⟩⟩
        rw [← hc, neg_neg]
        exact floor_magnitude_mul_lt hdir hn hexact (by omega)
      · rw [if_neg hneg] at hc
        have hnonneg' : 0 ≤ ⌊magnitude (((b - a : Int) : ℚ) / n)⌋ :=
          Int.floor_nonneg.mpr (magnitude_nonneg (not_lt.mp hneg))
        refine ⟨fun hpos => ?_, fun hlt => by omega⟩
        have hdir : 0 < b - a := by
          by_contra hle
          have hzero : ((b - a : Int) : ℚ) / n = 0 := by
            have hle' : ((b - a : Int) : ℚ) ≤ 0 := by exact_mod_cast not_lt.mp hle
            exact le_antisymm (div_nonpos_of_nonpos_of_nonneg hle' hnpos.le) (not_lt.mp hneg)
          rw [hzero, magnitude_zero, Int.floor_zero] at hc
          omega
        refine ⟨hdir, fun hexact => ?_⟩
        rw [← hc]
        exact floor_magnitude_mul_lt hdir hn hexact (by omega)

theorem timesFor_eq {len n : Int} {quotient : ℚ} (h : trueDiv n len = .ok quotient) :
    timesFor len n =
      if n % len ≠ 0 then truncate <$> asFloat (quotient + 1) else .ok (truncate quotient) := by
  rw [timesFor, h]
  split_ifs with hrem
  · simp only [bind, Except.bind]
    cases asFloat (quotient + 1) with
    | error e => rfl
    | ok x => rfl
  · simp only [bind, Except.bind]
    rfl

theorem truncate_of_nonneg {x : ℚ} (h : 0 ≤ x) : truncate x = ⌊x⌋ := if_neg h.not_gt

/-- A quotient that is not below an exact number of repetitions. -/
theorem truncate_covers {x : ℚ} {k len n : Int} (hnonneg : 0 ≤ x) (hlow : (k : ℚ) ≤ x)
    (hlt : x < 0x7FFFFFFFFFFFFFFF) (hlen : 0 ≤ len) (hn : n ≤ len * k) :
    truncate x ≤ maxsize ∧ n ≤ len * truncate x := by
  rw [truncate_of_nonneg hnonneg]
  constructor
  · have hsmall : ⌊x⌋ < 0x7FFFFFFFFFFFFFFF := Int.floor_lt.mpr (by push_cast; exact hlt)
    exact hsmall.le
  · have htimes : k ≤ ⌊x⌋ := Int.le_floor.mpr hlow
    exact hn.trans (Int.mul_le_mul_of_nonneg_left htimes hlen)

/-- For small numbers every value is repeated often enough. -/
theorem timesFor_exact {len n : Int} (hlen : 0 < len) (hn : 1 ≤ n) (hexact : n ≤ exactLimit) :
    ∃ times, timesFor len n = .ok times ∧ times ≤ maxsize ∧ n ≤ len * times := by
  have hlen' : (0 : ℚ) < len := by exact_mod_cast hlen
  have hlen1 : (1 : ℚ) ≤ len := by exact_mod_cast hlen
  have hn' : (1 : ℚ) ≤ n := by exact_mod_cast hn
  have hexact' : (n : ℚ) ≤ 0x20000000000000 := by exact_mod_cast hexact
  have hquotient : (0 : ℚ) < n / len := div_pos (by linarith) hlen'
  have hle : (n : ℚ) / len ≤ n := div_le_self (by linarith) hlen1
  obtain ⟨hfloat, hlt⟩ := asFloat_of_lt hquotient hle hn' (by linarith)
  have hdiv : ((n / len : Int) : ℚ) ≤ n / len := by
    rw [le_div_iff₀ hlen']
    exact_mod_cast Int.ediv_mul_le n hlen.ne'
  have hfloor : n / len ≤ exactLimit := (Int.ediv_le_self _ (by omega)).trans hexact
  have hlow : ((n / len : Int) : ℚ) ≤ magnitude (n / len) := le_magnitude hfloor hdiv hquotient
  have hsplit := Int.mul_ediv_add_emod n len
  have hmod := Int.emod_lt_of_pos n hlen
  have hmod' := Int.emod_nonneg n hlen.ne'
  have hdouble := magnitude_nonneg hquotient.le
  have htrueDiv : trueDiv n len = .ok (magnitude (n / len)) := by
    rw [trueDiv, if_neg hlen.ne', hfloat]
  rw [timesFor_eq htrueDiv]
  by_cases hrem : n % len = 0
  · rw [if_neg (not_not.mpr hrem)]
    exact ⟨_, rfl, truncate_covers hdouble hlow (by linarith) hlen.le (by omega)⟩
  · -- The remainder makes the range shorter than the number, so one more is still exact.
    have hnext : n / len + 1 ≤ exactLimit := by
      have hlen2 : 2 ≤ len := by
        by_contra hlt
        obtain rfl : len = 1 := by omega
        exact hrem (Int.emod_one n)
      have hmul : 2 * (n / len) ≤ len * (n / len) :=
        Int.mul_le_mul_of_nonneg_right hlen2 (Int.ediv_nonneg (by omega) hlen.le)
      rw [exactLimit] at hexact ⊢
      omega
    have hsum : (0 : ℚ) < magnitude (n / len) + 1 := by linarith
    obtain ⟨hfloat', hlt'⟩ := asFloat_of_lt hsum (le_refl _) (by linarith) (by linarith)
    have hlow' : ((n / len + 1 : Int) : ℚ) ≤ magnitude (magnitude (n / len) + 1) :=
      le_magnitude hnext (by push_cast at hlow ⊢; linarith) hsum
    rw [if_pos hrem, hfloat']
    have hexpand : len * (n / len + 1) = len * (n / len) + len := by ring
    exact ⟨_, rfl, truncate_covers (magnitude_nonneg hsum.le) hlow' (by linarith) hlen.le
      (by omega)⟩

/-! ## Enough values -/

/-- The documented error, or at least so many values. -/
def Covers (n : Int) : Except PyError (Option (List Int)) → Prop
  | .ok (some zs) => n ≤ zs.length
  | .ok none => False
  | .error e => e = .valueError

/-- The number that an argument stands for. -/
def Arg.getD (n : Int) : Arg → Int
  | .num z => z
  | .n => n

/-- The step for `n` values is a float, and not rounded up too far. -/
def StepExact (a b n : Int) : Prop :=
  ∃ c, stepFor a b n = .ok c ∧ (n ≤ exactLimit ∨ c = 0 ∨ (n - 1) * |c| < |b - a|)

/-- There are values to be repeated, not too many for `len`, and the quotient is not rounded
down too far. -/
def TimesExact (a b c n : Int) : Prop :=
  ∃ len, rangeLen a b c = .ok len ∧ 0 < len ∧ (n ≤ exactLimit ∨
    ∃ times, timesFor len n = .ok times ∧ times ≤ maxsize ∧ n ≤ len * times)

/-- When a range that ends with `n` gives enough values: always with one or two arguments. -/
def EnoughFor (n : Int) : List Arg → Prop
  | [arg0, arg1, _] =>
      let a := arg0.getD n
      StepExact a (arg1.getD (a + n)) n
  | [arg0, arg1, arg2, _] =>
      let a := arg0.getD n
      let b := arg1.getD (a + n)
      ∃ c, arg2.orElse (stepFor a b n) = .ok c ∧ (c = 0 ∨ TimesExact a b c n)
  | _ => True

theorem orElse_ok (z : Int) (arg : Arg) : arg.orElse (.ok z) = .ok (arg.getD z) := by
  cases arg with
  | num z' => rfl
  | n => rfl

section Cases

variable {n : Int}

/-- Divisions do not raise the documented error. -/
theorem trueDiv_ne_valueError (a b : Int) : trueDiv a b ≠ .error .valueError := by
  rw [trueDiv, asFloat]
  split_ifs <;> exact fun h => by cases h

theorem stepFor_ne_valueError (a b n : Int) : stepFor a b n ≠ .error .valueError := by
  have hdiv := trueDiv_ne_valueError (b - a) n
  rw [stepFor]
  generalize trueDiv (b - a) n = result at hdiv
  cases result with
  | error e =>
      intro h
      exact hdiv (congrArg _ (Except.error.inj h))
  | ok x => exact fun h => by cases h

theorem timesFor_ne_valueError (len n : Int) : timesFor len n ≠ .error .valueError := by
  cases hdiv : trueDiv n len with
  | error e =>
      intro h
      rw [timesFor, hdiv] at h
      refine trueDiv_ne_valueError n len (hdiv.trans (congrArg _ (Except.error.inj h)))
  | ok quotient =>
      rw [timesFor_eq hdiv, asFloat]
      split_ifs <;> exact fun h => by cases h

theorem covers_end (hn : 1 ≤ n) (a : Int) : Covers n (some <$> pyRange a (a + n) 1) := by
  obtain ⟨zs, hzs, hiff⟩ := le_length_pyRange_iff (a := a) (b := a + n) hn one_ne_zero
  rw [hzs]
  exact hiff.mpr (.inl ⟨one_pos, by omega⟩)

/-- Three arguments. -/
theorem covers_step_iff (hn : 1 ≤ n) (a b : Int) :
    Covers n (stepFor a b n >>= fun c => some <$> pyRange a b c) ↔ StepExact a b n := by
  rw [StepExact]
  cases hstep : stepFor a b n with
  | error e =>
      refine iff_of_false (fun he => ?_) fun ⟨c, hc, _⟩ => by cases hc
      exact stepFor_ne_valueError a b n (hstep.trans (congrArg _ he))
  | ok c =>
      show Covers n (some <$> pyRange a b c) ↔ _
      by_cases hc : c = 0
      · subst hc
        exact iff_of_true rfl ⟨0, rfl, .inr (.inl rfl)⟩
      · obtain ⟨zs, hzs, hiff⟩ := le_length_pyRange_iff (a := a) (b := b) hn hc
        obtain ⟨hforward, hbackward⟩ := stepFor_eq_ok hn hstep
        have hexact : (∃ c', (.ok c : Except PyError Int) = .ok c' ∧
            (n ≤ exactLimit ∨ c' = 0 ∨ (n - 1) * |c'| < |b - a|)) ↔
              n ≤ exactLimit ∨ (n - 1) * |c| < |b - a| := by
          simp [hc]
        rw [hzs, hexact]
        show n ≤ zs.length ↔ _
        rw [hiff]
        obtain hpos | hneg : 0 < c ∨ c < 0 := by omega
        · obtain ⟨hdir, hsmall⟩ := hforward hpos
          rw [abs_of_pos hpos, abs_of_pos hdir]
          constructor
          · rintro (⟨-, h⟩ | ⟨h, -⟩)
            · exact .inr h
            · omega
          · rintro (h | h)
            · exact .inl ⟨hpos, hsmall h⟩
            · exact .inl ⟨hpos, h⟩
        · obtain ⟨hdir, hsmall⟩ := hbackward hneg
          rw [abs_of_neg hneg, abs_of_neg (show b - a < 0 by omega), neg_sub]
          constructor
          · rintro (⟨h, -⟩ | ⟨-, h⟩)
            · omega
            · exact .inr h
          · rintro (h | h)
            · exact .inr ⟨hneg, hsmall h⟩
            · exact .inr ⟨hneg, h⟩

/-- The values of a range, each repeated. -/
theorem covers_repeat_iff (hn : 1 ≤ n) {zs : List Int} (hzs : zs ≠ []) (times : Int) :
    Covers n (some <$> repeatEach zs times) ↔ times ≤ maxsize ∧ n ≤ zs.length * times := by
  rw [repeatEach]
  by_cases hlarge : maxsize < times
  · rw [if_pos ⟨hzs, hlarge⟩]
    exact iff_of_false (fun h => by cases h) fun h => by omega
  · rw [if_neg fun h => hlarge h.2, and_iff_right (not_lt.mp hlarge)]
    show n ≤ ((zs.flatMap (List.replicate times.toNat)).length : Int) ↔ _
    by_cases htimes : 0 ≤ times
    · rw [length_repeat zs times htimes]
    · have hproduct : (zs.length : Int) * times ≤ 0 :=
        Int.mul_nonpos_of_nonneg_of_nonpos (Int.natCast_nonneg _) (by omega)
      rw [Int.toNat_of_nonpos (by omega)]
      refine iff_of_false (fun h => ?_) (by omega)
      simp at h
      omega

/-- Four arguments, once the step is known. -/
theorem covers_times_iff (hn : 1 ≤ n) (a b c : Int) :
    Covers n ((rangeLen a b c >>= fun len => timesFor len n) >>= fun times =>
        some <$> (pyRange a b c >>= fun zs => repeatEach zs times)) ↔
      c = 0 ∨ TimesExact a b c n := by
  by_cases hc : c = 0
  · subst hc
    exact iff_of_true rfl (.inl rfl)
  rw [or_iff_right hc, TimesExact]
  obtain ⟨zs, hzs, -⟩ := le_length_pyRange_iff (a := a) (b := b) hn hc
  have hlen : rangeLen a b c =
      if maxsize < zs.length then .error .overflowError else .ok (zs.length : Int) := by
    rw [rangeLen, hzs]
    rfl
  rw [hlen, hzs]
  by_cases hlarge : maxsize < zs.length
  · rw [if_pos hlarge]
    exact iff_of_false (fun h => by cases h) fun ⟨len, h, _⟩ => by cases h
  rw [if_neg hlarge]
  show Covers n (timesFor zs.length n >>= fun times => some <$> repeatEach zs times) ↔ _
  by_cases hnil : zs = []
  · -- The division by the length raises.
    subst hnil
    refine iff_of_false (fun h => by cases h) ?_
    rintro ⟨len, hlen, hpos, -⟩
    cases hlen
    exact absurd hpos (by decide)
  have hpos : 0 < (zs.length : Int) := by exact_mod_cast List.length_pos_iff.mpr hnil
  have hexact : (∃ len, (.ok (zs.length : Int) : Except PyError Int) = .ok len ∧ 0 < len ∧
      (n ≤ exactLimit ∨ ∃ times, timesFor len n = .ok times ∧ times ≤ maxsize ∧
        n ≤ len * times)) ↔
      ∃ times, timesFor zs.length n = .ok times ∧ times ≤ maxsize ∧ n ≤ zs.length * times := by
    constructor
    · rintro ⟨len, hlen, hpos, hsmall | htimes⟩
      · cases hlen
        exact timesFor_exact hpos hn hsmall
      · cases hlen
        exact htimes
    · intro htimes
      exact ⟨zs.length, rfl, hpos, .inr htimes⟩
  rw [hexact]
  cases htimes : timesFor zs.length n with
  | error e =>
      refine iff_of_false (fun he => ?_) fun ⟨times, h, _⟩ => by cases h
      exact timesFor_ne_valueError zs.length n (htimes.trans (congrArg _ he))
  | ok times =>
      show Covers n (some <$> repeatEach zs times) ↔ _
      rw [covers_repeat_iff hn hnil]
      constructor
      · intro h
        exact ⟨times, rfl, h⟩
      · rintro ⟨times', htimes', h⟩
        cases htimes'
        exact h

/-- The values of a range with these arguments. -/
def valuesFor (n : Int) (args : List Arg) : Except PyError (Option (List Int)) :=
  substitute n args >>= fun out => some <$> rangeValues out

theorem valuesFor_two (arg0 : Arg) :
    valuesFor n [arg0, .n] = some <$> pyRange (arg0.getD n) (arg0.getD n + n) 1 := by
  rw [valuesFor, substitute, orElse_ok]
  rfl

theorem valuesFor_three (arg0 arg1 : Arg) :
    valuesFor n [arg0, arg1, .n] =
      stepFor (arg0.getD n) (arg1.getD (arg0.getD n + n)) n >>= fun c =>
        some <$> pyRange (arg0.getD n) (arg1.getD (arg0.getD n + n)) c := by
  rw [valuesFor, substitute, orElse_ok]
  simp only [bind, Except.bind, orElse_ok]
  simp only [Arg.orElse]
  cases stepFor (arg0.getD n) (arg1.getD (arg0.getD n + n)) n with
  | error e => rfl
  | ok c => rfl

theorem valuesFor_four (arg0 arg1 arg2 : Arg) {c : Int}
    (hc : arg2.orElse (stepFor (arg0.getD n) (arg1.getD (arg0.getD n + n)) n) = .ok c) :
    valuesFor n [arg0, arg1, arg2, .n] =
      ((rangeLen (arg0.getD n) (arg1.getD (arg0.getD n + n)) c >>= fun len => timesFor len n) >>=
        fun times => some <$> (pyRange (arg0.getD n) (arg1.getD (arg0.getD n + n)) c >>= fun zs =>
          repeatEach zs times)) := by
  rw [valuesFor, substitute, orElse_ok]
  simp only [bind, Except.bind, orElse_ok, hc]
  simp only [Arg.orElse]
  cases rangeLen (arg0.getD n) (arg1.getD (arg0.getD n + n)) c with
  | error e => rfl
  | ok len =>
      dsimp only
      cases timesFor len n with
      | error e => rfl
      | ok times => rfl

theorem valuesFor_four_error (arg0 arg1 arg2 : Arg) {e : PyError}
    (he : arg2.orElse (stepFor (arg0.getD n) (arg1.getD (arg0.getD n + n)) n) = .error e) :
    valuesFor n [arg0, arg1, arg2, .n] = .error e := by
  rw [valuesFor, substitute, orElse_ok]
  simp only [bind, Except.bind, orElse_ok, he]

theorem covers_four_iff (hn : 1 ≤ n) (arg0 arg1 arg2 : Arg) :
    Covers n (valuesFor n [arg0, arg1, arg2, .n]) ↔ EnoughFor n [arg0, arg1, arg2, .n] := by
  rw [EnoughFor]
  cases hc : arg2.orElse (stepFor (arg0.getD n) (arg1.getD (arg0.getD n + n)) n) with
  | error e =>
      rw [valuesFor_four_error arg0 arg1 arg2 hc]
      refine iff_of_false (fun he => ?_) fun ⟨c, h, _⟩ => by cases h
      cases arg2 with
      | num z => cases hc
      | n => exact stepFor_ne_valueError _ _ n (hc.trans (congrArg _ he))
  | ok c =>
      rw [valuesFor_four arg0 arg1 arg2 hc, covers_times_iff hn]
      constructor
      · intro h
        exact ⟨c, rfl, h⟩
      · rintro ⟨c', hc', h⟩
        cases hc'
        exact h

end Cases

/-- A range that ends with `n` raises the documented error or has a value for every image exactly
when the quotients it needs exist and are exact enough. -/
theorem range_covers_iff (n : Int) (hn : 1 ≤ n) (first : Nat × ArgText) (later : RangeText)
    (hlater : later.length ≤ 3) (hlast : (first :: later).getLast?.map Prod.snd = some .n) :
    Covers n (rangeFor (rangeText first later) n) ↔
      EnoughFor n (first.2.value :: later.map fun a => a.2.value) := by
  obtain ⟨hfirst, hrest⟩ := args_rangeText first later
  have hvalues : rangeFor (rangeText first later) n =
      valuesFor n (first.2.value :: later.map fun a => a.2.value) := by
    rw [rangeFor, hfirst, hrest]
    rfl
  have hvalue {a : Nat × ArgText} (ha : a.2 = .n) : a.2.value = .n := by
    rw [ha]
    rfl
  rw [hvalues]
  obtain _ | ⟨a, _ | ⟨b, _ | ⟨c, _ | ⟨d, more⟩⟩⟩⟩ := later
  · have hfirst : first.2.value = .n := hvalue (Option.some.inj hlast)
    rw [List.map_nil, hfirst]
    refine iff_of_true ?_ trivial
    have hend := covers_end hn 0
    rwa [zero_add] at hend
  · have ha : a.2.value = .n := hvalue (Option.some.inj hlast)
    rw [List.map_singleton, ha, valuesFor_two]
    exact iff_of_true (covers_end hn _) trivial
  · have hb : b.2.value = .n := hvalue (Option.some.inj hlast)
    rw [List.map_cons, List.map_singleton, hb, valuesFor_three]
    exact covers_step_iff hn _ _
  · have hc : c.2.value = .n := hvalue (Option.some.inj hlast)
    rw [List.map_cons, List.map_cons, List.map_singleton, hc]
    exact covers_four_iff hn _ _ _
  · simp only [List.length_cons] at hlater
    omega

/-- A number as it is written in a range. -/
def digitText (d : Char) (h : isDigit d = true) : Nat × ArgText :=
  (0, .num false [d] (List.cons_ne_nil d []) fun _ hc => List.mem_singleton.mp hc ▸ h)

/-- Three values for six images. -/
theorem range_covers_six :
    Covers 6 (rangeFor (rangeText (digitText '2' (by decide))
      [digitText '5' (by decide), digitText '1' (by decide), (0, .n)]) 6) := by
  refine (range_covers_iff 6 (by decide) _ _ (by decide) rfl).mpr ?_
  refine ⟨1, rfl, .inr ⟨3, rfl, by decide, .inl (by decide)⟩⟩

/-- There is nothing to repeat in a range that runs the wrong way. -/
theorem empty_range_raises :
    rangeText (digitText '5' (by decide))
        [digitText '2' (by decide), digitText '1' (by decide), (0, .n)] =
      "range(5,2,1,n)".toList ∧
    rangeFor "range(5,2,1,n)".toList 6 = .error .zeroDivisionError ∧
    ¬Covers 6 (rangeFor "range(5,2,1,n)".toList 6) := by
  have hrange : rangeFor "range(5,2,1,n)".toList 6 = .error .zeroDivisionError := by rfl
  refine ⟨by decide, hrange, ?_⟩
  rw [hrange]
  intro h
  cases h

end TpQemu.StgParams

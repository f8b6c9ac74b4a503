import Mathlib.Algebra.Group.Int.Defs
import Mathlib.Algebra.Group.Nat.Defs
import TpQemu.Lib.Numeral
import TpQemu.Lib.Scan

/-!
# The set of CPUs as text

`parse_cpu_set` of `checktsc.c` reads ranges of CPU numbers, such as `0,2,4-7`. Its numbers are
those of `strtol` for base 0, with the prefixes of C.
-/

namespace TpQemu.TscCheck

open Scan

/-- `isspace` of the C locale. -/
def isBlank (c : Char) : Bool := c = ' ' || (9 ≤ c.toNat && c.toNat ≤ 13)

/-- The value of a digit; 16 for any other character. -/
def digitValue (c : Char) : Nat :=
  if 48 ≤ c.toNat ∧ c.toNat ≤ 57 then c.toNat - 48
  else if 97 ≤ c.toNat ∧ c.toNat ≤ 102 then c.toNat - 87
  else if 65 ≤ c.toNat ∧ c.toNat ≤ 70 then c.toNat - 55
  else 16

def isDigitOf (base : Nat) (c : Char) : Bool := digitValue c < base

def digitsValue (base : Nat) (cs : List Char) : Nat :=
  cs.foldl (fun n c => n * base + digitValue c) 0

/-- A number in a base, and the rest of the text. -/
def digits (base : Nat) (s : List Char) : Option (Nat × List Char) :=
  (run1 (isDigitOf base) s).map fun r => (digitsValue base r.1, r.2)

/-- The digits behind `0x`. -/
def hexDigits : List Char → Option (Nat × List Char)
  | x :: ds => if x = 'x' ∨ x = 'X' then digits 16 ds else none
  | [] => none

/-- The base is told by the prefix. A `0x` without digits is the number 0. -/
def magnitude : List Char → Option (Nat × List Char)
  | '0' :: ds => (hexDigits ds).or (digits 8 ('0' :: ds))
  | s => digits 10 s

/-- A `long` stays in its range. -/
def clamp (z : Int) : Int := max (-2 ^ 63) (min z (2 ^ 63 - 1))

/-- `strtol(s, &next, 0)`; none if it converts nothing. -/
def strtol (s : List Char) : Option (Int × List Char) :=
  match s.dropWhile isBlank with
  | '-' :: ds => (magnitude ds).map fun r => (clamp (-(r.1 : Int)), r.2)
  | '+' :: ds => (magnitude ds).map fun r => (clamp r.1, r.2)
  | ds => (magnitude ds).map fun r => (clamp r.1, r.2)

/-- `(int)` of a `long`. -/
def toInt (z : Int) : Int := (BitVec.ofInt 32 z).toInt

def cpuSetsize : Nat := 1024

inductive SetError where
  | number (cpu : Int)
  | range (start stop : Int)
  | character (c : Char)
  deriving DecidableEq

def SetError.message : SetError → String
  | .number cpu => "bad cpu number '" ++ toString cpu ++ "' in cpu set"
  | .range start stop =>
      "bad cpu range '" ++ toString start ++ "-" ++ toString stop ++ "' in cpu set"
  | .character c => "unexpected character '" ++ c.toString ++ "' in cpu set"

/-- What one round of the loop finds: nothing it can read from where it stands, numbers that it
refuses, or a range. -/
inductive Item where
  | stop (rest : List Char)
  | bad (e : SetError)
  | range (start stop : Nat) (rest : List Char)

/-- The checks of a range. -/
def checkRange (start stop : Int) (rest : List Char) : Item :=
  if start < 0 ∨ cpuSetsize ≤ start then .bad (.number start)
  else if stop < 0 ∨ cpuSetsize ≤ stop then .bad (.number stop)
  else if stop < start then .bad (.range start stop)
  else .range start.toNat stop.toNat rest

/-- A comma is passed over, also at the end. -/
def skipComma : List Char → List Char
  | ',' :: rest => rest
  | rest => rest

/-- One round of the loop. -/
def item (s : List Char) : Item :=
  match strtol s with
  | none => .stop s
  | some (start, '-' :: rest) =>
      match strtol rest with
      | none => .stop rest
      | some (stop, rest) => checkRange (toInt start) (toInt stop) (skipComma rest)
  | some (start, rest) => checkRange (toInt start) (toInt start) (skipComma rest)

theorem length_digits {base n : Nat} {s rest : List Char} (h : digits base s = some (n, rest)) :
    rest.length < s.length := by
  obtain ⟨⟨run, rest'⟩, hrun, heq⟩ := Option.map_eq_some_iff.mp h
  cases heq
  rw [run1] at hrun
  split at hrun
  · cases hrun
  · rename_i hne
    cases hrun
    have hsplit := congrArg List.length
      (List.takeWhile_append_dropWhile (p := isDigitOf base) (l := s))
    have hpos := List.length_pos_iff.mpr hne
    rw [List.length_append] at hsplit
    dsimp only
    omega

theorem length_magnitude {n : Nat} {s rest : List Char} (h : magnitude s = some (n, rest)) :
    rest.length < s.length := by
  unfold magnitude at h
  split at h
  · rename_i ds
    obtain hhex | ⟨-, hoct⟩ := Option.or_eq_some_iff.mp h
    · unfold hexDigits at hhex
      split at hhex
      · split at hhex
        · have hlt := length_digits hhex
          simp only [List.length_cons]
          omega
        · cases hhex
      · cases hhex
    · exact length_digits hoct
  · exact length_digits h

theorem length_strtol {z : Int} {s rest : List Char} (h : strtol s = some (z, rest)) :
    rest.length < s.length := by
  have hdrop : (s.dropWhile isBlank).length ≤ s.length := (List.dropWhile_sublist _).length_le
  unfold strtol at h
  split at h
  all_goals
    obtain ⟨⟨n, rest'⟩, hmagnitude, heq⟩ := Option.map_eq_some_iff.mp h
    cases heq
    have hlt := length_magnitude hmagnitude
    simp_all only [List.length_cons]
    omega

theorem length_skipComma (s : List Char) : (skipComma s).length ≤ s.length := by
  unfold skipComma
  split
  · exact Nat.le_succ _
  · exact Nat.le_refl _

theorem checkRange_eq_range {start stop : Int} {rest rest' : List Char} {a b : Nat}
    (h : checkRange start stop rest = .range a b rest') :
    rest' = rest ∧ a ≤ b ∧ b < cpuSetsize := by
  unfold checkRange at h
  split at h
  · cases h
  split at h
  · cases h
  split at h
  · cases h
  cases h
  exact ⟨rfl, by omega, by omega⟩

theorem item_eq_range {s rest : List Char} {a b : Nat} (h : item s = .range a b rest) :
    rest.length < s.length ∧ a ≤ b ∧ b < cpuSetsize := by
  unfold item at h
  split at h
  · cases h
  · rename_i start rest₁ hstart
    split at h
    · cases h
    · rename_i stop rest₂ hstop
      obtain ⟨rfl, hbounds⟩ := checkRange_eq_range h
      have hfirst := length_strtol hstart
      have hsecond := length_strtol hstop
      have hskip := length_skipComma rest₂
      rw [List.length_cons] at hfirst
      exact ⟨by omega, hbounds⟩
  · rename_i start rest₁ _ hstart
    obtain ⟨rfl, hbounds⟩ := checkRange_eq_range h
    have hfirst := length_strtol hstart
    have hskip := length_skipComma rest₁
    exact ⟨by omega, hbounds⟩

theorem item_number {start : Int} {s rest : List Char} (hstart : strtol s = some (start, rest))
    (hminus : ∀ cs, rest ≠ '-' :: cs) :
    item s = checkRange (toInt start) (toInt start) (skipComma rest) := by
  unfold item
  rw [hstart]
  split
  · rename_i heq
    cases heq
  · rename_i heq
    cases heq
    exact absurd rfl (hminus _)
  · rename_i heq
    cases heq
    rfl

theorem item_range {start stop : Int} {s rest rest' : List Char}
    (hstart : strtol s = some (start, '-' :: rest)) (hstop : strtol rest = some (stop, rest')) :
    item s = checkRange (toInt start) (toInt stop) (skipComma rest') := by
  simp only [item, hstart, hstop]

/-- `CPU_SET` for each number of the range. -/
def addRange (start stop : Nat) (cpus : Nat → Bool) (n : Nat) : Bool :=
  cpus n || (start ≤ n && n ≤ stop)

/-- The loop, and the check behind it that the whole text has been read. -/
def parseLoop (s : List Char) (cpus : Nat → Bool) : Except SetError (Nat → Bool) :=
  match _hitem : item s with
  | .stop [] => .ok cpus
  | .stop (c :: _) => .error (.character c)
  | .bad e => .error e
  | .range start stop rest => parseLoop rest (addRange start stop cpus)
termination_by s.length
decreasing_by exact (item_eq_range _hitem).1

def parseCpuSet (s : List Char) : Except SetError (Nat → Bool) := parseLoop s fun _ => false

theorem parseLoop_stop {s : List Char} {cpus : Nat → Bool} (h : item s = .stop []) :
    parseLoop s cpus = .ok cpus := by
  unfold parseLoop
  split <;> simp_all

theorem parseLoop_range {s rest : List Char} {start stop : Nat} {cpus : Nat → Bool}
    (h : item s = .range start stop rest) :
    parseLoop s cpus = parseLoop rest (addRange start stop cpus) := by
  rw [parseLoop]
  split <;> simp_all

/-! ## Written sets -/

theorem digitValue_digitChar {d : Nat} (h : d < 10) : digitValue (Nat.digitChar d) = d := by
  interval_cases d <;> decide

theorem digitsValue_toDigits (n : Nat) : digitsValue 10 (Nat.toDigits 10 n) = n := by
  induction n using Nat.strongRecOn with
  | ind n ih =>
      rw [Nat.toDigits_eq_if (by decide)]
      split
      · rename_i hn
        have hvalue := digitValue_digitChar hn
        simpa [digitsValue] using hvalue
      · have hlt : n / 10 < n := Nat.div_lt_self (by omega) (by decide)
        have hprefix := ih _ hlt
        rw [digitsValue] at hprefix ⊢
        rw [List.foldl_append, hprefix, List.foldl_cons, List.foldl_nil,
          digitValue_digitChar (Nat.mod_lt n (by decide))]
        omega

/-- A number is written without leading zeros. -/
theorem head_toDigits {n : Nat} (hn : 0 < n) : ∃ c cs, Nat.toDigits 10 n = c :: cs ∧ c ≠ '0' := by
  induction n using Nat.strongRecOn with
  | ind n ih =>
      rw [Nat.toDigits_eq_if (by decide)]
      split
      · refine ⟨_, [], rfl, ?_⟩
        interval_cases n <;> decide
      · obtain ⟨c, cs, hcs, hc⟩ := ih (n / 10) (Nat.div_lt_self hn (by decide)) (by omega)
        rw [hcs]
        exact ⟨c, _, rfl, hc⟩

theorem isDigitOf_of_isDigit {c : Char} (h : c.isDigit) : isDigitOf 10 c = true := by
  have hc : 48 ≤ c.toNat ∧ c.toNat ≤ 57 := by
    simpa [Char.isDigit, UInt32.le_iff_toNat_le] using h
  rw [isDigitOf, digitValue, if_pos hc, decide_eq_true_eq]
  omega

theorem isBlank_eq_false_of_isDigit {c : Char} (h : c.isDigit) : isBlank c = false := by
  have hc : 48 ≤ c.toNat ∧ c.toNat ≤ 57 := by
    simpa [Char.isDigit, UInt32.le_iff_toNat_le] using h
  have hspace : c ≠ ' ' := by
    rintro rfl
    exact absurd hc (by decide)
  simp only [isBlank, Bool.or_eq_false_iff, Bool.and_eq_false_iff, decide_eq_false_iff_not]
  exact ⟨hspace, by omega⟩

/-- A number ends there. -/
def Ends (s : List Char) : Prop := s = [] ∨ ∃ rest, s = ',' :: rest ∨ s = '-' :: rest

theorem Ends.stops {s : List Char} (h : Ends s) : Stops (isDigitOf 10) s := by
  obtain rfl | ⟨rest, rfl | rfl⟩ := h
  · exact stops_nil _
  · exact stops_cons (by decide) rest
  · exact stops_cons (by decide) rest

theorem magnitude_toDigits (n : Nat) {s : List Char} (h : Ends s) :
    magnitude (Nat.toDigits 10 n ++ s) = some (n, s) := by
  obtain rfl | hn := Nat.eq_zero_or_pos n
  · rw [Nat.toDigits_zero]
    obtain rfl | ⟨rest, rfl | rfl⟩ := h
    · decide
    · rfl
    · rfl
  · obtain ⟨c, cs, hcs, hc⟩ := head_toDigits hn
    have hdecimal : magnitude (Nat.toDigits 10 n ++ s) = digits 10 (Nat.toDigits 10 n ++ s) := by
      rw [hcs, List.cons_append]
      unfold magnitude
      split
      · rename_i heq
        cases heq
        exact absurd rfl hc
      · rfl
    rw [hdecimal, digits, run1_append _ _ Nat.toDigits_ne_nil ?_ h.stops]
    · rw [Option.map_some, digitsValue_toDigits]
    · intro d hd
      exact isDigitOf_of_isDigit (Nat.isDigit_of_mem_toDigits (by decide) (by decide) hd)

theorem strtol_toDigits {n : Nat} (hn : n < 2 ^ 63) {s : List Char} (h : Ends s) :
    strtol (Nat.toDigits 10 n ++ s) = some ((n : Int), s) := by
  have hclamp : clamp n = n := by
    rw [clamp]
    omega
  have hmagnitude := magnitude_toDigits n h
  have hdigit : ∀ c ∈ Nat.toDigits 10 n, c.isDigit := fun c hc =>
    Nat.isDigit_of_mem_toDigits (by decide) (by decide) hc
  obtain ⟨c, cs, hcs⟩ := List.exists_cons_of_ne_nil (Nat.toDigits_ne_nil (b := 10) (n := n))
  rw [hcs, List.cons_append] at hmagnitude ⊢
  have hc := hdigit c (hcs ▸ List.mem_cons_self)
  have hdrop : (c :: (cs ++ s)).dropWhile isBlank = c :: (cs ++ s) :=
    List.dropWhile_cons_of_neg (Bool.eq_false_iff.mp (isBlank_eq_false_of_isDigit hc))
  unfold strtol
  rw [hdrop]
  split
  · rename_i heq
    cases heq
    exact absurd hc (by decide)
  · rename_i heq
    cases heq
    exact absurd hc (by decide)
  · rw [hmagnitude, Option.map_some, hclamp]

theorem toInt_of_lt {n : Nat} (hn : n < cpuSetsize) : toInt n = n := by
  rw [cpuSetsize] at hn
  rw [toInt, BitVec.toInt_ofInt, Int.bmod_eq_of_le] <;> omega

theorem checkRange_of_le {start stop : Nat} (hle : start ≤ stop) (hstop : stop < cpuSetsize)
    (rest : List Char) : checkRange start stop rest = .range start stop rest := by
  rw [checkRange, if_neg (by omega), if_neg (by omega), if_neg (by omega)]
  rfl

/-- A range without its end is passed over at the end of the text, and no error is reported. -/
theorem parseLoop_open {n : Nat} (hn : n < 2 ^ 63) (cpus : Nat → Bool) :
    parseLoop (Nat.toDigits 10 n ++ ['-']) cpus = .ok cpus := by
  refine parseLoop_stop ?_
  rw [item, strtol_toDigits hn (.inr ⟨[], .inr rfl⟩)]
  rfl

/-- A part of a written set. -/
inductive Written where
  | cpu (n : Fin cpuSetsize)
  | range (start stop : Fin cpuSetsize) (le : start ≤ stop)

def Written.text : Written → List Char
  | .cpu n => Nat.toDigits 10 n
  | .range start stop _ => Nat.toDigits 10 start ++ '-' :: Nat.toDigits 10 stop

def Written.has : Written → Nat → Bool
  | .cpu n, m => n ≤ m && m ≤ n
  | .range start stop _, m => start ≤ m && m ≤ stop

def render : List Written → List Char
  | [] => []
  | [w] => w.text
  | w :: v :: ws => w.text ++ ',' :: render (v :: ws)

/-- The CPUs of a written set. -/
def cpusOf (ws : List Written) (n : Nat) : Bool := ws.any fun w => w.has n

theorem parseLoop_text (w : Written) {s rest : List Char} (hs : Ends s)
    (hrest : skipComma s = rest) (hminus : ∀ cs, s ≠ '-' :: cs) (cpus : Nat → Bool) :
    parseLoop (w.text ++ s) cpus = parseLoop rest fun n => cpus n || w.has n := by
  cases w with
  | cpu n =>
      have hn : (n : Nat) < 2 ^ 63 := n.isLt.trans (by decide)
      have hitem : item (Nat.toDigits 10 n ++ s) = .range n n rest := by
        rw [item_number (strtol_toDigits hn hs) hminus, toInt_of_lt n.isLt, hrest,
          checkRange_of_le (Nat.le_refl _) n.isLt]
      exact parseLoop_range hitem
  | range start stop hle =>
      have hstart : (start : Nat) < 2 ^ 63 := start.isLt.trans (by decide)
      have hstop : (stop : Nat) < 2 ^ 63 := stop.isLt.trans (by decide)
      have hitem : item (Nat.toDigits 10 start ++ '-' :: (Nat.toDigits 10 stop ++ s)) =
          .range start stop rest := by
        rw [item_range (strtol_toDigits hstart (.inr ⟨_, .inr rfl⟩)) (strtol_toDigits hstop hs),
          toInt_of_lt start.isLt, toInt_of_lt stop.isLt, hrest, checkRange_of_le hle stop.isLt]
      rw [Written.text, List.append_assoc, List.cons_append]
      exact parseLoop_range hitem

theorem parseLoop_render (ws : List Written) (cpus : Nat → Bool) :
    parseLoop (render ws) cpus = .ok fun n => cpus n || cpusOf ws n := by
  induction ws generalizing cpus with
  | nil =>
      have hstop : item [] = .stop [] := rfl
      rw [render, parseLoop_stop hstop]
      simp only [cpusOf, List.any_nil, Bool.or_false]
  | cons w ws ih =>
      have hunion : (fun n => (cpus n || w.has n) || cpusOf ws n) =
          fun n => cpus n || cpusOf (w :: ws) n :=
        funext fun n => Bool.or_assoc _ _ _
      cases ws with
      | nil =>
          have hrest := parseLoop_text w (.inl rfl) rfl (fun _ heq => by cases heq) cpus
          rw [List.append_nil] at hrest
          rw [render, hrest, ← hunion]
          exact ih _
      | cons v ws =>
          have hskip : skipComma (',' :: render (v :: ws)) = render (v :: ws) := rfl
          have hcomma : ∀ cs, ',' :: render (v :: ws) ≠ '-' :: cs := fun cs heq =>
            absurd (List.head_eq_of_cons_eq heq) (by decide)
          rw [render, parseLoop_text w (.inr ⟨_, .inl rfl⟩) hskip hcomma cpus, ih, hunion]

/-- What is accepted is made of ranges of CPUs that exist. -/
theorem parseLoop_eq_ok {s : List Char} {cpus cpus' : Nat → Bool}
    (h : parseLoop s cpus = .ok cpus') : ∃ ws, cpus' = fun n => cpus n || cpusOf ws n := by
  fun_induction parseLoop s cpus with
  | case1 s cpus _ =>
      cases h
      exact ⟨[], funext fun n => (Bool.or_false _).symm⟩
  | case2 => cases h
  | case3 => cases h
  | case4 s cpus start stop rest hitem ih =>
      obtain ⟨ws, rfl⟩ := ih h
      obtain ⟨-, hle, hstop⟩ := item_eq_range hitem
      refine ⟨.range ⟨start, by omega⟩ ⟨stop, hstop⟩ hle :: ws, funext fun n => ?_⟩
      exact Bool.or_assoc _ _ _

/-- A written set is read as what it says, and every text that is accepted means such a set. -/
theorem parseCpuSet_spec :
    (∀ ws : List Written, parseCpuSet (render ws) = .ok (cpusOf ws)) ∧
      ∀ (s : List Char) (cpus : Nat → Bool), parseCpuSet s = .ok cpus →
        ∃ ws : List Written, cpus = cpusOf ws := by
  refine ⟨fun ws => ?_, fun s cpus h => ?_⟩
  · rw [parseCpuSet, parseLoop_render]
    rfl
  · obtain ⟨ws, rfl⟩ := parseLoop_eq_ok h
    exact ⟨ws, rfl⟩

end TpQemu.TscCheck

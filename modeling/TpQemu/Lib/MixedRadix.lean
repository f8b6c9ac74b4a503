import Mathlib.Data.List.Basic
import Mathlib.Data.List.Range
import Mathlib.Data.List.Sort
import Mathlib.Tactic.Linarith
import Mathlib.Tactic.Ring

/-!
# Numbers with some digits given

A number in mixed radix, most significant digit first, of which some digits are given. The
numbers that agree with the given digits lie between the one with zeros for the others and the
one with the largest values for them. They are all the numbers between the two exactly if no
digit is omitted in front of a given one, where digits with one value do not count.
-/

namespace TpQemu.MixedRadix

/-- A digit with its number of values, given or omitted. -/
structure Digit where
  size : Nat
  value : Option Nat
  deriving DecidableEq

def volume : List Digit → Nat
  | [] => 1
  | d :: ds => d.size * volume ds

/-- The omitted digits are 0. -/
def lowest : List Digit → Nat
  | [] => 0
  | d :: ds => d.value.getD 0 * volume ds + lowest ds

/-- The omitted digits have their largest value. -/
def highest : List Digit → Nat
  | [] => 0
  | d :: ds => d.value.getD (d.size - 1) * volume ds + highest ds

/-- The number has the given digits. -/
def Agrees : List Digit → Nat → Prop
  | [], _ => True
  | d :: ds, n => (∀ v ∈ d.value, n / volume ds % d.size = v) ∧ Agrees ds n

instance decidableAgrees : (ds : List Digit) → (n : Nat) → Decidable (Agrees ds n)
  | [], _ => inferInstanceAs (Decidable True)
  | d :: ds, n =>
      have := decidableAgrees ds n
      inferInstanceAs (Decidable ((∀ v ∈ d.value, n / volume ds % d.size = v) ∧ Agrees ds n))

/-- The numbers with the given digits, in order. -/
def numbers (ds : List Digit) : List Nat := (List.range (volume ds)).filter (Agrees ds ·)

/-- All numbers between the lowest and the highest one. -/
def between (ds : List Digit) : List Nat := List.range' (lowest ds) (highest ds - lowest ds + 1)

/-- Each digit has a value, and the given ones are among its values. -/
def Proper (ds : List Digit) : Prop := ∀ d ∈ ds, 0 < d.size ∧ ∀ v ∈ d.value, v < d.size

/-- No digit is omitted in front of a given one. -/
def Gapless (ds : List Digit) : Prop :=
  ds.Pairwise fun d e => d.value = none → d.size ≠ 1 → e.value ≠ none → e.size = 1

/-- Digits that are all given, but for those with one value. -/
def Fixed (ds : List Digit) : Prop := ∀ d ∈ ds, d.value = none → d.size = 1

/-- Digits that are all omitted, but for those with one value. -/
def Free (ds : List Digit) : Prop := ∀ d ∈ ds, d.value ≠ none → d.size = 1

theorem proper_cons {d : Digit} {ds : List Digit} :
    Proper (d :: ds) ↔ (0 < d.size ∧ ∀ v ∈ d.value, v < d.size) ∧ Proper ds :=
  List.forall_mem_cons

theorem proper_append {as bs : List Digit} : Proper (as ++ bs) ↔ Proper as ∧ Proper bs :=
  List.forall_mem_append

/-- An omitted digit may have any of its values. -/
theorem Proper.given {as bs : List Digit} {size : Nat} (h : Proper (as ++ ⟨size, none⟩ :: bs))
    {k : Nat} (hk : k < size) : Proper (as ++ ⟨size, some k⟩ :: bs) := by
  obtain ⟨has, hrest⟩ := proper_append.mp h
  obtain ⟨⟨hsize, -⟩, hbs⟩ := proper_cons.mp hrest
  refine proper_append.mpr ⟨has, proper_cons.mpr ⟨⟨hsize, fun v hv => ?_⟩, hbs⟩⟩
  cases hv
  exact hk

theorem volume_pos {ds : List Digit} (h : Proper ds) : 0 < volume ds := by
  induction ds with
  | nil => exact Nat.one_pos
  | cons d ds ih =>
      obtain ⟨⟨hsize, -⟩, hds⟩ := proper_cons.mp h
      exact Nat.mul_pos hsize (ih hds)

theorem Digit.lowest_le_highest (d : Digit) : d.value.getD 0 ≤ d.value.getD (d.size - 1) := by
  cases d.value with
  | none => exact Nat.zero_le _
  | some v => exact le_rfl

theorem lowest_le_highest (ds : List Digit) : lowest ds ≤ highest ds := by
  induction ds with
  | nil => exact le_rfl
  | cons d ds ih => exact Nat.add_le_add (Nat.mul_le_mul_right _ d.lowest_le_highest) ih

theorem highest_lt {ds : List Digit} (h : Proper ds) : highest ds < volume ds := by
  induction ds with
  | nil => exact Nat.one_pos
  | cons d ds ih =>
      obtain ⟨⟨hsize, hvalue⟩, hds⟩ := proper_cons.mp h
      have hdigit : d.value.getD (d.size - 1) + 1 ≤ d.size := by
        cases hd : d.value with
        | none => simp only [Option.getD_none]; omega
        | some v => exact hvalue v hd
      have hmul := Nat.mul_le_mul_right (volume ds) hdigit
      have hrest := ih hds
      rw [Nat.add_mul, Nat.one_mul] at hmul
      rw [highest, volume]
      omega

/-! ## Numbers that agree -/

/-- Higher digits do not matter. -/
theorem agrees_mul_add {ds : List Digit} (h : Proper ds) (k n : Nat) :
    Agrees ds (k * volume ds + n) ↔ Agrees ds n := by
  induction ds generalizing k n with
  | nil => exact Iff.rfl
  | cons d ds ih =>
      obtain ⟨-, hds⟩ := proper_cons.mp h
      have hpos := volume_pos hds
      have hdiv : (k * volume (d :: ds) + n) / volume ds % d.size = n / volume ds % d.size := by
        rw [volume, ← Nat.mul_assoc, Nat.add_comm, Nat.add_mul_div_right _ _ hpos,
          Nat.add_mul_mod_self_right]
      rw [Agrees, Agrees, hdiv]
      rw [volume, ← Nat.mul_assoc, ih hds]

/-- A number that agrees, by its first digit and the rest. -/
theorem agrees_cons_iff {d : Digit} {ds : List Digit} (h : Proper (d :: ds)) {k n : Nat}
    (hk : k < d.size) (hn : n < volume ds) :
    Agrees (d :: ds) (k * volume ds + n) ↔ (∀ v ∈ d.value, k = v) ∧ Agrees ds n := by
  obtain ⟨-, hds⟩ := proper_cons.mp h
  have hdiv : (k * volume ds + n) / volume ds % d.size = k := by
    rw [Nat.add_comm, Nat.add_mul_div_right _ _ (volume_pos hds), Nat.div_eq_of_lt hn,
      Nat.zero_add, Nat.mod_eq_of_lt hk]
  rw [Agrees, agrees_mul_add hds, hdiv]

theorem agrees_lowest {ds : List Digit} (h : Proper ds) : Agrees ds (lowest ds) := by
  induction ds with
  | nil => trivial
  | cons d ds ih =>
      obtain ⟨⟨hsize, hvalue⟩, hds⟩ := proper_cons.mp h
      have hdigit : d.value.getD 0 < d.size := by
        cases hd : d.value with
        | none => exact hsize
        | some v => exact hvalue v hd
      rw [lowest, agrees_cons_iff h hdigit ((lowest_le_highest ds).trans_lt (highest_lt hds))]
      refine ⟨fun v hv => ?_, ih hds⟩
      rw [hv, Option.getD_some]

/-- The numbers that agree lie between the lowest and the highest one. -/
theorem Agrees.bounds {ds : List Digit} (h : Proper ds) {n : Nat} (hn : n < volume ds)
    (hagrees : Agrees ds n) : lowest ds ≤ n ∧ n ≤ highest ds := by
  induction ds generalizing n with
  | nil =>
      rw [volume] at hn
      exact ⟨Nat.zero_le _, Nat.le_of_lt_succ hn⟩
  | cons d ds ih =>
      obtain ⟨-, hds⟩ := proper_cons.mp h
      have hpos := volume_pos hds
      have hk : n / volume ds < d.size := (Nat.div_lt_iff_lt_mul hpos).mpr hn
      have hmod := Nat.mod_lt n hpos
      have hsplit := Nat.div_add_mod' n (volume ds)
      rw [← hsplit, agrees_cons_iff h hk hmod] at hagrees
      obtain ⟨hlow, hhigh⟩ := ih hds hmod hagrees.2
      have hdigit : d.value.getD 0 ≤ n / volume ds ∧ n / volume ds ≤ d.value.getD (d.size - 1) := by
        cases hd : d.value with
        | none => exact ⟨Nat.zero_le _, Nat.le_sub_one_of_lt hk⟩
        | some v =>
            rw [hagrees.1 v hd]
            exact ⟨le_rfl, le_rfl⟩
      have hlow' := Nat.mul_le_mul_right (volume ds) hdigit.1
      have hhigh' := Nat.mul_le_mul_right (volume ds) hdigit.2
      rw [lowest, highest]
      omega

/-! ## Free digits -/

theorem Free.agrees {ds : List Digit} (h : Proper ds) (hfree : Free ds) (n : Nat) :
    Agrees ds n := by
  induction ds with
  | nil => trivial
  | cons d ds ih =>
      obtain ⟨⟨-, hvalue⟩, hds⟩ := proper_cons.mp h
      obtain ⟨hd, hfree⟩ := List.forall_mem_cons.mp hfree
      refine ⟨fun v hv => ?_, ih hds hfree⟩
      have hsize : d.size = 1 := hd (Option.ne_none_iff_exists'.mpr ⟨v, hv⟩)
      have hlt := hvalue v hv
      rw [hsize, Nat.mod_one]
      omega

/-- Digits are free exactly if their numbers begin at 0 and end with the last one. -/
theorem free_iff {ds : List Digit} (h : Proper ds) :
    Free ds ↔ lowest ds = 0 ∧ highest ds + 1 = volume ds := by
  constructor
  · intro hfree
    have hpos := volume_pos h
    have hlow := (hfree.agrees h 0).bounds h hpos
    have hhigh := (hfree.agrees h (volume ds - 1)).bounds h (by omega)
    have hlt := highest_lt h
    omega
  · induction ds with
    | nil =>
        rintro - d hd
        cases hd
    | cons d ds ih =>
        rintro ⟨hlow, hhigh⟩
        obtain ⟨⟨hsize, hvalue⟩, hds⟩ := proper_cons.mp h
        have hpos := volume_pos hds
        have hlt := highest_lt hds
        rw [lowest, Nat.add_eq_zero_iff, Nat.mul_eq_zero] at hlow
        have hfirst : d.value.getD 0 = 0 := hlow.1.resolve_right hpos.ne'
        rw [highest, volume] at hhigh
        cases hd : d.value with
        | none =>
            rw [hd, Option.getD_none, Nat.sub_mul, Nat.one_mul] at hhigh
            have hle := Nat.le_mul_of_pos_left (volume ds) hsize
            refine List.forall_mem_cons.mpr ⟨fun hne => absurd hd hne, ih hds ⟨hlow.2, ?_⟩⟩
            omega
        | some v =>
            rw [hd, Option.getD_some] at hfirst hhigh
            rw [hfirst, Nat.zero_mul, Nat.zero_add] at hhigh
            have hone : d.size = 1 := by
              by_contra hne
              have htwo := Nat.mul_le_mul_right (volume ds) (show 2 ≤ d.size by omega)
              omega
            rw [hone, Nat.one_mul] at hhigh
            exact List.forall_mem_cons.mpr ⟨fun _ => hone, ih hds ⟨hlow.2, hhigh⟩⟩

/-! ## Digits without a gap -/

theorem agrees_cons_given {d : Digit} {ds : List Digit} (h : Proper (d :: ds)) {v : Nat}
    (hd : d.value = some v) {m : Nat} (hm : m < volume ds) :
    Agrees (d :: ds) (v * volume ds + m) ↔ Agrees ds m := by
  obtain ⟨⟨-, hvalue⟩, -⟩ := proper_cons.mp h
  rw [agrees_cons_iff h (hvalue v hd) hm]
  refine and_iff_right fun w hw => ?_
  rw [hd] at hw
  exact Option.some.inj hw

theorem agrees_cons_omitted {d : Digit} {ds : List Digit} (h : Proper (d :: ds))
    (hd : d.value = none) {k m : Nat} (hk : k < d.size) (hm : m < volume ds) :
    Agrees (d :: ds) (k * volume ds + m) ↔ Agrees ds m := by
  rw [agrees_cons_iff h hk hm]
  refine and_iff_right fun w hw => ?_
  rw [hd] at hw
  cases hw

/-- All numbers agree behind an omitted digit exactly if the other digits are free: the numbers
with the first digit 0 go up to the end, and those with the last one begin at 0. -/
theorem free_iff_agrees_cons {d : Digit} {ds : List Digit} (h : Proper (d :: ds))
    (hd : d.value = none) (htwo : 2 ≤ d.size) :
    Free ds ↔ ∀ n, lowest (d :: ds) ≤ n → n ≤ highest (d :: ds) → Agrees (d :: ds) n := by
  obtain ⟨-, hds⟩ := proper_cons.mp h
  constructor
  · intro hfree n _ _
    exact Free.agrees h (List.forall_mem_cons.mpr ⟨fun hne => absurd hd hne, hfree⟩) n
  · intro hall
    have hlt := highest_lt hds
    have hle := lowest_le_highest ds
    have hmul := Nat.mul_le_mul_right (volume ds) (show 1 ≤ d.size - 1 by omega)
    rw [Nat.one_mul] at hmul
    rw [lowest, highest, hd, Option.getD_none, Option.getD_none, Nat.zero_mul,
      Nat.zero_add] at hall
    have hlast : Agrees ds (volume ds - 1) :=
      (agrees_cons_omitted h hd (show 0 < d.size by omega) (by omega)).mp
        (hall _ (by omega) (by omega))
    have hfirst : Agrees ds 0 :=
      (agrees_cons_omitted h hd (show d.size - 1 < d.size by omega) (by omega)).mp
        (hall _ (by omega) (by omega))
    have hlast := hlast.bounds hds (by omega)
    have hfirst := hfirst.bounds hds (by omega)
    exact (free_iff hds).mpr ⟨by omega, by omega⟩

theorem Free.gapless {ds : List Digit} (h : Free ds) : Gapless ds :=
  List.pairwise_of_forall_mem_list fun _ _ e he _ _ hne => h e he hne

theorem gapless_cons {d : Digit} {ds : List Digit} :
    Gapless (d :: ds) ↔ (d.value = none → d.size ≠ 1 → Free ds) ∧ Gapless ds := by
  rw [Gapless, List.pairwise_cons]
  refine and_congr_left fun _ => ⟨?_, ?_⟩
  · intro h hnone hsize e he hne
    exact h e he hnone hsize hne
  · intro h e he hnone hsize hne
    exact h hnone hsize e he hne

/-- All numbers between the lowest and the highest one agree exactly if there is no gap. -/
theorem gapless_iff {ds : List Digit} (h : Proper ds) :
    Gapless ds ↔ ∀ n, lowest ds ≤ n → n ≤ highest ds → Agrees ds n := by
  induction ds with
  | nil => exact iff_of_true List.Pairwise.nil fun _ _ _ => trivial
  | cons d ds ih =>
      obtain ⟨⟨hsize, -⟩, hds⟩ := proper_cons.mp h
      have hlt := highest_lt hds
      rw [gapless_cons]
      cases hd : d.value with
      | some v =>
          rw [and_iff_right nofun, ih hds, lowest, highest, hd, Option.getD_some,
            Option.getD_some]
          constructor
          · intro hall n hlow hhigh
            obtain ⟨m, rfl⟩ := Nat.exists_eq_add_of_le ((Nat.le_add_right _ _).trans hlow)
            exact (agrees_cons_given h hd (by omega)).mpr (hall m (by omega) (by omega))
          · intro hall m hlow hhigh
            exact (agrees_cons_given h hd (by omega)).mp (hall _ (by omega) (by omega))
      | none =>
          by_cases hone : d.size = 1
          · rw [and_iff_right fun _ hne => absurd hone hne, ih hds, lowest, highest, hd, hone]
            simp only [Option.getD_none, Nat.sub_self, Nat.zero_mul, Nat.zero_add]
            refine forall₃_congr fun n _ hhigh => ?_
            have hn := agrees_cons_omitted h hd hsize (hhigh.trans_lt hlt)
            rw [Nat.zero_mul, Nat.zero_add] at hn
            exact hn.symm
          · rw [← free_iff_agrees_cons h hd (by omega)]
            exact ⟨fun hgap => hgap.1 rfl hone, fun hfree => ⟨fun _ _ => hfree, hfree.gapless⟩⟩

theorem mem_numbers {ds : List Digit} {n : Nat} :
    n ∈ numbers ds ↔ n < volume ds ∧ Agrees ds n := by
  simp [numbers]

theorem mem_between {ds : List Digit} {n : Nat} :
    n ∈ between ds ↔ lowest ds ≤ n ∧ n ≤ highest ds := by
  have hle := lowest_le_highest ds
  rw [between, List.mem_range'_1]
  omega

theorem pairwise_numbers (ds : List Digit) : (numbers ds).Pairwise (· < ·) :=
  List.Pairwise.filter _ List.pairwise_lt_range

theorem pairwise_between (ds : List Digit) : (between ds).Pairwise (· < ·) :=
  List.pairwise_lt_range'

theorem numbers_subset_between {ds : List Digit} (h : Proper ds) : numbers ds ⊆ between ds := by
  intro n hn
  obtain ⟨hlt, hagrees⟩ := mem_numbers.mp hn
  exact mem_between.mpr (hagrees.bounds h hlt)

/-- The numbers between the lowest and the highest one are those that agree exactly if there is
no gap. -/
theorem between_eq_numbers_iff {ds : List Digit} (h : Proper ds) :
    between ds = numbers ds ↔ Gapless ds := by
  rw [gapless_iff h]
  constructor
  · intro heq n hlow hhigh
    have hmem : n ∈ numbers ds := heq ▸ mem_between.mpr ⟨hlow, hhigh⟩
    exact (mem_numbers.mp hmem).2
  · intro hall
    refine (pairwise_between ds).eq_of_mem_iff (pairwise_numbers ds) fun n => ?_
    rw [mem_between, mem_numbers]
    constructor
    · rintro ⟨hlow, hhigh⟩
      exact ⟨hhigh.trans_lt (highest_lt h), hall n hlow hhigh⟩
    · rintro ⟨hlt, hagrees⟩
      exact hagrees.bounds h hlt

/-! ## The values of one digit -/

theorem volume_append (as bs : List Digit) : volume (as ++ bs) = volume as * volume bs := by
  induction as with
  | nil => rw [List.nil_append, volume, Nat.one_mul]
  | cons a as ih => rw [List.cons_append, volume, volume, ih, Nat.mul_assoc]

theorem lowest_append (as bs : List Digit) :
    lowest (as ++ bs) = lowest as * volume bs + lowest bs := by
  induction as with
  | nil => rw [List.nil_append, lowest, Nat.zero_mul, Nat.zero_add]
  | cons a as ih =>
      rw [List.cons_append, lowest, lowest, volume_append, ih]
      ring

theorem highest_append (as bs : List Digit) :
    highest (as ++ bs) = highest as * volume bs + highest bs := by
  induction as with
  | nil => rw [List.nil_append, highest, Nat.zero_mul, Nat.zero_add]
  | cons a as ih =>
      rw [List.cons_append, highest, highest, volume_append, ih]
      ring

/-- Digits are fixed exactly if there is one number. -/
theorem fixed_iff {ds : List Digit} (h : Proper ds) : Fixed ds ↔ highest ds = lowest ds := by
  induction ds with
  | nil => exact iff_of_true (fun d hd => nomatch hd) rfl
  | cons d ds ih =>
      obtain ⟨⟨hsize, -⟩, hds⟩ := proper_cons.mp h
      have hpos := volume_pos hds
      have hle := lowest_le_highest ds
      rw [Fixed, List.forall_mem_cons, ← Fixed, ih hds, lowest, highest]
      cases hd : d.value with
      | some v =>
          rw [Option.getD_some, Option.getD_some, Nat.add_left_cancel_iff]
          exact and_iff_right fun hnone => nomatch hnone
      | none =>
          rw [Option.getD_none, Option.getD_none, Nat.zero_mul, Nat.zero_add]
          constructor
          · rintro ⟨hone, heq⟩
            rw [hone rfl, Nat.sub_self, Nat.zero_mul, Nat.zero_add, heq]
          · intro heq
            have hzero : (d.size - 1) * volume ds = 0 := by omega
            have hone := (Nat.mul_eq_zero.mp hzero).resolve_right hpos.ne'
            exact ⟨fun _ => by omega, by omega⟩

/-- Ranges of one length, one behind the other. -/
theorem flatMap_range' (first width count : Nat) :
    (List.range count).flatMap (fun k => List.range' (first + k * width) width) =
      List.range' first (count * width) := by
  induction count with
  | zero => rw [Nat.zero_mul, List.range_zero, List.range'_zero, List.flatMap_nil]
  | succ count ih =>
      rw [List.range_succ, List.flatMap_append, ih, List.flatMap_singleton, Nat.succ_mul,
        List.range'_append_1]

section Digit

variable {as bs : List Digit} {size : Nat}

theorem length_between (d : Digit) :
    (between (as ++ d :: bs)).length = (highest as - lowest as) * (d.size * volume bs) +
      (d.value.getD (d.size - 1) - d.value.getD 0) * volume bs + (highest bs - lowest bs) + 1 := by
  obtain ⟨i, hi⟩ := Nat.exists_eq_add_of_le (lowest_le_highest as)
  obtain ⟨j, hj⟩ := Nat.exists_eq_add_of_le (lowest_le_highest bs)
  obtain ⟨k, hk⟩ := Nat.exists_eq_add_of_le d.lowest_le_highest
  rw [between, List.length_range', lowest_append, highest_append, highest, lowest, volume, hi, hj,
    hk, Nat.add_sub_cancel_left, Nat.add_sub_cancel_left, Nat.add_sub_cancel_left, Nat.add_mul,
    Nat.add_mul]
  omega

/-- Where the digits in front are fixed and those behind are free, a digit counts blocks. -/
theorem between_append (has : highest as = lowest as) (hfirst : lowest bs = 0)
    (hlast : highest bs + 1 = volume bs) (d : Digit) :
    between (as ++ d :: bs) =
      List.range' (lowest as * (d.size * volume bs) + d.value.getD 0 * volume bs)
        ((d.value.getD (d.size - 1) - d.value.getD 0 + 1) * volume bs) := by
  obtain ⟨k, hk⟩ := Nat.exists_eq_add_of_le d.lowest_le_highest
  rw [between, lowest_append, highest_append, has, lowest, highest, volume, hfirst, hk,
    Nat.add_sub_cancel_left, Nat.add_mul, Nat.add_mul, Nat.one_mul]
  congr 1
  omega

/-- The lengths of the lists decide. -/
theorem fixed_free_of_length {i j volume k : Nat}
    (h : (k + 2) * (i * ((k + 2) * volume) + j + 1) =
      i * ((k + 2) * volume) + (k + 1) * volume + j + 1) : i = 0 ∧ j + 1 = volume := by
  have hwidth : i * ((k + 2) * volume) + j + 1 = volume := by
    have hcancel : (k + 1) * (i * ((k + 2) * volume) + j + 1) = (k + 1) * volume := by
      linarith
    exact Nat.eq_of_mul_eq_mul_left (Nat.succ_pos k) hcancel
  have hzero : i = 0 := by
    by_contra hne
    have hmul := Nat.mul_le_mul (Nat.one_le_iff_ne_zero.mpr hne)
      (Nat.mul_le_mul_right volume (show 1 ≤ k + 2 by omega))
    omega
  rw [hzero, Nat.zero_mul, Nat.zero_add] at hwidth
  exact ⟨hzero, hwidth⟩

/-- The numbers for the values of a digit are a partition of those without it exactly if the
digits in front are fixed and those behind are free. -/
theorem flatMap_between_perm_iff (h : Proper (as ++ ⟨size, none⟩ :: bs)) :
    ((List.range size).flatMap fun v => between (as ++ ⟨size, some v⟩ :: bs)).Perm
        (between (as ++ ⟨size, none⟩ :: bs)) ↔
      size = 1 ∨ Fixed as ∧ Free bs := by
  obtain ⟨has, hds⟩ := proper_append.mp h
  obtain ⟨⟨hpos : 0 < size, -⟩, hbs⟩ := proper_cons.mp hds
  rw [fixed_iff has, free_iff hbs]
  constructor
  · intro hperm
    have hlength := hperm.length_eq
    have hlt := highest_lt hbs
    have hle := lowest_le_highest as
    have hle' := lowest_le_highest bs
    refine or_iff_not_imp_left.mpr fun hone => ?_
    obtain ⟨k, rfl⟩ : ∃ k, size = k + 2 := ⟨size - 2, by omega⟩
    simp only [List.length_flatMap, length_between, Option.getD_some, Option.getD_none,
      Nat.sub_self, Nat.zero_mul, Nat.add_zero, Nat.sub_zero, List.map_const',
      List.sum_replicate_nat, List.length_range] at hlength
    obtain ⟨hfixed, hfree⟩ := fixed_free_of_length hlength
    omega
  · rintro (rfl | ⟨heq, hfirst, hlast⟩)
    · simp [between, lowest_append, highest_append, lowest, highest, volume]
    · have hcount : size - 1 + 1 = size := Nat.sub_add_cancel hpos
      simp only [between_append heq hfirst hlast, Option.getD_some, Option.getD_none, Nat.sub_self,
        Nat.zero_add, Nat.one_mul, Nat.zero_mul, Nat.add_zero, Nat.sub_zero, hcount,
        flatMap_range']
      exact List.Perm.refl _

end Digit

/-! ## Complete numbers -/

/-- All digits are given. -/
def Complete (ds : List Digit) : Prop := ∀ d ∈ ds, d.value ≠ none

theorem Complete.between_eq {ds : List Digit} (h : Proper ds) (hcomplete : Complete ds) :
    between ds = [lowest ds] := by
  have hfixed : Fixed ds := fun d hd hnone => absurd hnone (hcomplete d hd)
  rw [between, (fixed_iff h).mp hfixed, Nat.sub_self]
  rfl

theorem volume_congr {ds es : List Digit} (h : ds.map Digit.size = es.map Digit.size) :
    volume ds = volume es := by
  induction ds generalizing es with
  | nil =>
      rw [List.map_eq_nil_iff.mp h.symm]
  | cons d ds ih =>
      obtain ⟨e, es, rfl, hsize, hsizes⟩ := List.map_eq_cons_iff.mp h.symm
      rw [volume, volume, ih hsizes.symm, hsize]

/-- Numbers with other digits are other numbers. -/
theorem Complete.lowest_injective {ds es : List Digit} (hds : Proper ds) (hes : Proper es)
    (hcomplete : Complete ds) (hcomplete' : Complete es)
    (hsizes : ds.map Digit.size = es.map Digit.size) (heq : lowest ds = lowest es) : ds = es := by
  induction ds generalizing es with
  | nil => exact (List.map_eq_nil_iff.mp hsizes.symm).symm
  | cons d ds ih =>
      obtain ⟨e, es, rfl, hsize, hsizes⟩ := List.map_eq_cons_iff.mp hsizes.symm
      obtain ⟨-, hds⟩ := proper_cons.mp hds
      obtain ⟨-, hes⟩ := proper_cons.mp hes
      obtain ⟨hd, hcomplete⟩ := List.forall_mem_cons.mp hcomplete
      obtain ⟨he, hcomplete'⟩ := List.forall_mem_cons.mp hcomplete'
      obtain ⟨v, hv⟩ := Option.ne_none_iff_exists'.mp hd
      obtain ⟨w, hw⟩ := Option.ne_none_iff_exists'.mp he
      have hvolume := volume_congr hsizes
      have hpos := volume_pos hds
      have hlt := (lowest_le_highest ds).trans_lt (highest_lt hds)
      have hlt' := (lowest_le_highest es).trans_lt (highest_lt hes)
      rw [hvolume] at hlt'
      rw [lowest, lowest, hv, hw, Option.getD_some, Option.getD_some, hvolume] at heq
      have hvw : v = w := by
        have hdiv := congrArg (· / volume ds) heq
        simpa [Nat.mul_comm _ (volume ds), Nat.mul_add_div hpos, Nat.div_eq_of_lt hlt,
          Nat.div_eq_of_lt hlt'] using hdiv
      subst hvw
      rw [ih hds hes hcomplete hcomplete' hsizes.symm (by omega)]
      congr 1
      cases d
      cases e
      simp_all

end TpQemu.MixedRadix

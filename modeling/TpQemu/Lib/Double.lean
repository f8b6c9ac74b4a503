import Mathlib.Algebra.Order.Field.Rat
import Mathlib.Data.Int.Log
import Mathlib.Data.Rat.Floor
import Mathlib.Tactic.Linarith
import Mathlib.Tactic.Positivity
import Mathlib.Tactic.Ring

/-!
# Double precision

The rounding of exact numbers to the floating point numbers of double precision: 53 digits,
the nearest one, the even one of two, and no digits below `2 ^ -1074`. A magnitude that rounds
to `2 ^ 1024` or more is too large.

Two bounds are all that is needed of it. Rounding does not pass an integer of up to 53 digits on
its way down (`le_magnitude`), and from `1` on it enlarges a number by less than the
`(2 ^ 53 - 1)`-th part of it (`magnitude_lt`).
-/

namespace TpQemu.Double

/-- The nearest integer, the even one of two. -/
def roundEven (y : ℚ) : ℤ :=
  if y - ⌊y⌋ < 1 / 2 then ⌊y⌋
  else if 1 / 2 < y - ⌊y⌋ then ⌊y⌋ + 1
  else if ⌊y⌋ % 2 = 0 then ⌊y⌋ else ⌊y⌋ + 1

/-- The exponent of the last digit. -/
def exponent (x : ℚ) : ℤ := max (Int.log 2 x - 52) (-1074)

/-- The rounding of a number that is not negative. -/
def magnitude (x : ℚ) : ℚ := roundEven (x / 2 ^ exponent x) * 2 ^ exponent x

/-- The rounding of a number. -/
def toDouble (x : ℚ) : ℚ := if x < 0 then -magnitude (-x) else magnitude x

/-- The first magnitude that is too large. -/
def limit : ℚ := 2 ^ 1024

/-- The integer part, towards zero. -/
def truncate (x : ℚ) : ℤ := if x < 0 then -⌊-x⌋ else ⌊x⌋

/-! ## Integers -/

theorem floor_le_roundEven (y : ℚ) : ⌊y⌋ ≤ roundEven y := by
  rw [roundEven]
  split_ifs <;> omega

theorem le_roundEven {y : ℚ} {z : ℤ} (h : (z : ℚ) ≤ y) : z ≤ roundEven y :=
  (Int.le_floor.mpr h).trans (floor_le_roundEven y)

theorem roundEven_le (y : ℚ) : (roundEven y : ℚ) ≤ y + 1 / 2 := by
  have hfloor := Int.floor_le y
  rw [roundEven]
  split_ifs with hbelow habove
  · linarith
  · push_cast
    linarith
  · linarith
  · push_cast
    linarith

theorem le_roundEven_add (y : ℚ) : y ≤ roundEven y + 1 / 2 := by
  have hfloor := Int.lt_floor_add_one y
  rw [roundEven]
  split_ifs with hbelow habove
  · linarith
  · push_cast
    linarith
  · linarith
  · push_cast
    linarith

/-! ## Magnitudes -/

section Magnitude

variable {x : ℚ}

/-- The place value of the last digit. -/
theorem place_pos (x : ℚ) : (0 : ℚ) < 2 ^ exponent x := zpow_pos (by norm_num) _

theorem magnitude_zero : magnitude 0 = 0 := by simp [magnitude, roundEven]

theorem magnitude_nonneg (h : 0 ≤ x) : 0 ≤ magnitude x := by
  have hround : 0 ≤ roundEven (x / 2 ^ exponent x) :=
    le_roundEven (by exact_mod_cast div_nonneg h (place_pos x).le)
  exact mul_nonneg (by exact_mod_cast hround) (place_pos x).le

theorem magnitude_le (x : ℚ) : magnitude x ≤ x + 2 ^ exponent x / 2 := by
  have hpos := place_pos x
  calc magnitude x ≤ (x / 2 ^ exponent x + 1 / 2) * 2 ^ exponent x :=
        mul_le_mul_of_nonneg_right (roundEven_le _) hpos.le
    _ = x + 2 ^ exponent x / 2 := by
        rw [add_mul, div_mul_cancel₀ _ hpos.ne']
        ring

theorem le_magnitude_add (x : ℚ) : x ≤ magnitude x + 2 ^ exponent x / 2 := by
  have hpos := place_pos x
  calc x = x / 2 ^ exponent x * 2 ^ exponent x := (div_mul_cancel₀ _ hpos.ne').symm
    _ ≤ (roundEven (x / 2 ^ exponent x) + 1 / 2) * 2 ^ exponent x :=
        mul_le_mul_of_nonneg_right (le_roundEven_add _) hpos.le
    _ = magnitude x + 2 ^ exponent x / 2 := by
        rw [magnitude, add_mul]
        ring

/-- A multiple of the last place that is not above a number is not above its rounding. -/
theorem mul_place_le_magnitude {z : ℤ} (h : (z : ℚ) * 2 ^ exponent x ≤ x) :
    (z : ℚ) * 2 ^ exponent x ≤ magnitude x := by
  have hpos := place_pos x
  have hround : z ≤ roundEven (x / 2 ^ exponent x) := le_roundEven ((le_div_iff₀ hpos).mpr h)
  exact mul_le_mul_of_nonneg_right (by exact_mod_cast hround) hpos.le

/-- A number with 53 digits has its first digit 52 places before the last one. -/
theorem digits_mul_place (h : exponent x = Int.log 2 x - 52) :
    ((0x10000000000000 : ℤ) : ℚ) * 2 ^ exponent x = 2 ^ Int.log 2 x := by
  rw [h, zpow_sub₀ (by norm_num)]
  norm_num
  ring

/-- Rounding does not pass an integer of up to 53 digits on its way down. -/
theorem le_magnitude {z : ℤ} (hz : z ≤ 0x20000000000000) (h : (z : ℚ) ≤ x) (hx : 0 < x) :
    (z : ℚ) ≤ magnitude x := by
  by_cases he : exponent x ≤ 0
  · -- The integer is a multiple of the last place.
    obtain ⟨k, hk⟩ := Int.eq_ofNat_of_zero_le (Int.neg_nonneg.mpr he)
    have hplace : (z : ℚ) = ((z * 2 ^ k : ℤ) : ℚ) * 2 ^ exponent x := by
      rw [show exponent x = -(k : ℤ) by omega, zpow_neg, zpow_natCast]
      push_cast
      rw [mul_assoc, mul_inv_cancel₀ (by positivity), mul_one]
    rw [hplace] at h ⊢
    exact mul_place_le_magnitude h
  · -- The number has more than 53 digits before the point.
    have hlog : exponent x = Int.log 2 x - 52 := by
      rw [exponent] at he ⊢
      omega
    have hpower := digits_mul_place hlog
    have hle : (2 : ℚ) ^ Int.log 2 x ≤ x := Int.zpow_log_le_self (by decide) hx
    have hmagnitude : (2 : ℚ) ^ Int.log 2 x ≤ magnitude x := by
      rw [← hpower] at hle ⊢
      exact mul_place_le_magnitude hle
    have hlarge : (2 : ℚ) ^ (53 : ℤ) ≤ 2 ^ Int.log 2 x :=
      zpow_le_zpow_right₀ (by norm_num) (by omega)
    have hz' : (z : ℚ) ≤ (0x20000000000000 : ℤ) := by exact_mod_cast hz
    norm_num at hlarge hz'
    linarith

/-- From `1` on rounding enlarges a number by less than the `(2 ^ 53 - 1)`-th part of it. -/
theorem magnitude_lt (hx : 0 < x) (h : 1 ≤ magnitude x) :
    magnitude x * 0x1FFFFFFFFFFFFF < 0x20000000000000 * x := by
  have hle := magnitude_le x
  have hpos := place_pos x
  by_cases he : -1074 ≤ Int.log 2 x - 52
  · have hlog : exponent x = Int.log 2 x - 52 := max_eq_left he
    have hpower := digits_mul_place hlog
    have hlow : (2 : ℚ) ^ Int.log 2 x ≤ x := Int.zpow_log_le_self (by decide) hx
    rw [← hpower] at hlow
    push_cast at hlow
    linarith
  · -- A number without all its digits is far below `1`.
    have hlog : exponent x = -1074 := max_eq_right (by omega)
    have hplace : (2 : ℚ) ^ exponent x ≤ 2 ^ (-1 : ℤ) :=
      zpow_le_zpow_right₀ (by norm_num) (by omega)
    have hhigh : x < 2 ^ (Int.log 2 x + 1) := Int.lt_zpow_succ_log_self (by decide) x
    have hsmall : (2 : ℚ) ^ (Int.log 2 x + 1) ≤ 2 ^ (-1 : ℤ) :=
      zpow_le_zpow_right₀ (by norm_num) (by omega)
    norm_num at hplace hsmall
    linarith

theorem magnitude_lt_two_mul {y : ℚ} (hx : 0 < x) (h : x ≤ y) (hy : 1 ≤ y) :
    magnitude x < 2 * y := by
  by_cases hone : 1 ≤ magnitude x
  · have hlt := magnitude_lt hx hone
    linarith
  · linarith

end Magnitude

theorem toDouble_of_nonneg {x : ℚ} (h : 0 ≤ x) : toDouble x = magnitude x := if_neg h.not_gt

/-- Rounding and cutting off the fraction act on the magnitude. -/
theorem truncate_toDouble (x : ℚ) :
    truncate (toDouble x) = if x < 0 then -⌊magnitude (-x)⌋ else ⌊magnitude x⌋ := by
  rw [toDouble]
  split_ifs with hx
  · have hnonneg : 0 ≤ magnitude (-x) := magnitude_nonneg (by linarith)
    rw [truncate]
    split_ifs with hneg
    · rw [neg_neg]
    · have hzero : magnitude (-x) = 0 := by linarith
      simp [hzero]
  · have hnonneg : 0 ≤ magnitude x := magnitude_nonneg (by linarith)
    rw [truncate, if_neg (by linarith)]

theorem le_truncate {a : ℤ} {x : ℚ} (h : (a : ℚ) ≤ x) : a ≤ truncate x := by
  rw [truncate]
  split_ifs with hx
  · have hfloor : ((⌊-x⌋ : ℤ) : ℚ) ≤ ((-a : ℤ) : ℚ) := by
      push_cast
      exact (Int.floor_le _).trans (neg_le_neg h)
    have hle : ⌊-x⌋ ≤ -a := by exact_mod_cast hfloor
    omega
  · exact Int.le_floor.mpr h

theorem truncate_le {b : ℤ} {x : ℚ} (h : x ≤ b) : truncate x ≤ b := by
  rw [truncate]
  split_ifs with hx
  · have hle : -b ≤ ⌊-x⌋ := Int.le_floor.mpr (by push_cast; exact neg_le_neg h)
    omega
  · exact_mod_cast (Int.floor_le x).trans h

theorem le_limit : (0x4000000000000000 : ℚ) ≤ limit := by
  have hpow : (2 : ℚ) ^ 62 ≤ 2 ^ 1024 := pow_le_pow_right₀ (by norm_num) (by norm_num)
  norm_num at hpow
  rw [limit]
  exact hpow

end TpQemu.Double

import Mathlib.Data.Nat.Cast.Order.Field
import TpQemu.Lib.Double
import TpQemu.Lib.Python

/-!
# Quotients of integers

Python's `a / b` of integers is the exact quotient, rounded once. For numbers of less than 53
digits the rounding does not reach an integer that is not the quotient: neither the integer part
nor the next integer above is another one than that of the exact quotient.
-/

namespace TpQemu.Double

/-- A number as a float, if it is not too large for one. -/
def asFloat (x : ℚ) : Except PyError ℚ :=
  if limit ≤ |toDouble x| then .error .overflowError else .ok (toDouble x)

/-- `a / b` -/
def trueDiv (a b : Int) : Except PyError ℚ :=
  if b = 0 then .error .zeroDivisionError else asFloat (a / b)

theorem asFloat_eq_ok {x y : ℚ} (h : asFloat x = .ok y) : y = toDouble x := by
  rw [asFloat] at h
  split at h
  · cases h
  · exact (Except.ok.inj h).symm

theorem asFloat_of_lt {x y : ℚ} (hx : 0 < x) (h : x ≤ y) (hy : 1 ≤ y)
    (hlimit : 2 * y ≤ 0x4000000000000000) :
    asFloat x = .ok (magnitude x) ∧ magnitude x < 2 * y := by
  have hlt := magnitude_lt_two_mul hx h hy
  have hnonneg := magnitude_nonneg hx.le
  have hle := le_limit
  refine ⟨?_, hlt⟩
  rw [asFloat, toDouble_of_nonneg hx.le, abs_of_nonneg hnonneg, if_neg (by linarith)]

theorem trueDiv_eq_ok_iff {a b : Int} {q : ℚ} :
    trueDiv a b = .ok q ↔ (b ≠ 0 ∧ |toDouble (a / b)| < limit) ∧ toDouble (a / b) = q := by
  rw [trueDiv, asFloat]
  split_ifs with hb hlimit
  · simp [hb]
  · simp [hlimit.not_gt]
  · simp [hb, not_le.mp hlimit]

/-! ## Small numbers -/

section Small

variable {a b : Nat}

/-- The integer part of the rounded quotient is that of the exact one. -/
theorem floor_magnitude_div (hb : 0 < b) (ha : a < 0x1FFFFFFFFFFFFF) :
    ⌊magnitude ((a : ℚ) / b)⌋ = (a / b : Nat) := by
  obtain rfl | hpos := Nat.eq_zero_or_pos a
  · simp [magnitude_zero]
  have hb' : (0 : ℚ) < b := by exact_mod_cast hb
  have hx : (0 : ℚ) < a / b := div_pos (by exact_mod_cast hpos) hb'
  rw [Int.floor_eq_iff]
  constructor
  · have hsmall : ((a / b : Nat) : ℤ) ≤ 0x20000000000000 := by
      have := Nat.div_le_self a b
      omega
    have hle : (((a / b : Nat) : ℤ) : ℚ) ≤ a / b := by exact_mod_cast Nat.cast_div_le
    exact le_magnitude hsmall hle hx
  · -- The next integer is too far away for a rounding.
    by_contra hge
    have hge := not_lt.mp hge
    have hone : (1 : ℚ) ≤ magnitude (a / b) := by
      have hzero : (0 : ℚ) ≤ ((a / b : Nat) : ℤ) := by positivity
      linarith
    have hlt := magnitude_lt hx hone
    have hlt' : ((((a / b : Nat) : ℤ) : ℚ) + 1) * b * 0x1FFFFFFFFFFFFF < 0x20000000000000 * a := by
      have hmul := mul_lt_mul_of_pos_right
        (lt_of_le_of_lt (mul_le_mul_of_nonneg_right hge (by norm_num)) hlt) hb'
      rw [mul_assoc (0x20000000000000 : ℚ), div_mul_cancel₀ _ hb'.ne'] at hmul
      linarith
    have hnat : (a / b + 1) * b * 0x1FFFFFFFFFFFFF < 0x20000000000000 * a := by exact_mod_cast hlt'
    have hnext : a < (a / b + 1) * b := by
      rw [Nat.mul_comm]
      exact Nat.lt_mul_div_succ a hb
    omega

/-- Rounding makes a number smaller by at most the `2 ^ 53`-th part of it. -/
theorem mul_le_magnitude {x : ℚ} (hx : 0 < x) (hlog : -1022 ≤ Int.log 2 x) :
    x * 0x1FFFFFFFFFFFFF ≤ 0x20000000000000 * magnitude x := by
  have hexponent : exponent x = Int.log 2 x - 52 := max_eq_left (by omega)
  have hpower := digits_mul_place hexponent
  have hlow : (2 : ℚ) ^ Int.log 2 x ≤ x := Int.zpow_log_le_self (by decide) hx
  have hround := le_magnitude_add x
  rw [← hpower] at hlow
  push_cast at hlow
  linarith

/-- The next integer above the rounded quotient is not below the exact one. -/
theorem div_le_ceil_magnitude (hb : 0 < b) (ha : a < 0x20000000000000)
    (hsmall : b < 0x20000000000000) : (a : ℚ) / b ≤ ⌈magnitude ((a : ℚ) / b)⌉ := by
  obtain rfl | hpos := Nat.eq_zero_or_pos a
  · simp [magnitude_zero]
  have hb' : (0 : ℚ) < b := by exact_mod_cast hb
  have hx : (0 : ℚ) < a / b := div_pos (by exact_mod_cast hpos) hb'
  have hlog : -1022 ≤ Int.log 2 ((a : ℚ) / b) := by
    refine le_trans (by norm_num) ((Int.zpow_le_iff_le_log (by norm_num) hx).mp ?_ : -53 ≤ _)
    rw [le_div_iff₀ hb']
    have hone : (1 : ℚ) ≤ a := by exact_mod_cast hpos
    have hle : (b : ℚ) ≤ 0x20000000000000 := by exact_mod_cast hsmall.le
    norm_num
    linarith
  have hround := mul_le_magnitude hx hlog
  have hceil := Int.le_ceil (magnitude ((a : ℚ) / b))
  by_contra hlt
  have hlt := not_le.mp hlt
  have hbelow : ⌈magnitude ((a : ℚ) / b)⌉ * b < (a : ℤ) := by
    rw [lt_div_iff₀ hb'] at hlt
    exact_mod_cast hlt
  have hle : (a : ℚ) * 0x1FFFFFFFFFFFFF ≤
      0x20000000000000 * (⌈magnitude ((a : ℚ) / b)⌉ * b) := by
    have hmul := mul_le_mul_of_nonneg_right (hround.trans
      (mul_le_mul_of_nonneg_left hceil (by norm_num))) hb'.le
    rw [mul_right_comm, div_mul_cancel₀ _ hb'.ne'] at hmul
    linarith
  have hint : (a : ℤ) * 0x1FFFFFFFFFFFFF ≤
      0x20000000000000 * (⌈magnitude ((a : ℚ) / b)⌉ * b) := by exact_mod_cast hle
  omega

end Small

end TpQemu.Double

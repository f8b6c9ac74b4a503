import Mathlib.Data.Nat.ModEq
import TpQemu.Lib.Words

/-!
# Fields of a record

A number in a field of a given number of bytes, in either byte order. A field holds a
number up to a multiple of its limit; whether the numbers in it are signed is a matter of
the reader.
-/

namespace TpQemu.Words

/-- The number of values a field of this many bytes can have. -/
def fieldLimit (size : Nat) : Nat := 0x100 ^ size

/-- The bytes of a number, the least significant one first. -/
def fieldBytes : Nat → Nat → List UInt8
  | 0, _ => []
  | n + 1, x => .ofNat x :: fieldBytes n (x / 0x100)

/-- The field in the order of the machine. -/
def packField (o : ByteOrder) (size x : Nat) : List UInt8 := inOrder o (fieldBytes size x)

/-- The two's complement of a number. -/
def complement (size : Nat) (v : Int) : Nat := (v % fieldLimit size).toNat

/-- The number a field denotes to a reader that takes it as signed. -/
def signedValue (size x : Nat) : Int :=
  if 2 * x < fieldLimit size then x else x - fieldLimit size

theorem fieldLimit_succ (size : Nat) : fieldLimit (size + 1) = 0x100 * fieldLimit size := by
  rw [fieldLimit, fieldLimit, Nat.pow_succ, Nat.mul_comm]

theorem fieldLimit_pos (size : Nat) : 0 < fieldLimit size := Nat.pow_pos (by decide)

@[simp] theorem length_fieldBytes (size x : Nat) : (fieldBytes size x).length = size := by
  induction size generalizing x with
  | zero => rfl
  | succ n ih => rw [fieldBytes, List.length_cons, ih]

@[simp] theorem length_packField (o : ByteOrder) (size x : Nat) :
    (packField o size x).length = size := by
  cases o with
  | little => exact length_fieldBytes size x
  | big =>
      show (fieldBytes size x).reverse.length = size
      rw [List.length_reverse, length_fieldBytes]

theorem valueOf_fieldBytes (size x : Nat) : valueOf (fieldBytes size x) = x % fieldLimit size := by
  induction size generalizing x with
  | zero => exact (Nat.mod_one x).symm
  | succ n ih =>
      have hbyte : (UInt8.ofNat x).toNat = x % 0x100 := UInt8.toNat_ofNat'
      show (UInt8.ofNat x).toNat + 0x100 * valueOf (fieldBytes n (x / 0x100)) = _
      rw [hbyte, ih, fieldLimit_succ, Nat.mod_mul]

/-- A field is read back up to a multiple of its limit. -/
theorem unpack_packField (o : ByteOrder) (size x : Nat) :
    unpack o (packField o size x) = x % fieldLimit size := by
  cases o with
  | little => exact valueOf_fieldBytes size x
  | big =>
      show valueOf (fieldBytes size x).reverse.reverse = _
      rw [List.reverse_reverse, valueOf_fieldBytes]

theorem take_packField_append (o : ByteOrder) (size x : Nat) (rest : List UInt8) :
    (packField o size x ++ rest).take size = packField o size x :=
  List.take_left' (length_packField o size x)

theorem drop_packField_append (o : ByteOrder) (size x : Nat) (rest : List UInt8) :
    (packField o size x ++ rest).drop size = rest :=
  List.drop_left' (length_packField o size x)

theorem complement_lt (size : Nat) (v : Int) : complement size v < fieldLimit size := by
  have hpos : (0 : Int) < fieldLimit size := Int.natCast_pos.mpr (fieldLimit_pos size)
  have hlt := Int.emod_lt_of_pos v hpos
  have hnonneg := Int.emod_nonneg v hpos.ne'
  rw [complement]
  omega

/-- A signed number that is written into a field and read without its sign. -/
theorem unpack_packField_complement (o : ByteOrder) (size : Nat) (v : Int) :
    unpack o (packField o size (complement size v)) = complement size v := by
  rw [unpack_packField, Nat.mod_eq_of_lt (complement_lt size v)]

/-- What the sign of a number in range does to its field. -/
theorem complement_eq {size : Nat} {v : Int} (hlow : -(fieldLimit size : Int) ≤ 2 * v)
    (hhigh : 2 * v < fieldLimit size) :
    (complement size v : Int) = if v < 0 then v + fieldLimit size else v := by
  have hpos : (0 : Int) < fieldLimit size := Int.natCast_pos.mpr (fieldLimit_pos size)
  rw [complement]
  split
  · have hmod : v % (fieldLimit size : Int) = v + fieldLimit size := by
      rw [← Int.add_emod_right, Int.emod_eq_of_lt (by omega) (by omega)]
    rw [hmod]
    omega
  · rw [Int.emod_eq_of_lt (by omega) (by omega)]
    omega

end TpQemu.Words

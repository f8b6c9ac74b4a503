import Mathlib.Data.List.Basic

/-!
# Words of four bytes

A 32-bit word in the memory of a machine, in either byte order, and the change to
the order of the network. Writing a word in network order and reading it back gives
the word, as long as both sides have the same byte order.
-/

namespace TpQemu.Words

/-- The byte order of a machine. -/
inductive ByteOrder where
  | little
  | big
  deriving DecidableEq

/-- The number of 32-bit words. -/
def wordLimit : Nat := 0x100000000

/-- The bytes of a word, the least significant one first. -/
def bytesOf (x : Nat) : List UInt8 :=
  [.ofNat x, .ofNat (x / 0x100), .ofNat (x / 0x10000), .ofNat (x / 0x1000000)]

/-- The number the bytes denote, the least significant one first. -/
def valueOf (bs : List UInt8) : Nat := bs.foldr (fun b n => b.toNat + 0x100 * n) 0

/-- The bytes in the order of the machine. -/
def inOrder : ByteOrder → List UInt8 → List UInt8
  | .little, bs => bs
  | .big, bs => bs.reverse

/-- `struct.pack("I", x)` -/
def pack (o : ByteOrder) (x : Nat) : List UInt8 := inOrder o (bytesOf x)

/-- `struct.unpack("I", bs)` -/
def unpack (o : ByteOrder) (bs : List UInt8) : Nat := valueOf (inOrder o bs)

/-- `socket.htonl(x)`, also `socket.ntohl(x)` -/
def htonl : ByteOrder → Nat → Nat
  | .little, x => valueOf (bytesOf x).reverse
  | .big, x => x

theorem valueOf_bytesOf {x : Nat} (h : x < wordLimit) : valueOf (bytesOf x) = x := by
  simp only [wordLimit] at h
  simp only [valueOf, bytesOf, List.foldr_cons, List.foldr_nil, UInt8.toNat_ofNat']
  omega

theorem bytesOf_valueOf (a b c d : UInt8) : bytesOf (valueOf [a, b, c, d]) = [a, b, c, d] := by
  have ha := a.toNat_lt
  have hb := b.toNat_lt
  have hc := c.toNat_lt
  have hd := d.toNat_lt
  simp only [bytesOf, valueOf, List.foldr_cons, List.foldr_nil, List.cons.injEq, and_true,
    ← UInt8.toNat_inj, UInt8.toNat_ofNat']
  omega

theorem valueOf_lt (a b c d : UInt8) : valueOf [a, b, c, d] < wordLimit := by
  have ha := a.toNat_lt
  have hb := b.toNat_lt
  have hc := c.toNat_lt
  have hd := d.toNat_lt
  simp only [valueOf, List.foldr_cons, List.foldr_nil, wordLimit]
  omega

@[simp] theorem length_pack (o : ByteOrder) (x : Nat) : (pack o x).length = 4 := by
  cases o <;> rfl

theorem htonl_lt {x : Nat} (o : ByteOrder) (h : x < wordLimit) : htonl o x < wordLimit := by
  cases o with
  | little => exact valueOf_lt _ _ _ _
  | big => exact h

theorem htonl_htonl {x : Nat} (o : ByteOrder) (h : x < wordLimit) : htonl o (htonl o x) = x := by
  cases o with
  | little =>
      show valueOf (bytesOf (valueOf (bytesOf x).reverse)).reverse = x
      have hbytes : bytesOf (valueOf (bytesOf x).reverse) = (bytesOf x).reverse :=
        bytesOf_valueOf _ _ _ _
      rw [hbytes, List.reverse_reverse, valueOf_bytesOf h]
  | big => rfl

theorem unpack_pack {x : Nat} (o : ByteOrder) (h : x < wordLimit) : unpack o (pack o x) = x := by
  cases o with
  | little => exact valueOf_bytesOf h
  | big =>
      show valueOf (bytesOf x).reverse.reverse = x
      rw [List.reverse_reverse, valueOf_bytesOf h]

/-- A word sent in network order is read back. -/
theorem htonl_unpack_pack {x : Nat} (o : ByteOrder) (h : x < wordLimit) :
    htonl o (unpack o (pack o (htonl o x))) = x := by
  rw [unpack_pack o (htonl_lt o h), htonl_htonl o h]

end TpQemu.Words

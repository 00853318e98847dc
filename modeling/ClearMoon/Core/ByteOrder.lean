import Mathlib

/-!
# Integers in memory

A host keeps the bytes of an integer in an order of its own. The conversion to network order
chooses the integer whose bytes, in the order of the host, are the big-endian encoding of the
given one; the conversion back is the same function.
-/

namespace ClearMoon

/-- The `n` low bytes of a number, the least significant first. -/
def lowBytes : Nat → Nat → List UInt8
  | 0, _ => []
  | n + 1, v => UInt8.ofNat v :: lowBytes n (v / 256)

/-- The number with these bytes, the least significant first. -/
def ofLowBytes : List UInt8 → Nat
  | [] => 0
  | b :: bs => b.toNat + 256 * ofLowBytes bs

/-- The `n` low bytes of a number, the most significant first. -/
def bigEndian (n v : Nat) : List UInt8 := (lowBytes n v).reverse

/-- An integer of `n` bytes is stored in `n` bytes. -/
@[simp] theorem length_lowBytes (n v : Nat) : (lowBytes n v).length = n := by
  induction n generalizing v with
  | zero => rfl
  | succ n ih => rw [lowBytes, List.length_cons, ih]

/-- So it is in network order. -/
@[simp] theorem length_bigEndian (n v : Nat) : (bigEndian n v).length = n := by
  rw [bigEndian, List.length_reverse, length_lowBytes]

/-- What is read from the bytes of a number is the number, as far as it fits. -/
theorem ofLowBytes_lowBytes (n v : Nat) : ofLowBytes (lowBytes n v) = v % 256 ^ n := by
  induction n generalizing v with
  | zero => rw [lowBytes, ofLowBytes, pow_zero, Nat.mod_one]
  | succ n ih =>
    rw [lowBytes, ofLowBytes, ih, pow_succ', Nat.mod_mul, UInt8.toNat_ofNat']

/-- Bytes denote a number that fits their count. -/
theorem ofLowBytes_lt (bs : List UInt8) : ofLowBytes bs < 256 ^ bs.length := by
  induction bs with
  | nil => exact Nat.one_pos
  | cons b bs ih =>
    have hb : b.toNat < 256 := b.toNat_lt
    rw [ofLowBytes, List.length_cons, pow_succ']
    omega

/-- Bytes are got back from the number that they denote. -/
theorem lowBytes_ofLowBytes (bs : List UInt8) : lowBytes bs.length (ofLowBytes bs) = bs := by
  induction bs with
  | nil => rfl
  | cons b bs ih =>
    have hb : b.toNat < 256 := b.toNat_lt
    have hhead : UInt8.ofNat (b.toNat + 256 * ofLowBytes bs) = b := by
      apply UInt8.toNat_inj.mp
      rw [UInt8.toNat_ofNat', show 2 ^ 8 = 256 from rfl, Nat.add_mul_mod_self_left,
        Nat.mod_eq_of_lt hb]
    have htail : (b.toNat + 256 * ofLowBytes bs) / 256 = ofLowBytes bs := by omega
    rw [ofLowBytes, List.length_cons, lowBytes, hhead, htail, ih]

/-- The number with the bytes of `v` in the opposite order. -/
def bswap (n v : Nat) : Nat := ofLowBytes (bigEndian n v)

/-- A swap stays within the width. -/
theorem bswap_lt (n v : Nat) : bswap n v < 256 ^ n := by
  have h := ofLowBytes_lt (bigEndian n v)
  rwa [length_bigEndian] at h

/-- The bytes of a swapped integer are those of the integer in network order. -/
theorem lowBytes_bswap (n v : Nat) : lowBytes n (bswap n v) = bigEndian n v := by
  have h := lowBytes_ofLowBytes (bigEndian n v)
  rwa [length_bigEndian] at h

/-- Swapped twice, the bytes are in their order again. -/
theorem bswap_bswap (n v : Nat) : bswap n (bswap n v) = v % 256 ^ n := by
  rw [bswap, bigEndian, lowBytes_bswap, bigEndian, List.reverse_reverse, ofLowBytes_lowBytes]

/-- The order in which a host keeps the bytes of an integer. -/
inductive ByteOrder where
  | little
  | big
  deriving DecidableEq, Repr

namespace ByteOrder

/-- The bytes of an integer of `n` bytes, in the order of their addresses. -/
def store (o : ByteOrder) (n v : Nat) : List UInt8 :=
  match o with
  | .little => lowBytes n v
  | .big => bigEndian n v

/-- The integer that has these bytes in memory. -/
def load (o : ByteOrder) (bs : List UInt8) : Nat :=
  match o with
  | .little => ofLowBytes bs
  | .big => ofLowBytes bs.reverse

/-- `htobe16`, `htobe32`, `htobe64` and their inverses `be16toh`, `be32toh`, `be64toh`. -/
def htobe (o : ByteOrder) (n v : Nat) : Nat :=
  match o with
  | .little => bswap n v
  | .big => v

/-- The host's turn to network order stays within the width. -/
theorem htobe_lt (o : ByteOrder) {n v : Nat} (h : v < 256 ^ n) : o.htobe n v < 256 ^ n := by
  cases o with
  | little => exact bswap_lt n v
  | big => exact h

/-- In network order an integer stands in memory as its big-endian encoding. -/
theorem store_htobe (o : ByteOrder) (n v : Nat) : o.store n (o.htobe n v) = bigEndian n v := by
  cases o with
  | little => exact lowBytes_bswap n v
  | big => rfl

/-- An integer loaded from bytes fits their count. -/
theorem load_lt (o : ByteOrder) (bs : List UInt8) : o.load bs < 256 ^ bs.length := by
  cases o with
  | little => exact ofLowBytes_lt bs
  | big =>
    have h := ofLowBytes_lt bs.reverse
    rwa [List.length_reverse] at h

/-- An integer loaded from its big-endian encoding and converted back is the integer. -/
theorem htobe_load (o : ByteOrder) {n v : Nat} (h : v < 256 ^ n) :
    o.htobe n (o.load (bigEndian n v)) = v := by
  cases o with
  | little => exact (bswap_bswap n v).trans (Nat.mod_eq_of_lt h)
  | big =>
    rw [htobe, load, bigEndian, List.reverse_reverse, ofLowBytes_lowBytes, Nat.mod_eq_of_lt h]

end ByteOrder

end ClearMoon

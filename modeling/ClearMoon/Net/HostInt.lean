import ClearMoon.Core.ByteOrder
import ClearMoon.Net.RawBuffer

/-!
# Integers in front of the readable bytes

`prependInt64` and its companions put an integer in network order in front of the readable bytes,
`readUint64` and its companions take one from there. The host is one with `<endian.h>`, which
`Buffer.h` includes; its byte order is a parameter. What has been prepended is read back in
reverse order, in any state a buffer can be brought to.
-/

namespace ClearMoon.Net

/-! ## Conversions -/

def host16ToNet (o : ByteOrder) (v : UInt16) : UInt16 := .ofNat (o.htobe 2 v.toNat)

def netToHost16 (o : ByteOrder) (v : UInt16) : UInt16 := .ofNat (o.htobe 2 v.toNat)

def host32ToNet (o : ByteOrder) (v : UInt32) : UInt32 := .ofNat (o.htobe 4 v.toNat)

def netToHost32 (o : ByteOrder) (v : UInt32) : UInt32 := .ofNat (o.htobe 4 v.toNat)

def host64ToNet (o : ByteOrder) (v : UInt64) : UInt64 := .ofNat (o.htobe 8 v.toNat)

def netToHost64 (o : ByteOrder) (v : UInt64) : UInt64 := .ofNat (o.htobe 8 v.toNat)

/-! ## The operations -/

namespace RawBuffer

variable (o : ByteOrder)

/-- `prepend` of an integer of `size` bytes where it stands in memory. -/
def prependInt (b : RawBuffer) (size bigInt : Nat) : Option RawBuffer :=
  b.prepend (o.store size bigInt)

def prependInt64 (b : RawBuffer) (x : UInt64) : Option RawBuffer :=
  b.prependInt o 8 (host64ToNet o x).toNat

def prependInt32 (b : RawBuffer) (x : UInt32) : Option RawBuffer :=
  b.prependInt o 4 (host32ToNet o x).toNat

def prependInt16 (b : RawBuffer) (x : UInt16) : Option RawBuffer :=
  b.prependInt o 2 (host16ToNet o x).toNat

def prependInt8 (b : RawBuffer) (x : UInt8) : Option RawBuffer := b.prepend [x]

/-- The assertion, `memcpy` to an integer of `size` bytes, and `retrieve`. -/
def readUint (b : RawBuffer) (size : Nat) : Option (Nat × RawBuffer) :=
  if b.readableBytes < size then none
  else do
    let netVal ← b.peek size
    let b ← b.retrieve size
    some (o.load netVal, b)

def readUint64 (b : RawBuffer) : Option (UInt64 × RawBuffer) :=
  (b.readUint o 8).map fun (netVal, b) => (netToHost64 o (.ofNat netVal), b)

def readUint32 (b : RawBuffer) : Option (UInt32 × RawBuffer) :=
  (b.readUint o 4).map fun (netVal, b) => (netToHost32 o (.ofNat netVal), b)

def readUint16 (b : RawBuffer) : Option (UInt16 × RawBuffer) :=
  (b.readUint o 2).map fun (netVal, b) => (netToHost16 o (.ofNat netVal), b)

def readUint8 (b : RawBuffer) : Option (UInt8 × RawBuffer) :=
  if b.readableBytes < 1 then none
  else do
    let val ← b.buff[b.readIndex]?
    let b ← b.retrieve 1
    some (val, b)

/-- The caller fills `beginWrite()` with these bytes and calls `hasWritten`. -/
def hasWritten (b : RawBuffer) (src : Bytes) : Option RawBuffer := do
  let buff ← copyIn b.buff b.writeIndex src
  some { b with buff, writeIndex := b.writeIndex + src.length }

end RawBuffer

/-! ## Integers of four widths -/

inductive IntWidth where
  | uint8
  | uint16
  | uint32
  | uint64
  deriving DecidableEq, Repr

/-- An integer with the width it is framed in. -/
inductive HostInt where
  | uint8 (x : UInt8)
  | uint16 (x : UInt16)
  | uint32 (x : UInt32)
  | uint64 (x : UInt64)
  deriving DecidableEq, Repr

/-- `sizeof`. -/
def IntWidth.size : IntWidth → Nat
  | .uint8 => 1
  | .uint16 => 2
  | .uint32 => 4
  | .uint64 => 8

namespace HostInt

def width : HostInt → IntWidth
  | .uint8 _ => .uint8
  | .uint16 _ => .uint16
  | .uint32 _ => .uint32
  | .uint64 _ => .uint64

def toNat : HostInt → Nat
  | .uint8 x => x.toNat
  | .uint16 x => x.toNat
  | .uint32 x => x.toNat
  | .uint64 x => x.toNat

def size (x : HostInt) : Nat := x.width.size

/-- The bytes of an integer in network order. -/
def bigEndian (x : HostInt) : Bytes := ClearMoon.bigEndian x.size x.toNat

/-- The value of an integer fits its width. -/
theorem toNat_lt (x : HostInt) : x.toNat < 256 ^ x.size := by
  cases x with
  | uint8 x => exact x.toNat_lt
  | uint16 x => exact x.toNat_lt
  | uint32 x => exact x.toNat_lt
  | uint64 x => exact x.toNat_lt

/-- An integer has as many bytes on the wire as in memory. -/
@[simp] theorem length_bigEndian (x : HostInt) : x.bigEndian.length = x.size :=
  ClearMoon.length_bigEndian _ _

end HostInt

namespace RawBuffer

variable (o : ByteOrder)

/-- The `prependInt` function for the width of an integer. -/
def prependHostInt (b : RawBuffer) : HostInt → Option RawBuffer
  | .uint8 x => b.prependInt8 x
  | .uint16 x => b.prependInt16 o x
  | .uint32 x => b.prependInt32 o x
  | .uint64 x => b.prependInt64 o x

/-- The `readUint` function for a width. -/
def readHostInt (b : RawBuffer) : IntWidth → Option (HostInt × RawBuffer)
  | .uint8 => b.readUint8.map fun (x, b) => (.uint8 x, b)
  | .uint16 => (b.readUint16 o).map fun (x, b) => (.uint16 x, b)
  | .uint32 => (b.readUint32 o).map fun (x, b) => (.uint32 x, b)
  | .uint64 => (b.readUint64 o).map fun (x, b) => (.uint64 x, b)

/-- Integers prepended in order. -/
def prependHostInts (b : RawBuffer) : List HostInt → Option RawBuffer
  | [] => some b
  | x :: xs => do
    let b ← b.prependHostInt o x
    b.prependHostInts xs

/-- Integers read in order. -/
def readHostInts (b : RawBuffer) : List IntWidth → Option (List HostInt × RawBuffer)
  | [] => some ([], b)
  | w :: ws => do
    let (x, b) ← b.readHostInt o w
    let (xs, b) ← b.readHostInts ws
    some (x :: xs, b)

end RawBuffer

/-! ## What the operations do -/

namespace Buffer

variable {o : ByteOrder}

/-- Where there is room in front, an integer turned by the host lands there in network order. -/
theorem raw_prependInt (b : Buffer) {x : HostInt} {bigInt : Nat}
    (h : x.bigEndian.length ≤ b.prependBytes) (hbig : bigInt = o.htobe x.size x.toNat) :
    b.raw.prependInt o x.size bigInt = some (b.prepend x.bigEndian h).raw := by
  rw [RawBuffer.prependInt, hbig, o.store_htobe]
  exact b.raw_prepend x.bigEndian h

/-- A single byte is its own network order. -/
theorem bigEndian_uint8 (x : UInt8) : (HostInt.uint8 x).bigEndian = [x] := by
  simp [HostInt.bigEndian, ClearMoon.bigEndian, lowBytes, HostInt.size, HostInt.width,
    IntWidth.size, HostInt.toNat]

/-- Whatever the byte order of the host, prepending an integer prepends its encoding. -/
theorem raw_prependHostInt (b : Buffer) (x : HostInt) (h : x.bigEndian.length ≤ b.prependBytes) :
    b.raw.prependHostInt o x = some (b.prepend x.bigEndian h).raw := by
  cases x with
  | uint8 x =>
    rw [RawBuffer.prependHostInt, RawBuffer.prependInt8, ← bigEndian_uint8]
    exact b.raw_prepend _ h
  | uint16 x =>
    refine b.raw_prependInt h ?_
    exact (UInt16.toNat_ofNat_of_lt' (o.htobe_lt x.toNat_lt))
  | uint32 x =>
    refine b.raw_prependInt h ?_
    exact (UInt32.toNat_ofNat_of_lt' (o.htobe_lt x.toNat_lt))
  | uint64 x =>
    refine b.raw_prependInt h ?_
    exact (UInt64.toNat_ofNat_of_lt' (o.htobe_lt x.toNat_lt))

/-- `memcpy` takes the bytes in front, as many as there are in the integer. -/
theorem raw_readUint (b : Buffer) {size : Nat} (h : size ≤ b.readableBytes) :
    b.raw.readUint o size = some (o.load (b.readable.take size), (b.retrieve size).raw) := by
  rw [RawBuffer.readUint, if_neg (show ¬b.raw.readableBytes < size from Nat.not_lt.mpr h),
    b.raw_peek h, Option.bind_eq_bind, Option.bind_some, b.raw_retrieve h]
  rfl

/-- A read of one byte takes the first readable one. -/
theorem raw_readUint8 (b : Buffer) {x : UInt8} {q : Bytes} (h : b.readable = [x] ++ q) :
    b.raw.readUint8 = some (x, (b.retrieve 1).raw) := by
  have hlength : 1 ≤ b.readableBytes := by
    rw [← length_readable, h, List.length_append]
    exact Nat.le_add_right _ _
  have hval : b.raw.buff[b.raw.readIndex]? = some x := by
    have hfirst : b.readable[0]? = some x := by rw [h]; rfl
    rw [readable, List.getElem?_drop, Nat.add_zero, List.getElem?_take,
      if_pos (by rw [readableBytes] at hlength; omega)] at hfirst
    exact hfirst
  rw [RawBuffer.readUint8, if_neg (show ¬b.raw.readableBytes < 1 from Nat.not_lt.mpr hlength), hval,
    Option.bind_eq_bind, Option.bind_some, b.raw_retrieve hlength]
  rfl

/-- What is loaded from the encoding of an integer and converted back is the integer. -/
theorem htobe_load (o : ByteOrder) (x : HostInt) :
    o.load x.bigEndian < 256 ^ x.size ∧ o.htobe x.size (o.load x.bigEndian) = x.toNat := by
  have hlt := o.load_lt x.bigEndian
  rw [x.length_bigEndian] at hlt
  exact ⟨hlt, o.htobe_load x.toNat_lt⟩

/-- An integer whose encoding stands in front is read back by the function for its width. -/
theorem raw_readHostInt (b : Buffer) {x : HostInt} {q : Bytes}
    (h : b.readable = x.bigEndian ++ q) :
    b.raw.readHostInt o x.width = some (x, (b.retrieve x.size).raw) := by
  have hsize : x.size ≤ b.readableBytes := by
    rw [← length_readable, h, List.length_append, x.length_bigEndian]
    exact Nat.le_add_right _ _
  have hread := b.raw_readUint (o := o) hsize
  rw [h, List.take_left' x.length_bigEndian] at hread
  obtain ⟨hlt, hload⟩ := htobe_load o x
  cases x with
  | uint8 x =>
    rw [bigEndian_uint8] at h
    exact congrArg (Option.map _) (b.raw_readUint8 h)
  | uint16 x =>
    have hx : netToHost16 o (.ofNat (o.load (HostInt.uint16 x).bigEndian)) = x := by
      rw [netToHost16, UInt16.toNat_ofNat_of_lt' hlt]
      exact (congrArg UInt16.ofNat hload).trans x.ofNat_toNat
    change ((b.raw.readUint o (HostInt.uint16 x).size).map _).map _ = _
    rw [hread]
    simp only [Option.map_some, hx]
  | uint32 x =>
    have hx : netToHost32 o (.ofNat (o.load (HostInt.uint32 x).bigEndian)) = x := by
      rw [netToHost32, UInt32.toNat_ofNat_of_lt' hlt]
      exact (congrArg UInt32.ofNat hload).trans x.ofNat_toNat
    change ((b.raw.readUint o (HostInt.uint32 x).size).map _).map _ = _
    rw [hread]
    simp only [Option.map_some, hx]
  | uint64 x =>
    have hx : netToHost64 o (.ofNat (o.load (HostInt.uint64 x).bigEndian)) = x := by
      rw [netToHost64, UInt64.toNat_ofNat_of_lt' hlt]
      exact (congrArg UInt64.ofNat hload).trans x.ofNat_toNat
    change ((b.raw.readUint o (HostInt.uint64 x).size).map _).map _ = _
    rw [hread]
    simp only [Option.map_some, hx]

/-- Integers prepended in order stand in the opposite order. -/
theorem raw_prependHostInts (b : Buffer) (xs : List HostInt)
    (h : (xs.map HostInt.size).sum ≤ b.prependBytes) :
    ∃ b' : Buffer, b.raw.prependHostInts o xs = some b'.raw ∧
      b'.readable = xs.reverse.flatMap HostInt.bigEndian ++ b.readable := by
  induction xs generalizing b with
  | nil => exact ⟨b, rfl, rfl⟩
  | cons x xs ih =>
    rw [List.map_cons, List.sum_cons] at h
    have hx : x.bigEndian.length ≤ b.prependBytes := by
      rw [x.length_bigEndian]
      omega
    have hroom : (xs.map HostInt.size).sum ≤ (b.prepend x.bigEndian hx).prependBytes := by
      simp only [prepend, prependBytes, x.length_bigEndian] at h ⊢
      omega
    obtain ⟨b', hb', hreadable⟩ := ih _ hroom
    refine ⟨b', ?_, ?_⟩
    · rw [RawBuffer.prependHostInts, b.raw_prependHostInt x hx, Option.bind_eq_bind,
        Option.bind_some, hb']
    · rw [hreadable, b.readable_prepend, List.reverse_cons, List.flatMap_append,
        List.flatMap_singleton, List.append_assoc]

/-- Encodings that stand in front are read back in the order in which they stand. -/
theorem raw_readHostInts (b : Buffer) (xs : List HostInt) {q : Bytes}
    (h : b.readable = xs.flatMap HostInt.bigEndian ++ q) :
    ∃ b' : Buffer, b.raw.readHostInts o (xs.map HostInt.width) = some (xs, b'.raw) ∧
      b'.readable = q := by
  induction xs generalizing b with
  | nil => exact ⟨b, rfl, h⟩
  | cons x xs ih =>
    rw [List.flatMap_cons, List.append_assoc] at h
    have hrest : (b.retrieve x.size).readable = xs.flatMap HostInt.bigEndian ++ q := by
      rw [readable_retrieve, h, List.drop_left' x.length_bigEndian]
    obtain ⟨b', hb', hreadable⟩ := ih _ hrest
    refine ⟨b', ?_, hreadable⟩
    rw [List.map_cons, RawBuffer.readHostInts, b.raw_readHostInt h, Option.bind_eq_bind,
      Option.bind_some]
    dsimp only
    rw [hb']
    rfl

end Buffer

/-! ## All calls -/

/-- The calls of a buffer with those that frame integers. -/
inductive FramingCall where
  | buffer (c : BufferCall)
  | prependInt (x : HostInt)
  | readUint (w : IntWidth)
  /-- The caller has put these bytes behind the readable ones. -/
  | hasWritten (src : Bytes)
  deriving DecidableEq, Repr

namespace RawBuffer

/-- Make a call and forget what it returns. -/
def stepFraming (o : ByteOrder) (b : RawBuffer) : FramingCall → Option RawBuffer
  | .buffer c => b.step c
  | .prependInt x => b.prependHostInt o x
  | .readUint w => (b.readHostInt o w).map Prod.snd
  | .hasWritten src => b.hasWritten src

/-- What the assertions, or the kernel, ask of a call. -/
def AllowedFraming (b : RawBuffer) : FramingCall → Prop
  | .buffer c => b.Allowed c
  | .prependInt x => x.size ≤ b.prependBytes
  | .readUint w => w.size ≤ b.readableBytes
  | .hasWritten src => src.length ≤ b.writeableBytes

instance (b : RawBuffer) (c : FramingCall) : Decidable (b.AllowedFraming c) := by
  unfold AllowedFraming
  split <;> infer_instance

variable {o : ByteOrder}

/-- Whatever the readable bytes are, an integer is read from enough of them. -/
theorem exists_readHostInt (b : Buffer) {w : IntWidth} (h : w.size ≤ b.readableBytes) :
    ∃ x, b.raw.readHostInt o w = some (x, (b.retrieve w.size).raw) := by
  have hread := b.raw_readUint (o := o) h
  cases w with
  | uint8 =>
    obtain ⟨x, q, hq⟩ : ∃ x q, b.readable = x :: q :=
      List.exists_cons_of_length_pos (by rw [Buffer.length_readable]; exact h)
    exact ⟨_, congrArg (Option.map _) (b.raw_readUint8 hq)⟩
  | uint16 => exact ⟨_, congrArg (Option.map _) (congrArg (Option.map _) hread)⟩
  | uint32 => exact ⟨_, congrArg (Option.map _) (congrArg (Option.map _) hread)⟩
  | uint64 => exact ⟨_, congrArg (Option.map _) (congrArg (Option.map _) hread)⟩

/-- A call brings a buffer that carries its invariant to such a buffer. -/
theorem exists_raw_of_step {b : Buffer} {b' : RawBuffer} {c : FramingCall}
    (ha : b.raw.AllowedFraming c) (hstep : b.raw.stepFraming o c = some b') :
    ∃ next : Buffer, b' = next.raw := by
  cases c with
  | buffer c =>
    obtain ⟨next, hexec, hnext⟩ := refines_buffer.call rfl ha
    rw [stepFraming, step, hexec] at hstep
    exact ⟨_, (Option.some.inj hstep).symm.trans hnext⟩
  | prependInt x =>
    rw [stepFraming, b.raw_prependHostInt x (x.length_bigEndian.trans_le ha)] at hstep
    exact ⟨_, (Option.some.inj hstep).symm⟩
  | readUint w =>
    obtain ⟨x, hx⟩ := exists_readHostInt (o := o) b ha
    rw [stepFraming, hx] at hstep
    exact ⟨_, (Option.some.inj hstep).symm⟩
  | hasWritten src =>
    rw [stepFraming, hasWritten, show copyIn b.raw.buff b.raw.writeIndex src = _ from
      b.copyIn_place src ha] at hstep
    exact ⟨b.place src ha, (Option.some.inj hstep).symm⟩

/-- Whatever has been done with a buffer, integers that fit in front of the readable bytes are
prepended as their big-endian encodings, the last one first, and reading them in this order returns
them and leaves the readable bytes as they were. No assertion fails. -/
theorem framed_of_run {b : RawBuffer} {cs : List FramingCall}
    (h : Run (stepFraming o) AllowedFraming new cs b) (xs : List HostInt)
    (hroom : (xs.map HostInt.size).sum ≤ b.prependBytes) :
    ∃ b', b.prependHostInts o xs = some b' ∧
      b'.readable = xs.reverse.flatMap HostInt.bigEndian ++ b.readable ∧
      ∃ b'', b'.readHostInts o (xs.reverse.map HostInt.width) = some (xs.reverse, b'') ∧
        b''.readable = b.readable := by
  have hinv : ∃ next : Buffer, b = next.raw := by
    refine h.invariant (I := fun b => ∃ next : Buffer, b = next.raw) ?_ ?_
    · exact ⟨.new, rfl⟩
    · rintro _ c b' ⟨b, rfl⟩ ha hstep
      exact exists_raw_of_step ha hstep
  obtain ⟨b, rfl⟩ := hinv
  obtain ⟨b', hb', hreadable'⟩ := b.raw_prependHostInts (o := o) xs hroom
  obtain ⟨b'', hb'', hreadable''⟩ := b'.raw_readHostInts (o := o) xs.reverse hreadable'
  exact ⟨b'.raw, hb', hreadable', b''.raw, hb'', hreadable''⟩

/-- A message is received and read to its last byte, and a length of two bytes is read back. -/
def drainedByReads : List FramingCall :=
  [.buffer (.append [0, 2, 7, 9]), .readUint .uint16, .prependInt (.uint16 515),
    .readUint .uint32]

/-- The claim's framing of three integers on a buffer whose bytes were read out before. -/
theorem framed_of_run_drainedByReads :
    ∃ b, Run (stepFraming .little) AllowedFraming new drainedByReads b ∧
      ∃ b', b.prependHostInts .little [.uint8 1, .uint16 2, .uint32 3] = some b' ∧
        b'.readable = [0, 0, 0, 3, 0, 2, 1] ++ b.readable ∧
        ∃ b'', b'.readHostInts .little [.uint32, .uint16, .uint8] =
            some ([.uint32 3, .uint16 2, .uint8 1], b'') ∧
          b''.readable = b.readable := by
  obtain ⟨b, hb, hroom⟩ := (Option.any_eq_true _ _).mp
    (show (replay (stepFraming .little) AllowedFraming new drainedByReads).any fun b =>
      7 ≤ b.prependBytes by decide +kernel)
  exact ⟨b, .of_replay hb, framed_of_run (.of_replay hb) [.uint8 1, .uint16 2, .uint32 3]
    (of_decide_eq_true hroom)⟩

end RawBuffer

end ClearMoon.Net

import ClearMoon.Core.Search

/-!
# The receive and send buffer

A `Buffer` is a vector of bytes with a read and a write index and eight reserved bytes in front.
The index order is part of the type, so no operation can produce a buffer whose readable bytes
lie outside its storage. Every operation is given at the level of the indices, including the
growth and compaction branches of `ensureWriteable`, and is characterised by what it does to the
readable bytes.
-/

namespace ClearMoon.Net

/-- A `std::string` or a range of `char`s. -/
abbrev Bytes := List UInt8

/-- The bytes of an ASCII literal. -/
def ascii (s : String) : Bytes := s.toList.map Char.toUInt8

/-- `Buffer::kCRLF`. -/
def kCRLF : Bytes := [13, 10]

/-- `Buffer::kCheapPrepend`. -/
def kCheapPrepend : Nat := 8

/-- `std::copy` of `src` to position `pos` of a vector that has room for it. -/
def overwrite (buff : Bytes) (pos : Nat) (src : Bytes) : Bytes :=
  buff.take pos ++ src ++ buff.drop (pos + src.length)

/-- Bytes written inside the storage leave its length alone. -/
theorem length_overwrite {buff src : Bytes} {pos : Nat} (h : pos + src.length ≤ buff.length) :
    (overwrite buff pos src).length = buff.length := by
  simp only [overwrite, List.length_append, List.length_take, List.length_drop]
  omega

/-- What has been copied can be read back at its position. -/
theorem take_drop_overwrite {buff src : Bytes} {pos : Nat} (h : pos + src.length ≤ buff.length) :
    ((overwrite buff pos src).take (pos + src.length)).drop pos = src := by
  have hlen : (buff.take pos).length = pos := by simp only [List.length_take]; omega
  have htake : (buff.take pos ++ src ++ buff.drop (pos + src.length)).take (pos + src.length) =
      buff.take pos ++ src :=
    List.take_left' (by simp only [List.length_append, hlen])
  rw [overwrite, htake, List.drop_left' hlen]

/-- Copying behind a position leaves what stands before it. -/
theorem take_overwrite {buff : Bytes} {pos : Nat} (h : pos ≤ buff.length) (src : Bytes) :
    (overwrite buff pos src).take pos = buff.take pos := by
  rw [overwrite, List.append_assoc, List.take_left' (by simp only [List.length_take]; omega)]

/-- `net/Buffer.h`: storage and indices. -/
structure Buffer where
  /-- The vector; its capacity plays no part in what the buffer holds. -/
  buff : Bytes
  /-- First readable byte. -/
  readIndex : Nat
  /-- First writeable byte. -/
  writeIndex : Nat
  read_le : readIndex ≤ writeIndex
  write_le : writeIndex ≤ buff.length
  cheap_le : kCheapPrepend ≤ buff.length
  deriving DecidableEq

namespace Buffer

/-- The constructor: eight bytes of storage, nothing readable. -/
def new : Buffer where
  buff := List.replicate kCheapPrepend 0
  readIndex := kCheapPrepend
  writeIndex := kCheapPrepend
  read_le := Nat.le_refl _
  write_le := by simp
  cheap_le := by simp

/-! ## Capacity -/

def readableBytes (b : Buffer) : Nat := b.writeIndex - b.readIndex

def writeableBytes (b : Buffer) : Nat := b.buff.length - b.writeIndex

def prependBytes (b : Buffer) : Nat := b.readIndex

/-- The bytes from `peek()` to `beginWrite()`. -/
def readable (b : Buffer) : Bytes := (b.buff.take b.writeIndex).drop b.readIndex

/-- There are `readableBytes` bytes to read. -/
@[simp] theorem length_readable (b : Buffer) : b.readable.length = b.readableBytes := by
  have := b.write_le
  simp only [readable, readableBytes, List.length_drop, List.length_take]
  omega

/-- A new buffer has nothing to read. -/
@[simp] theorem readable_new : new.readable = [] := by decide

/-! ## Reading -/

/-- `Buffer::findCRLF`, as an offset from `peek()`. -/
def findCRLF (b : Buffer) : Option Nat := search kCRLF b.readable

def retrieveAll (b : Buffer) : Buffer where
  buff := b.buff
  readIndex := kCheapPrepend
  writeIndex := kCheapPrepend
  read_le := Nat.le_refl _
  write_le := b.cheap_le
  cheap_le := b.cheap_le

/-- The body of `Buffer::retrieve`; its assertion is `len ≤ readableBytes`. -/
def retrieve (b : Buffer) (len : Nat) : Buffer :=
  if h : len < b.readableBytes then
    { b with
      readIndex := b.readIndex + len
      read_le := by simp only [readableBytes] at h; omega }
  else b.retrieveAll

/-- Nor has a buffer from which all was taken. -/
@[simp] theorem readable_retrieveAll (b : Buffer) : b.retrieveAll.readable = [] := by
  simp [readable, retrieveAll]

/-- Retrieving drops readable bytes from the front. -/
@[simp] theorem readable_retrieve (b : Buffer) (len : Nat) :
    (b.retrieve len).readable = b.readable.drop len := by
  rw [retrieve]
  split
  · simp only [readable, List.drop_drop]
  · rw [readable_retrieveAll, List.drop_eq_nil_of_le (by rw [length_readable]; omega)]

/-- `Buffer::readAsString`. -/
def readAsString (b : Buffer) (len : Nat) : Bytes × Buffer :=
  let len := if len > b.readableBytes then b.readableBytes else len
  (b.readable.take len, b.retrieve len)

/-- A read takes the first `len` bytes, or all there are. -/
theorem readAsString_fst (b : Buffer) (len : Nat) :
    (b.readAsString len).1 = b.readable.take len := by
  rw [readAsString]
  split
  · rw [List.take_of_length_le (by simp), List.take_of_length_le (by rw [length_readable]; omega)]
  · rfl

/-- What it leaves is what stands behind these bytes. -/
theorem readable_readAsString (b : Buffer) (len : Nat) :
    (b.readAsString len).2.readable = b.readable.drop len := by
  rw [readAsString]
  dsimp only
  rw [readable_retrieve]
  split
  · rw [List.drop_eq_nil_of_le (by simp), List.drop_eq_nil_of_le (by rw [length_readable]; omega)]
  · rfl

/-! ## Writing -/

/-- `Buffer::ensureWriteable`: grow, or move the readable bytes back to the front. -/
def ensureWriteable (b : Buffer) (len : Nat) : Buffer :=
  if len > b.writeableBytes then
    if hgrow : b.writeableBytes + b.prependBytes < len + kCheapPrepend then
      { b with
        buff := b.buff ++ List.replicate (b.writeIndex + len - b.buff.length) 0
        write_le := by have := b.write_le; rw [List.length_append]; omega
        cheap_le := by have := b.cheap_le; rw [List.length_append]; omega }
    else
      have hroom : kCheapPrepend + b.readable.length ≤ b.buff.length := by
        have := b.read_le
        have := b.write_le
        simp only [writeableBytes, prependBytes] at *
        simp only [length_readable, readableBytes]
        omega
      { buff := overwrite b.buff kCheapPrepend b.readable
        readIndex := kCheapPrepend
        writeIndex := kCheapPrepend + b.readableBytes
        read_le := by omega
        write_le := by rw [length_overwrite hroom, ← length_readable]; exact hroom
        cheap_le := by rw [length_overwrite hroom]; exact b.cheap_le }
  else b

/-- The assertion that ends `ensureWriteable`. -/
theorem le_writeableBytes_ensureWriteable (b : Buffer) (len : Nat) :
    len ≤ (b.ensureWriteable len).writeableBytes := by
  have hr := b.read_le
  have hw := b.write_le
  rw [ensureWriteable]
  split
  · split
    · simp only [writeableBytes, List.length_append, List.length_replicate]
      omega
    · rename_i hgrow
      have hroom : kCheapPrepend + b.readable.length ≤ b.buff.length := by
        simp only [writeableBytes, prependBytes] at hgrow
        simp only [length_readable, readableBytes]
        omega
      simp only [writeableBytes, prependBytes] at hgrow
      simp only [writeableBytes, length_overwrite hroom, readableBytes]
      omega
  · rename_i hle
    omega

/-- Making room leaves the readable bytes as they are. -/
@[simp] theorem readable_ensureWriteable (b : Buffer) (len : Nat) :
    (b.ensureWriteable len).readable = b.readable := by
  have hr := b.read_le
  have hw := b.write_le
  rw [ensureWriteable]
  split
  · split
    · simp only [readable, List.take_append_of_le_length hw]
    · rename_i hgrow
      have hroom : kCheapPrepend + b.readable.length ≤ b.buff.length := by
        simp only [writeableBytes, prependBytes] at hgrow
        simp only [length_readable, readableBytes]
        omega
      change ((overwrite b.buff kCheapPrepend b.readable).take
        (kCheapPrepend + b.readableBytes)).drop kCheapPrepend = b.readable
      rw [← length_readable]
      exact take_drop_overwrite hroom
  · rfl

/-- Copy to `beginWrite()` and advance the write index, given the room. -/
def place (b : Buffer) (src : Bytes) (h : src.length ≤ b.writeableBytes) : Buffer :=
  have hroom : b.writeIndex + src.length ≤ b.buff.length := by
    have := b.write_le
    simp only [writeableBytes] at h
    omega
  { buff := overwrite b.buff b.writeIndex src
    readIndex := b.readIndex
    writeIndex := b.writeIndex + src.length
    read_le := by have := b.read_le; omega
    write_le := by rw [length_overwrite hroom]; exact hroom
    cheap_le := by rw [length_overwrite hroom]; exact b.cheap_le }

/-- Placed bytes stand behind the readable ones. -/
theorem readable_place (b : Buffer) (src : Bytes) (h : src.length ≤ b.writeableBytes) :
    (b.place src h).readable = b.readable ++ src := by
  have hr := b.read_le
  have hw := b.write_le
  have hroom : b.writeIndex + src.length ≤ b.buff.length := by
    simp only [writeableBytes] at h
    omega
  have hback := take_drop_overwrite hroom
  have hfront := take_overwrite hw src
  have hsplit : (overwrite b.buff b.writeIndex src).take (b.writeIndex + src.length) =
      b.buff.take b.writeIndex ++ src := by
    rw [← List.take_append_drop b.writeIndex
      ((overwrite b.buff b.writeIndex src).take (b.writeIndex + src.length)), hback,
      List.take_take, Nat.min_eq_left (Nat.le_add_right _ _), hfront]
  rw [place, readable, hsplit, readable,
    List.drop_append_of_le_length (by simp only [List.length_take]; omega)]

/-- `Buffer::append`. -/
def append (b : Buffer) (src : Bytes) : Buffer :=
  (b.ensureWriteable src.length).place src (b.le_writeableBytes_ensureWriteable src.length)

/-- Bytes appended stand behind the readable ones, whether the buffer grows or moves its bytes. -/
@[simp] theorem readable_append (b : Buffer) (src : Bytes) :
    (b.append src).readable = b.readable ++ src := by
  rw [append, readable_place, readable_ensureWriteable]

/-- `Buffer::prepend` of what fits in front of the readable bytes. -/
def prepend (b : Buffer) (src : Bytes) (h : src.length ≤ b.prependBytes) : Buffer :=
  have hroom : b.readIndex - src.length + src.length ≤ b.buff.length := by
    have := b.read_le
    have := b.write_le
    simp only [prependBytes] at h
    omega
  { buff := overwrite b.buff (b.readIndex - src.length) src
    readIndex := b.readIndex - src.length
    writeIndex := b.writeIndex
    read_le := by have := b.read_le; omega
    write_le := by rw [length_overwrite hroom]; exact b.write_le
    cheap_le := by rw [length_overwrite hroom]; exact b.cheap_le }

/-- Prepended bytes stand in front of the readable ones. -/
theorem readable_prepend (b : Buffer) (src : Bytes) (h : src.length ≤ b.prependBytes) :
    (b.prepend src h).readable = src ++ b.readable := by
  have hr := b.read_le
  have hw := b.write_le
  simp only [prependBytes] at h
  have hfront : (b.buff.take (b.readIndex - src.length)).length = b.readIndex - src.length := by
    simp only [List.length_take]
    omega
  have hback : b.readIndex - src.length + src.length = b.readIndex := by omega
  simp only [readable, prepend, overwrite, hback]
  rw [List.append_assoc, List.take_append, List.take_append, hfront,
    List.drop_append_of_le_length (by simp only [List.length_take, hfront]; omega),
    List.drop_eq_nil_of_le (by simp only [List.length_take, hfront]; omega), List.nil_append,
    List.take_of_length_le (by omega), List.take_drop]
  congr 3
  omega

/-! ## File descriptors -/

/-- `Buffer::readFd` after `readv` has delivered `data`: what fits goes behind the write index,
the rest through the stack buffer. -/
def readFd (b : Buffer) (data : Bytes) : Buffer :=
  if h : data.length < b.writeableBytes then b.place data h.le
  else
    (b.place (data.take b.writeableBytes) (by simp)).append (data.drop b.writeableBytes)

/-- Whatever the split, the received bytes are queued in order. -/
@[simp] theorem readable_readFd (b : Buffer) (data : Bytes) :
    (b.readFd data).readable = b.readable ++ data := by
  rw [readFd]
  split
  · exact readable_place b data _
  · rw [readable_append, readable_place, List.append_assoc, List.take_append_drop]

/-- `Buffer::WriteFd` after `::write` has taken `n` bytes: what the kernel got, and the rest. -/
def writeFd (b : Buffer) (n : Nat) : Bytes × Buffer := (b.readable.take n, b.retrieve n)

end Buffer

end ClearMoon.Net

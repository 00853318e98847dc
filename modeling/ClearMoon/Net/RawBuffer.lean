import ClearMoon.Core.Refinement
import ClearMoon.Net.Buffer

/-!
# The buffer as its source has it

Here a buffer is a vector and two indices about which nothing is promised. An operation has no
result where an assertion of it fails, where it accesses the vector out of its bounds, or where it
calls `std::copy` with a destination inside the source. On every sequence of allowed calls the
operations have results, do what the operations of `Buffer` do, and so refine a byte queue. Sizes
are sizes of objects in memory: no sum in the source wraps around.
-/

namespace ClearMoon.Net

/-! ## Copies -/

/-- `std::copy` of a range of other memory to position `pos` of a vector. -/
def copyIn (buff : Bytes) (pos : Nat) (src : Bytes) : Option Bytes :=
  if pos + src.length ≤ buff.length then some (overwrite buff pos src) else none

/-- The loop of `std::copy` within one vector, in ascending order. -/
def copyLoop (buff : Bytes) (first dest : Nat) : Nat → Option Bytes
  | 0 => some buff
  | n + 1 =>
    match buff[first]? with
    | none => none
    | some c => if dest < buff.length then copyLoop (buff.set dest c) (first + 1) (dest + 1) n
      else none

/-- `std::copy` within one vector; the destination must not lie in the source. -/
def copyWithin (buff : Bytes) (first last dest : Nat) : Option Bytes :=
  if first ≤ dest ∧ dest < last then none else copyLoop buff first dest (last - first)

/-- What stands in a vector after a copy into it. -/
theorem getElem?_overwrite {buff src : Bytes} {pos : Nat} (h : pos + src.length ≤ buff.length)
    (i : Nat) : (overwrite buff pos src)[i]? =
      if pos ≤ i ∧ i < pos + src.length then src[i - pos]? else buff[i]? := by
  have hfront : (buff.take pos).length = pos := by simp only [List.length_take]; omega
  simp only [overwrite, List.append_assoc, List.getElem?_append, hfront, List.getElem?_take,
    List.getElem?_drop]
  by_cases hlt : i < pos
  · rw [if_pos hlt, if_pos hlt, if_neg (by omega)]
  · by_cases hin : i < pos + src.length
    · rw [if_neg hlt, if_pos (by omega), if_pos (by omega)]
    · rw [if_neg hlt, if_neg (by omega), if_neg (by omega)]
      congr 1
      omega

/-- A copy towards the front may overlap its source: what is read has not been written yet. -/
theorem copyLoop_eq_overwrite {buff : Bytes} {first dest n : Nat} (hlt : dest < first)
    (hroom : first + n ≤ buff.length) :
    copyLoop buff first dest n = some (overwrite buff dest ((buff.drop first).take n)) := by
  induction n generalizing buff first dest with
  | zero => simp [copyLoop, overwrite]
  | succ n ih =>
    have hfirst : first < buff.length := by omega
    rw [copyLoop, List.getElem?_eq_getElem hfirst]
    dsimp only
    rw [if_pos (by omega), ih (by omega) (by simp only [List.length_set]; omega)]
    congr 1
    apply List.ext_getElem?
    intro i
    have hlength (m f : Nat) (bs : Bytes) (h : f + m ≤ bs.length) :
        ((bs.drop f).take m).length = m := by
      simp only [List.length_take, List.length_drop]
      omega
    have hset : (buff.set dest buff[first]).length = buff.length := List.length_set
    rw [getElem?_overwrite (by rw [hlength _ _ _ (by omega), hset]; omega),
      getElem?_overwrite (by rw [hlength _ _ _ (by omega)]; omega),
      hlength _ _ _ (by omega), hlength _ _ _ (by omega)]
    simp only [List.getElem?_take, List.getElem?_drop, List.getElem?_set]
    -- the byte at `dest` was copied by this pass, the others by the later ones
    by_cases hi : i = dest
    · subst hi
      rw [if_neg (by omega), if_pos rfl, if_pos (by omega), if_pos (by omega), if_pos (by omega)]
      simp [hfirst]
    · by_cases hin : dest ≤ i ∧ i < dest + (n + 1)
      · rw [if_pos (by omega), if_pos (by omega), if_neg (by omega), if_pos hin, if_pos (by omega)]
        congr 1
        omega
      · rw [if_neg (by omega), if_neg (by omega), if_neg hin]

/-! ## The members and their operations -/

/-- The members of `Buffer`. -/
structure RawBuffer where
  buff : Bytes
  readIndex : Nat
  writeIndex : Nat
  deriving DecidableEq, Repr

namespace RawBuffer

/-- The constructor; `InitSize` only reserves memory. -/
def new : RawBuffer where
  buff := List.replicate kCheapPrepend 0
  readIndex := kCheapPrepend
  writeIndex := kCheapPrepend

def readableBytes (b : RawBuffer) : Nat := b.writeIndex - b.readIndex

def writeableBytes (b : RawBuffer) : Nat := b.buff.length - b.writeIndex

def prependBytes (b : RawBuffer) : Nat := b.readIndex

/-- The `len` bytes from `peek()` on. -/
def peek (b : RawBuffer) (len : Nat) : Option Bytes :=
  if b.readIndex + len ≤ b.buff.length then some ((b.buff.drop b.readIndex).take len) else none

def retrieveAll (b : RawBuffer) : RawBuffer :=
  { b with writeIndex := kCheapPrepend, readIndex := kCheapPrepend }

/-- `Buffer::retrieve`. -/
def retrieve (b : RawBuffer) (len : Nat) : Option RawBuffer :=
  if b.readableBytes < len then none
  else if len < b.readableBytes then some { b with readIndex := b.readIndex + len }
  else some b.retrieveAll

/-- `Buffer::read`, with what it has copied to `dst`. -/
def read (b : RawBuffer) (len : Nat) : Option (Bytes × RawBuffer) := do
  let len := if len > b.readableBytes then b.readableBytes else len
  let dst ← b.peek len
  let b ← b.retrieve len
  some (dst, b)

/-- `Buffer::readAsString`. -/
def readAsString (b : RawBuffer) (len : Nat) : Option (Bytes × RawBuffer) := do
  let len := if len > b.readableBytes then b.readableBytes else len
  let result ← b.peek len
  let b ← b.retrieve len
  some (result, b)

/-- The body of `Buffer::ensureWriteable`, up to its assertion. -/
def makeSpace (b : RawBuffer) (len : Nat) : Option RawBuffer :=
  if len > b.writeableBytes then
    if b.writeableBytes + b.prependBytes < len + kCheapPrepend then
      some { b with
        buff := b.buff.take (b.writeIndex + len) ++
          List.replicate (b.writeIndex + len - b.buff.length) 0 }
    else
      let readalbeSize := b.readableBytes
      (copyWithin b.buff b.readIndex b.writeIndex kCheapPrepend).map fun buff =>
        { buff, readIndex := kCheapPrepend, writeIndex := kCheapPrepend + readalbeSize }
  else some b

/-- `Buffer::ensureWriteable`. -/
def ensureWriteable (b : RawBuffer) (len : Nat) : Option RawBuffer := do
  let b ← b.makeSpace len
  if b.writeableBytes < len then none else some b

/-- `Buffer::append`. -/
def append (b : RawBuffer) (src : Bytes) : Option RawBuffer := do
  let b ← b.ensureWriteable src.length
  let buff ← copyIn b.buff b.writeIndex src
  some { b with buff, writeIndex := b.writeIndex + src.length }

/-- `Buffer::write`. -/
def write (b : RawBuffer) (src : Bytes) : Option RawBuffer := do
  let b ← b.ensureWriteable src.length
  let buff ← copyIn b.buff b.writeIndex src
  some { b with buff, writeIndex := b.writeIndex + src.length }

/-- `Buffer::prepend`. -/
def prepend (b : RawBuffer) (src : Bytes) : Option RawBuffer :=
  if b.prependBytes < src.length then none
  else do
    let readIndex := b.readIndex - src.length
    let buff ← copyIn b.buff readIndex src
    some { b with buff, readIndex }

/-- `sizeof extraData`. -/
def extraDataSize : Nat := 65536

/-- `Buffer::readFd` when `readv` delivers `data`: into the vector first, then into `extraData`. -/
def readFd (b : RawBuffer) (data : Bytes) : Option RawBuffer := do
  let writeble := b.writeableBytes
  let buff ← copyIn b.buff b.writeIndex (data.take writeble)
  if data.length < writeble then some { b with buff, writeIndex := b.writeIndex + data.length }
  else RawBuffer.append { b with buff, writeIndex := buff.length } (data.drop writeble)

/-- `Buffer::WriteFd` when `::write` takes `n` bytes, with what the kernel has got. -/
def writeFd (b : RawBuffer) (n : Nat) : Option (Bytes × RawBuffer) := do
  let data ← b.peek n
  let b ← b.retrieve n
  some (data, b)

/-- The bytes between the two indices. -/
def readable (b : RawBuffer) : Bytes := (b.buff.take b.writeIndex).drop b.readIndex

end RawBuffer

/-! ## Calls -/

/-- The operations of a buffer. -/
inductive BufferCall where
  | append (src : Bytes)
  | write (src : Bytes)
  | prepend (src : Bytes)
  | retrieve (len : Nat)
  | retrieveAll
  | read (len : Nat)
  | readAsString (len : Nat)
  /-- `readv` delivers these bytes. -/
  | readFd (data : Bytes)
  /-- `::write` takes so many bytes. -/
  | writeFd (n : Nat)
  deriving DecidableEq, Repr

/-- A byte queue, and the bytes that a call takes out of it for its caller. -/
def queueSpec (q : Bytes) : BufferCall → Bytes × Bytes
  | .append src | .write src | .readFd src => ([], q ++ src)
  | .prepend src => ([], src ++ q)
  | .retrieve len => ([], q.drop len)
  | .retrieveAll => ([], [])
  | .read len | .readAsString len | .writeFd len => (q.take len, q.drop len)

namespace RawBuffer

/-- Make a call. -/
def exec (b : RawBuffer) : BufferCall → Option (Bytes × RawBuffer)
  | .append src => (b.append src).map ([], ·)
  | .write src => (b.write src).map ([], ·)
  | .prepend src => (b.prepend src).map ([], ·)
  | .retrieve len => (b.retrieve len).map ([], ·)
  | .retrieveAll => some ([], b.retrieveAll)
  | .read len => b.read len
  | .readAsString len => b.readAsString len
  | .readFd data => (b.readFd data).map ([], ·)
  | .writeFd n => b.writeFd n

/-- What the caller of an operation, or the kernel, promises. -/
def Allowed (b : RawBuffer) : BufferCall → Prop
  | .prepend src => src.length ≤ b.prependBytes
  | .retrieve len => len ≤ b.readableBytes
  | .readFd data => data.length ≤ b.writeableBytes + extraDataSize
  | .writeFd n => n ≤ b.readableBytes
  | _ => True

instance (b : RawBuffer) (c : BufferCall) : Decidable (b.Allowed c) := by
  unfold Allowed
  split <;> infer_instance

/-- Make a call and forget what it returns. -/
def step (b : RawBuffer) (c : BufferCall) : Option RawBuffer := (b.exec c).map Prod.snd

end RawBuffer

namespace Buffer

/-- The members, without what is promised about them. -/
def raw (b : Buffer) : RawBuffer := ⟨b.buff, b.readIndex, b.writeIndex⟩

/-- The same calls on a buffer that carries its invariant. -/
def exec (b : Buffer) : BufferCall → Bytes × Buffer
  | .append src | .write src => ([], b.append src)
  | .prepend src => ([], if h : src.length ≤ b.prependBytes then b.prepend src h else b)
  | .retrieve len => ([], b.retrieve len)
  | .retrieveAll => ([], b.retrieveAll)
  | .read len | .readAsString len => b.readAsString len
  | .readFd data => ([], b.readFd data)
  | .writeFd n => b.writeFd n

/-! ## The operations have results -/

/-- `retrieve` moves the read index as the buffer does. -/
theorem raw_retrieve (b : Buffer) {len : Nat} (h : len ≤ b.readableBytes) :
    b.raw.retrieve len = some (b.retrieve len).raw := by
  change len ≤ b.raw.readableBytes at h
  rw [RawBuffer.retrieve, if_neg (by omega), retrieve]
  by_cases hlt : len < b.readableBytes
  · rw [if_pos (show len < b.raw.readableBytes from hlt), dif_pos hlt]
    rfl
  · rw [if_neg (show ¬len < b.raw.readableBytes from hlt), dif_neg hlt]
    rfl

/-- `peek` looks at the first readable bytes. -/
theorem raw_peek (b : Buffer) {len : Nat} (h : len ≤ b.readableBytes) :
    b.raw.peek len = some (b.readable.take len) := by
  have hr := b.read_le
  have hw := b.write_le
  simp only [readableBytes] at h
  rw [RawBuffer.peek, if_pos (by simp only [raw]; omega), readable, List.drop_take,
    List.take_take, Nat.min_eq_left h]
  rfl

/-- A read copies the bytes out and moves the read index behind them. -/
theorem raw_read (b : Buffer) (len : Nat) :
    b.raw.read len = some ((b.readAsString len).1, (b.readAsString len).2.raw) := by
  have hle : (if len > b.readableBytes then b.readableBytes else len) ≤ b.readableBytes := by
    split <;> omega
  rw [RawBuffer.read, readAsString]
  change ((b.raw.peek (if len > b.readableBytes then b.readableBytes else len)).bind _) = _
  rw [b.raw_peek hle, Option.bind_some]
  change ((b.raw.retrieve (if len > b.readableBytes then b.readableBytes else len)).bind _) = _
  rw [b.raw_retrieve hle]
  rfl

/-- Growing and moving to the front both leave what the carried invariant allows. -/
theorem raw_makeSpace (b : Buffer) (len : Nat) :
    b.raw.makeSpace len = some (b.ensureWriteable len).raw := by
  have hr := b.read_le
  have hw := b.write_le
  rw [RawBuffer.makeSpace, ensureWriteable]
  by_cases hlen : len > b.writeableBytes
  · rw [if_pos hlen, if_pos (show len > b.raw.writeableBytes from hlen)]
    by_cases hgrow : b.writeableBytes + b.prependBytes < len + kCheapPrepend
    · rw [if_pos (show b.raw.writeableBytes + b.raw.prependBytes < _ from hgrow), dif_pos hgrow]
      simp only [writeableBytes] at hlen
      rw [List.take_of_length_le (by simp only [raw]; omega)]
      rfl
    · rw [if_neg (show ¬b.raw.writeableBytes + b.raw.prependBytes < _ from hgrow), dif_neg hgrow]
      simp only [writeableBytes, prependBytes] at hlen hgrow
      have hcopy : copyWithin b.raw.buff b.raw.readIndex b.raw.writeIndex kCheapPrepend =
          some (overwrite b.buff kCheapPrepend b.readable) := by
        rw [copyWithin, if_neg (by simp only [raw]; omega),
          copyLoop_eq_overwrite (by simp only [raw]; omega) (by simp only [raw]; omega), readable,
          List.drop_take]
        rfl
      rw [hcopy]
      rfl
  · rw [if_neg hlen, if_neg (show ¬len > b.raw.writeableBytes from hlen)]

/-- The assertion that ends `ensureWriteable` holds. -/
theorem raw_ensureWriteable (b : Buffer) (len : Nat) :
    b.raw.ensureWriteable len = some (b.ensureWriteable len).raw := by
  rw [RawBuffer.ensureWriteable, b.raw_makeSpace, Option.bind_eq_bind, Option.bind_some]
  exact if_neg (Nat.not_lt.mpr (b.le_writeableBytes_ensureWriteable len))

/-- What fits behind the write index is copied there. -/
theorem copyIn_place (b : Buffer) (src : Bytes) (h : src.length ≤ b.writeableBytes) :
    copyIn b.buff b.writeIndex src = some (b.place src h).buff := by
  have hw := b.write_le
  simp only [writeableBytes] at h
  rw [copyIn, if_pos (by omega)]
  rfl

/-- `append` makes room and copies the bytes behind the readable ones. -/
theorem raw_append (b : Buffer) (src : Bytes) : b.raw.append src = some (b.append src).raw := by
  rw [RawBuffer.append, b.raw_ensureWriteable]
  change ((copyIn (b.ensureWriteable src.length).buff (b.ensureWriteable src.length).writeIndex
    src).bind _) = _
  rw [copyIn_place _ _ (b.le_writeableBytes_ensureWriteable src.length)]
  rfl

/-- `prepend` copies the bytes in front of the readable ones, where they fit. -/
theorem raw_prepend (b : Buffer) (src : Bytes) (h : src.length ≤ b.prependBytes) :
    b.raw.prepend src = some (b.prepend src h).raw := by
  have hr := b.read_le
  have hw := b.write_le
  have hcopy : copyIn b.raw.buff (b.raw.readIndex - src.length) src =
      some (b.prepend src h).buff := by
    simp only [prependBytes] at h
    rw [copyIn, if_pos (by simp only [raw]; omega)]
    rfl
  rw [RawBuffer.prepend, if_neg (show ¬b.raw.prependBytes < src.length from Nat.not_lt.mpr h)]
  simp only [hcopy, Option.bind_eq_bind, Option.bind_some]
  rfl

/-- Whether the received bytes fit or not, they are placed as `Buffer` places them. -/
theorem raw_readFd (b : Buffer) (data : Bytes) : b.raw.readFd data = some (b.readFd data).raw := by
  have hfit : (data.take b.writeableBytes).length ≤ b.writeableBytes := by simp
  have hcopy : copyIn b.raw.buff b.raw.writeIndex (data.take b.raw.writeableBytes) =
      some (b.place (data.take b.writeableBytes) hfit).buff := b.copyIn_place _ hfit
  rw [RawBuffer.readFd]
  simp only [hcopy, Option.bind_eq_bind, Option.bind_some]
  rw [readFd]
  by_cases hlt : data.length < b.writeableBytes
  · have hall : data.take b.writeableBytes = data := List.take_of_length_le hlt.le
    rw [if_pos (show data.length < b.raw.writeableBytes from hlt), dif_pos hlt]
    simp only [hall]
    rfl
  · rw [if_neg (show ¬data.length < b.raw.writeableBytes from hlt), dif_neg hlt, ← raw_append]
    congr 1
    have hw := b.write_le
    have hroom : b.writeIndex + (data.take b.writeableBytes).length ≤ b.buff.length := by
      simp only [List.length_take, writeableBytes]
      omega
    simp only [raw, place, length_overwrite hroom, RawBuffer.mk.injEq, true_and]
    simp only [writeableBytes, List.length_take] at hlt ⊢
    omega

/-- What `write` took is retrieved. -/
theorem raw_writeFd (b : Buffer) {n : Nat} (h : n ≤ b.readableBytes) :
    b.raw.writeFd n = some ((b.writeFd n).1, (b.writeFd n).2.raw) := by
  rw [RawBuffer.writeFd, b.raw_peek h, b.raw_retrieve h]
  rfl

end Buffer

/-! ## Refinement -/

namespace RawBuffer

/-- The raw operations refine those that carry the invariant. -/
theorem refines_buffer : Refines exec Allowed Buffer.exec fun raw b => raw = b.raw where
  call := by
    rintro _ b c rfl ha
    cases c with
    | append src => exact ⟨_, by rw [exec, b.raw_append]; rfl, rfl⟩
    | write src => exact ⟨_, by rw [exec, show b.raw.write src = _ from b.raw_append src]; rfl, rfl⟩
    | prepend src =>
      refine ⟨_, ?_, rfl⟩
      rw [exec, b.raw_prepend src ha, Buffer.exec,
        dif_pos (show src.length ≤ b.prependBytes from ha)]
      rfl
    | retrieve len => exact ⟨_, by rw [exec, b.raw_retrieve ha]; rfl, rfl⟩
    | retrieveAll => exact ⟨_, rfl, rfl⟩
    | read len => exact ⟨_, b.raw_read len, rfl⟩
    | readAsString len => exact ⟨_, b.raw_read len, rfl⟩
    | readFd data => exact ⟨_, by rw [exec, b.raw_readFd]; rfl, rfl⟩
    | writeFd n => exact ⟨_, b.raw_writeFd ha, rfl⟩

/-- They refine a byte queue. -/
theorem refines_queue :
    Refines exec Allowed queueSpec fun raw q => ∃ b : Buffer, raw = b.raw ∧ b.readable = q := by
  have hallowed : ∀ {raw b c}, raw = Buffer.raw b → Allowed raw c → b.raw.Allowed c := by
    rintro _ b c rfl ha
    exact ha
  refine refines_buffer.trans hallowed ?_
  intro b c ha
  cases c with
  | append src => exact ⟨rfl, b.readable_append src⟩
  | write src => exact ⟨rfl, b.readable_append src⟩
  | prepend src =>
    rw [Buffer.exec, dif_pos (show src.length ≤ b.prependBytes from ha)]
    exact ⟨rfl, b.readable_prepend src ha⟩
  | retrieve len => exact ⟨rfl, b.readable_retrieve len⟩
  | retrieveAll => exact ⟨rfl, b.readable_retrieveAll⟩
  | read len => exact ⟨b.readAsString_fst len, b.readable_readAsString len⟩
  | readAsString len => exact ⟨b.readAsString_fst len, b.readable_readAsString len⟩
  | readFd data => exact ⟨rfl, b.readable_readFd data⟩
  | writeFd n => exact ⟨rfl, b.readable_retrieve n⟩

/-- After every sequence of allowed calls the indices are in order, the bytes between them are the
queue, and the next allowed call meets its assertions and answers as the queue does. -/
theorem queue_of_run {b : RawBuffer} {cs : List BufferCall} (h : Run step Allowed new cs b) :
    b.readIndex ≤ b.writeIndex ∧ b.writeIndex ≤ b.buff.length ∧
      b.readable = specState queueSpec [] cs ∧
      ∀ c, b.Allowed c → ∃ b', b.exec c = some ((queueSpec b.readable c).1, b') := by
  obtain ⟨b, rfl, hqueue⟩ := refines_queue.of_run ⟨.new, rfl, Buffer.readable_new⟩ h
  refine ⟨b.read_le, b.write_le, hqueue, fun c hc => ?_⟩
  obtain ⟨b', hexec, -⟩ := refines_queue.call ⟨b, rfl, rfl⟩ hc
  exact ⟨b', hexec⟩

/-- Growth, a drain, a compaction over its own source, and a prefix in consumed space. -/
def growAndCompact : List BufferCall :=
  [.append [1, 2, 3, 4, 5, 6], .read 2, .retrieve 2, .append [7], .writeFd 1, .prepend [9, 8],
    .readFd [10, 11], .readAsString 9, .write [12], .retrieveAll]

/-- A run in which the storage grows and, later, the bytes move to the front. -/
theorem queue_of_run_growAndCompact :
    ∃ b, Run step Allowed new growAndCompact b ∧
      b.readIndex ≤ b.writeIndex ∧ b.writeIndex ≤ b.buff.length ∧
      b.readable = specState queueSpec [] growAndCompact ∧
      ∀ c, b.Allowed c → ∃ b', b.exec c = some ((queueSpec b.readable c).1, b') := by
  obtain ⟨b, hb⟩ := Option.isSome_iff_exists.mp
    (show (replay step Allowed new growAndCompact).isSome by decide +kernel)
  exact ⟨b, .of_replay hb, queue_of_run (.of_replay hb)⟩

end RawBuffer

end ClearMoon.Net

import ClearMoon.Core.Machine
import ClearMoon.Log.LogFile

/-!
# The asynchronous logger

Threads append messages to the current buffer; the back thread takes the full buffers and the
current one in its critical section, writes them to the files and recycles them. Buffers are owned
by one of five holders, through pointers that may be null. `append` is one step and takes no part
in the critical section at the same time; the back thread takes its steps one buffer at a time.
-/

namespace ClearMoon.Log

open ClearMoon.Net

/-- `BufferPtr`; `nullptr` is `none`. -/
abbrev BufferPtr := Option Buffer

/-- Where the back thread is. -/
inductive Back where
  /-- There is no thread. -/
  | absent
  /-- The thread has been made, and has not run. -/
  | begin
  /-- It is about to test `running_` in the condition of its loop. -/
  | test
  /-- It waits for the condition variable. -/
  | wait
  /-- It holds the mutex, and its wait is over. -/
  | locked
  /-- It writes the buffer of this index. -/
  | writing (i : Nat)
  /-- It empties the buffer of this index. -/
  | retrieving (i : Nat)
  /-- It is about to take back `buffA` and `buffB`. -/
  | recycle
  /-- `threadFunc` has returned. -/
  | exited
  deriving DecidableEq, Repr

/-- The back thread is on its way to its critical section, and will use `buffA` there. -/
def Back.usesA : Back → Bool
  | .test | .wait | .locked => true
  | _ => false

/-- The back thread has taken a round of buffers and not recycled them. -/
def Back.hasTaken : Back → Bool
  | .writing _ | .retrieving _ | .recycle => true
  | _ => false

/-- `net/Log/AsyncLogger.h`, the locals of `threadFunc` and the calls of `stop`. -/
structure AsyncLogger where
  currentBuffer : BufferPtr := some .new
  nextBuffer : BufferPtr := some .new
  buffers : List BufferPtr := []
  running : Bool := false
  file : LogFile
  back : Back := .absent
  buffA : BufferPtr := none
  buffB : BufferPtr := none
  buffersToWrite : List BufferPtr := []
  /-- A null pointer, or the last element of an empty vector, was used. -/
  nullUsed : Bool := false
  /-- The messages that were appended. -/
  appended : Bytes := []
  /-- `stop` is joining the thread; what had been appended when it was called. -/
  stopping : Option Bytes := none
  /-- For each `stop` that has returned, what had been appended when it was called, and what had
  been written when it returned. -/
  stopped : List (Bytes × Bytes) := []

inductive Action where
  | start
  | append (data : Bytes)
  /-- `stop` is called; it returns at once if `running_` is not set. -/
  | stop
  /-- `join` returns in `stop`. -/
  | stopReturns
  /-- The back thread goes on, on this day. -/
  | back (now : Date)
  deriving DecidableEq, Repr

/-- What stands in some buffers. -/
def contents (bs : List BufferPtr) : Bytes := bs.flatMap fun b => b.elim [] Buffer.readable

@[simp] theorem contents_nil : contents [] = [] := rfl

@[simp] theorem contents_cons (b : BufferPtr) (bs : List BufferPtr) :
    contents (b :: bs) = b.elim [] Buffer.readable ++ contents bs := rfl

@[simp] theorem contents_append (bs cs : List BufferPtr) :
    contents (bs ++ cs) = contents bs ++ contents cs :=
  List.flatMap_append

namespace AsyncLogger

/-- The constructor. -/
def new (file : LogFile) : AsyncLogger where
  file := file

def useNull (w : AsyncLogger) : AsyncLogger := { w with nullUsed := true }

/-- `currentBuffer_->append`. -/
def appendCurrent (w : AsyncLogger) (data : Bytes) : AsyncLogger :=
  match w.currentBuffer with
  | none => w.useNull
  | some b => { w with currentBuffer := some (b.append data) }

/-- The current buffer is full: it moves to the vector, and the next one or a new one takes its
place. -/
def replaceCurrent (w : AsyncLogger) : AsyncLogger :=
  let w := { w with buffers := w.buffers ++ [w.currentBuffer], currentBuffer := none }
  if w.nextBuffer.isSome then { w with currentBuffer := w.nextBuffer, nextBuffer := none }
  else { w with currentBuffer := some .new }

/-- The body of `append`. -/
def appendData (w : AsyncLogger) (data : Bytes) : AsyncLogger :=
  match w.currentBuffer with
  | none => w.useNull
  | some b =>
    if b.writeableBytes > data.length then w.appendCurrent data
    else w.replaceCurrent.appendCurrent data

/-- `AsyncLogger::append`. -/
def append (w : AsyncLogger) (data : Bytes) : AsyncLogger :=
  { w.appendData data with appended := w.appended ++ data }

/-- The predicate of `cond_.wait`. -/
def wakes (w : AsyncLogger) : Bool := !w.running || !w.buffers.isEmpty

/-- There is something to take: `!buffers_.empty() || currentBuffer_->readableBytes() > 0`. -/
def somethingToTake (w : AsyncLogger) : Bool :=
  !w.buffers.isEmpty || 0 < (w.currentBuffer.elim 0 Buffer.readableBytes)

/-- The null pointer that the test of `somethingToTake` may follow. -/
def checkCurrent (w : AsyncLogger) : AsyncLogger :=
  if w.buffers.isEmpty ∧ w.currentBuffer.isNone then w.useNull else w

/-- The critical section takes all buffers. -/
def takeAll (w : AsyncLogger) : AsyncLogger :=
  let w := { w with
    buffers := w.buffersToWrite
    buffersToWrite := w.buffers ++ [w.currentBuffer]
    currentBuffer := w.buffA
    buffA := none }
  if w.nextBuffer.isNone then { w with nextBuffer := w.buffB, buffB := none } else w

/-- `threadFunc` returns, and its locals are destroyed. -/
def exit (w : AsyncLogger) : AsyncLogger :=
  { w with back := .exited, buffA := none, buffB := none, buffersToWrite := [] }

/-- The critical section of `threadFunc`. -/
def critical (w : AsyncLogger) : AsyncLogger :=
  let w := w.checkCurrent
  if w.somethingToTake then { w.takeAll with back := .writing 0 }
  else if !w.running then w.exit
  else { w with back := .writing 0 }

/-- `write(buf->peek(), buf->readableBytes())`. -/
def writeBuffer (w : AsyncLogger) (now : Date) (b : BufferPtr) : AsyncLogger :=
  match b with
  | none => w.useNull
  | some b => { w with file := w.file.write now b.readable }

/-- `buf->retrieveAll()`. -/
def retrieveBuffer (w : AsyncLogger) (i : Nat) (b : BufferPtr) : AsyncLogger :=
  match b with
  | none => w.useNull
  | some b => { w with buffersToWrite := w.buffersToWrite.set i (some b.retrieveAll) }

/-- Take back `buffA`. -/
def recycleA (w : AsyncLogger) : AsyncLogger :=
  if w.buffA.isSome then w
  else match w.buffersToWrite.getLast? with
    | none => w.useNull
    | some b => { w with buffA := b, buffersToWrite := w.buffersToWrite.dropLast }

/-- Take back `buffB`, if there is a buffer left. -/
def recycleB (w : AsyncLogger) : AsyncLogger :=
  if w.buffB.isSome then w
  else match w.buffersToWrite.getLast? with
    | none => w
    | some b => { w with buffB := b, buffersToWrite := w.buffersToWrite.dropLast }

/-- A step of `threadFunc`. -/
def backStep (w : AsyncLogger) (now : Date) : Option AsyncLogger :=
  match w.back with
  | .absent | .exited => none
  | .begin =>
    some { w with back := .test, buffA := some .new, buffB := some .new, buffersToWrite := [] }
  | .test => some (if w.running then { w with back := .wait } else w.exit)
  | .wait => if w.wakes then some { w with back := .locked } else none
  | .locked => some w.critical
  | .writing i =>
    match w.buffersToWrite[i]? with
    | some b => some { w.writeBuffer now b with back := .writing (i + 1) }
    | none => some { w with back := .retrieving 0 }
  | .retrieving i =>
    match w.buffersToWrite[i]? with
    | some b => some { w.retrieveBuffer i b with back := .retrieving (i + 1) }
    | none => some { w with back := .recycle }
  | .recycle => some { w.recycleA.recycleB with back := .test }

def step (w : AsyncLogger) : Action → Option AsyncLogger
  | .start =>
    if w.running then some w
    else if w.back = .absent ∧ w.stopping.isNone then
      some { w with running := true, back := .begin }
    else none
  | .append data => if w.back = .locked then none else some (w.append data)
  | .stop =>
    if w.running then some { w with running := false, stopping := some w.appended }
    else some { w with stopped := w.stopped ++ [(w.appended, w.file.bytes)] }
  | .stopReturns =>
    match w.stopping with
    | some snapshot =>
      if w.back = .exited then
        some { w with
          back := .absent
          stopping := none
          stopped := w.stopped ++ [(snapshot, w.file.bytes)] }
      else none
    | none => none
  | .back now => w.backStep now

/-! ## What is where -/

/-- What the back thread has taken and not written. -/
def unwritten (w : AsyncLogger) : Bytes :=
  match w.back with
  | .writing i => contents (w.buffersToWrite.drop i)
  | _ => []

/-- What the back thread has not taken. -/
def untaken (w : AsyncLogger) : Bytes := contents w.buffers ++ contents [w.currentBuffer]

/-- How many buffers of the round have been emptied. -/
def emptied (w : AsyncLogger) : Nat :=
  match w.back with
  | .writing _ => 0
  | .retrieving i => i
  | _ => w.buffersToWrite.length

/-- A buffer that is there is empty. -/
def HoldsNothing (b : BufferPtr) : Prop := ∀ x ∈ b, x.readable = []

/-- The holders of the buffers, in every reachable state. -/
structure Inv (w : AsyncLogger) : Prop where
  coherent : w.file.Coherent
  conserved : w.file.bytes ++ w.unwritten ++ w.untaken = w.appended
  current : w.currentBuffer.isSome
  buffers : ∀ b ∈ w.buffers, b.isSome
  toWrite : ∀ b ∈ w.buffersToWrite, b.isSome
  next_empty : HoldsNothing w.nextBuffer
  a_empty : HoldsNothing w.buffA
  b_empty : HoldsNothing w.buffB
  a_some : w.back.usesA = true → w.buffA.isSome
  taken : w.back.hasTaken = true → w.buffA = none → w.buffersToWrite ≠ []
  leftover : ∀ b ∈ w.buffersToWrite.take w.emptied, HoldsNothing b
  thread : w.running = true → w.back ≠ .absent ∧ w.back ≠ .exited
  nullUsed : w.nullUsed = false

variable {w w' : AsyncLogger}

/-- While a buffer is being written, it and those behind it are unwritten. -/
theorem unwritten_of_writing {i : Nat} (h : w.back = .writing i) :
    w.unwritten = contents (w.buffersToWrite.drop i) := by
  rw [unwritten, h]

/-- A new logger holds nothing. -/
theorem inv_new {file : LogFile} (hcoherent : file.Coherent) (hbytes : file.bytes = []) :
    (new file).Inv := by
  constructor <;> simp_all [new, unwritten, untaken, HoldsNothing, Back.usesA, Back.hasTaken]

/-- Buffers that hold nothing have no contents. -/
theorem contents_eq_nil {bs : List BufferPtr} (h : ∀ b ∈ bs, HoldsNothing b) :
    contents bs = [] := by
  induction bs with
  | nil => rfl
  | cons b bs ih =>
    rw [contents_cons, ih fun c hc => h c (List.mem_cons_of_mem _ hc), List.append_nil]
    cases b with
    | none => rfl
    | some x => exact h _ List.mem_cons_self x rfl

/-- A full buffer moves to the vector; the one that takes its place is empty. -/
theorem Inv.replaceCurrent (h : w.Inv) : w.replaceCurrent.Inv := by
  have hconserved := h.conserved
  have hempty : ∀ b : BufferPtr, HoldsNothing b → contents [b] = [] := by
    intro b hb
    exact contents_eq_nil (by simpa using hb)
  have hbuffers : ∀ b ∈ w.buffers ++ [w.currentBuffer], b.isSome := by
    intro b hb
    rcases List.mem_append.mp hb with hb | hb
    · exact h.buffers b hb
    · rw [List.mem_singleton.mp hb]
      exact h.current
  rw [untaken, ← contents_append] at hconserved
  rw [AsyncLogger.replaceCurrent]
  dsimp only
  split
  · rename_i hnext
    refine { h with
      current := hnext, buffers := hbuffers, next_empty := by simp [HoldsNothing], conserved := ?_ }
    rw [untaken, hempty _ h.next_empty, List.append_nil]
    exact hconserved
  · refine { h with current := rfl, buffers := hbuffers, conserved := ?_ }
    rw [untaken, hempty _ (by simp [HoldsNothing]), List.append_nil]
    exact hconserved

/-- A message goes to the end of the current buffer. -/
theorem Inv.appendCurrent (h : w.Inv) (data : Bytes) :
    Inv { w.appendCurrent data with appended := w.appended ++ data } := by
  obtain ⟨b, hb⟩ := Option.isSome_iff_exists.mp h.current
  have hconserved := h.conserved
  rw [AsyncLogger.appendCurrent, hb]
  refine { h with current := rfl, conserved := ?_ }
  rw [← hconserved, untaken, untaken, hb]
  simp [unwritten]

/-- An append puts its message behind all others, whichever buffer takes it. -/
theorem Inv.append (h : w.Inv) (data : Bytes) : (w.append data).Inv := by
  obtain ⟨b, hb⟩ := Option.isSome_iff_exists.mp h.current
  have hsame : w.replaceCurrent.appended = w.appended := by
    rw [AsyncLogger.replaceCurrent]
    dsimp only
    split <;> rfl
  rw [AsyncLogger.append, appendData, hb]
  dsimp only
  split
  · exact h.appendCurrent data
  · rw [← hsame]
    exact h.replaceCurrent.appendCurrent data

/-! ## The back thread -/

/-- Nothing is left of the last round when the back thread takes the next one. -/
theorem Inv.contents_toWrite (h : w.Inv) (hemptied : w.emptied = w.buffersToWrite.length) :
    contents w.buffersToWrite = [] := by
  refine contents_eq_nil fun b hb => h.leftover b ?_
  rwa [hemptied, List.take_length]

/-- The back thread goes on, and touches no buffer. -/
theorem Inv.goOn (h : w.Inv) {b : Back} (hunwritten : unwritten { w with back := b } = w.unwritten)
    (ha : b.usesA = true → w.buffA.isSome)
    (htaken : b.hasTaken = true → w.buffA = none → w.buffersToWrite ≠ [])
    (hleftover : ∀ c ∈ w.buffersToWrite.take (emptied { w with back := b }), HoldsNothing c)
    (hthread : w.running = true → b ≠ .absent ∧ b ≠ .exited) : Inv { w with back := b } := by
  have hconserved := h.conserved
  rw [← hunwritten] at hconserved
  exact { h with
    conserved := hconserved
    a_some := ha
    taken := htaken
    leftover := hleftover
    thread := hthread }

/-- The back thread leaves with everything written that it has taken. -/
theorem Inv.exit (h : w.Inv) (hrunning : w.running = false) (hunwritten : w.unwritten = []) :
    w.exit.Inv := by
  have hconserved := h.conserved
  rw [hunwritten] at hconserved
  exact { h with
    conserved := hconserved
    toWrite := by simp [AsyncLogger.exit]
    a_empty := by simp [AsyncLogger.exit, HoldsNothing]
    b_empty := by simp [AsyncLogger.exit, HoldsNothing]
    a_some := nofun
    taken := nofun
    leftover := by simp [AsyncLogger.exit]
    thread := fun hr => by rw [show w.exit.running = false from hrunning] at hr; contradiction }

/-- The critical section: what was in the vector and in the current buffer is now to be written,
and the leftover of the last round, which is empty, becomes the vector. -/
theorem Inv.takeAll (h : w.Inv) (hlocked : w.back = .locked) :
    Inv { w.takeAll with back := .writing 0 } := by
  have ha : w.buffA.isSome := h.a_some (by rw [hlocked]; rfl)
  have hleft := h.contents_toWrite (by rw [emptied, hlocked])
  have hunwritten : w.unwritten = [] := by rw [unwritten, hlocked]
  have hcurrent : contents [w.buffA] = [] := contents_eq_nil (by simpa using h.a_empty)
  have hconserved : w.file.bytes ++ contents (w.buffers ++ [w.currentBuffer]) = w.appended := by
    have := h.conserved
    rwa [hunwritten, List.append_nil, untaken, ← contents_append] at this
  have htoWrite : ∀ b ∈ w.buffers ++ [w.currentBuffer], b.isSome := by
    intro b hb
    rcases List.mem_append.mp hb with hb | hb
    · exact h.buffers b hb
    · rw [List.mem_singleton.mp hb]
      exact h.current
  have hline : w.file.bytes ++ contents (w.buffers ++ [w.currentBuffer]) ++
      (contents w.buffersToWrite ++ contents [w.buffA]) = w.appended := by
    rw [hleft, hcurrent, List.append_nil, List.append_nil, hconserved]
  have hthread : w.running = true → Back.writing 0 ≠ .absent ∧ Back.writing 0 ≠ .exited := by simp
  rw [AsyncLogger.takeAll]
  dsimp only
  split
  · exact { h with
      conserved := hline, current := ha, buffers := h.toWrite, toWrite := htoWrite
      next_empty := h.b_empty
      a_empty := by simp [HoldsNothing]
      b_empty := by simp [HoldsNothing]
      a_some := nofun
      taken := fun _ _ => by simp
      leftover := by simp [emptied]
      thread := hthread }
  · exact { h with
      conserved := hline, current := ha, buffers := h.toWrite, toWrite := htoWrite
      a_empty := by simp [HoldsNothing]
      a_some := nofun
      taken := fun _ _ => by simp
      leftover := by simp [emptied]
      thread := hthread }

/-- The current buffer is there when the critical section asks for its length. -/
theorem Inv.checkCurrent_eq (h : w.Inv) : w.checkCurrent = w := by
  have hcurrent := h.current
  rw [checkCurrent, if_neg]
  rintro ⟨-, hnone⟩
  rw [Option.isNone_iff_eq_none.mp hnone] at hcurrent
  contradiction

/-- In the critical section the buffers change hands as a whole. -/
theorem Inv.critical (h : w.Inv) (hlocked : w.back = .locked) : w.critical.Inv := by
  have hunwritten : w.unwritten = [] := by rw [unwritten, hlocked]
  rw [AsyncLogger.critical, h.checkCurrent_eq]
  dsimp only
  split
  · exact h.takeAll hlocked
  · split
    · rename_i hrunning
      exact h.exit (by simpa using hrunning) hunwritten
    · have ha : w.buffA.isSome := h.a_some (by rw [hlocked]; rfl)
      have hleft := h.contents_toWrite (by rw [emptied, hlocked])
      have hconserved := h.conserved
      rw [hunwritten] at hconserved
      refine { h with
        conserved := ?_
        a_some := nofun
        taken := fun _ hnone => ?_
        leftover := by simp [emptied]
        thread := fun _ => by simp }
      · have hline : w.file.bytes ++ contents w.buffersToWrite ++ w.untaken = w.appended := by
          rw [hleft]
          exact hconserved
        exact hline
      · simp [show w.buffA = none from hnone] at ha

/-- Writing a buffer hands its bytes to the file. -/
theorem Inv.writeBuffer {i : Nat} {b : BufferPtr} (h : w.Inv) (hback : w.back = .writing i)
    (hb : w.buffersToWrite[i]? = some b) (now : Date) :
    Inv { w.writeBuffer now b with back := .writing (i + 1) } := by
  obtain ⟨x, rfl⟩ := Option.isSome_iff_exists.mp (h.toWrite b (List.mem_of_getElem? hb))
  have hdrop : w.buffersToWrite.drop i = some x :: w.buffersToWrite.drop (i + 1) :=
    List.drop_eq_getElem?_toList_append.trans (by rw [hb]; rfl)
  have hconserved := h.conserved
  rw [unwritten_of_writing hback, hdrop, contents_cons, Option.elim_some] at hconserved
  have hline : (w.file.write now x.readable).bytes ++ contents (w.buffersToWrite.drop (i + 1)) ++
      w.untaken = w.appended := by
    rw [← hconserved, LogFile.bytes_write h.coherent]
    simp only [List.append_assoc]
  have htaken := h.taken
  rw [hback] at htaken
  rw [AsyncLogger.writeBuffer]
  exact { h with
    coherent := (LogFile.write_spec h.coherent now x.readable).1
    conserved := hline
    a_some := nofun
    taken := htaken
    leftover := by simp [emptied]
    thread := fun _ => by simp }

/-- Emptying a buffer of the round. -/
theorem Inv.retrieveBuffer {i : Nat} {b : BufferPtr} (h : w.Inv) (hback : w.back = .retrieving i)
    (hb : w.buffersToWrite[i]? = some b) :
    Inv { w.retrieveBuffer i b with back := .retrieving (i + 1) } := by
  obtain ⟨x, rfl⟩ := Option.isSome_iff_exists.mp (h.toWrite b (List.mem_of_getElem? hb))
  have hi : i < w.buffersToWrite.length := (List.getElem?_eq_some_iff.mp hb).1
  have hconserved := h.conserved
  rw [unwritten, hback] at hconserved
  have htaken := h.taken
  rw [hback] at htaken
  have hleftover := h.leftover
  rw [emptied, hback] at hleftover
  rw [AsyncLogger.retrieveBuffer]
  refine { h with
    conserved := hconserved
    toWrite := fun c hc => ?_
    a_some := nofun
    taken := fun ht hnone => ?_
    leftover := fun c hc => ?_
    thread := fun _ => by simp }
  · rcases List.mem_or_eq_of_mem_set hc with hc | rfl
    · exact h.toWrite c hc
    · rfl
  · have hne := htaken rfl hnone
    rw [← List.length_pos_iff] at hne ⊢
    rwa [List.length_set]
  · -- the buffers before it are as they were, and it is empty now
    rw [emptied, List.take_succ_eq_append_getElem (by rwa [List.length_set]),
      List.getElem_set_self, List.take_set_of_le (Nat.le_refl i)] at hc
    rcases List.mem_append.mp hc with hc | hc
    · exact hleftover c hc
    · rw [List.mem_singleton.mp hc]
      rintro y ⟨⟩
      exact Buffer.readable_retrieveAll x

/-- The last buffer of the round becomes `buffA`: there is one, and it has been emptied. -/
theorem Inv.recycleA (h : w.Inv) (hback : w.back = .recycle) :
    w.recycleA.Inv ∧ w.recycleA.buffA.isSome ∧ w.recycleA.back = .recycle := by
  have hleftover := h.leftover
  rw [emptied, hback, List.take_length] at hleftover
  rw [AsyncLogger.recycleA]
  by_cases ha : w.buffA.isSome
  · rw [if_pos ha]
    exact ⟨h, ha, hback⟩
  · rw [if_neg ha]
    have hne := h.taken (by rw [hback]; rfl) (by simpa using ha)
    have hlast := List.getLast_mem hne
    have hsome := h.toWrite _ hlast
    have hconserved := h.conserved
    rw [unwritten, hback] at hconserved
    rw [List.getLast?_eq_some_getLast hne]
    dsimp only
    refine ⟨{ h with
      conserved := ?_
      toWrite := fun b hb => h.toWrite b (List.mem_of_mem_dropLast hb)
      a_empty := hleftover _ hlast
      a_some := fun _ => hsome
      taken := fun _ hnone => ?_
      leftover := fun b hb => hleftover b (List.mem_of_mem_dropLast (List.mem_of_mem_take hb)) },
      hsome, hback⟩
    · rw [unwritten, hback]
      exact hconserved
    · rw [show w.buffersToWrite.getLast hne = none from hnone] at hsome
      contradiction

/-- The next one becomes `buffB`, and the back thread tests `running_` again. -/
theorem Inv.recycleB (h : w.Inv) (hback : w.back = .recycle) (ha : w.buffA.isSome) :
    Inv { w.recycleB with back := .test } := by
  have hleftover := h.leftover
  rw [emptied, hback, List.take_length] at hleftover
  have hconserved := h.conserved
  rw [unwritten, hback] at hconserved
  rw [AsyncLogger.recycleB]
  split
  · exact { h with
      conserved := hconserved
      a_some := fun _ => ha
      taken := nofun
      leftover := fun b hb => hleftover b (List.mem_of_mem_take hb)
      thread := fun _ => by simp }
  · split
    · exact { h with
        conserved := hconserved
        a_some := fun _ => ha
        taken := nofun
        leftover := fun b hb => hleftover b (List.mem_of_mem_take hb)
        thread := fun _ => by simp }
    · rename_i b hb
      have hlast := List.mem_of_getLast? hb
      exact { h with
        conserved := hconserved
        toWrite := fun c hc => h.toWrite c (List.mem_of_mem_dropLast hc)
        b_empty := hleftover b hlast
        a_some := fun _ => ha
        taken := nofun
        leftover := fun c hc => hleftover c (List.mem_of_mem_dropLast (List.mem_of_mem_take hc))
        thread := fun _ => by simp }

/-- Recycling hands back buffers that hold nothing any more. -/
theorem Inv.recycle (h : w.Inv) (hback : w.back = .recycle) :
    Inv { w.recycleA.recycleB with back := .test } := by
  obtain ⟨h, ha, hback⟩ := h.recycleA hback
  exact h.recycleB hback ha

/-- Between its rounds the back thread holds buffers that are empty, and has written all it took. -/
theorem Inv.between (h : w.Inv) {b : Back} (hemptied : w.emptied = w.buffersToWrite.length)
    (hunwritten : w.unwritten = []) (hb : unwritten { w with back := b } = [])
    (ha : b.usesA = true → w.buffA.isSome) (htaken : b.hasTaken = false)
    (hthread : w.running = true → b ≠ .absent ∧ b ≠ .exited) : Inv { w with back := b } := by
  refine h.goOn (hb.trans hunwritten.symm) ha (fun ht => ?_) (fun c hc => ?_) hthread
  · rw [htaken] at ht
    contradiction
  · refine h.leftover c ?_
    rw [hemptied, List.take_length]
    exact List.mem_of_mem_take hc

/-- The back thread loses no byte, and moves none. -/
theorem Inv.backStep {now : Date} (h : w.Inv) (hstep : w.backStep now = some w') : w'.Inv := by
  rw [AsyncLogger.backStep] at hstep
  split at hstep
  · contradiction
  · contradiction
  · rename_i hback
    cases hstep
    have hconserved := h.conserved
    rw [unwritten, hback] at hconserved
    exact { h with
      conserved := hconserved
      toWrite := by simp
      a_empty := by simp [HoldsNothing]
      b_empty := by simp [HoldsNothing]
      a_some := fun _ => rfl
      taken := nofun
      leftover := by simp
      thread := fun _ => by simp }
  · rename_i hback
    cases hstep
    have hunwritten : w.unwritten = [] := by rw [unwritten, hback]
    have ha : w.buffA.isSome := h.a_some (by rw [hback]; rfl)
    split
    · exact h.between (by rw [emptied, hback]) hunwritten rfl (fun _ => ha) rfl (fun _ => by simp)
    · rename_i hrunning
      exact h.exit (by simpa using hrunning) hunwritten
  · rename_i hback
    obtain ⟨-, hw'⟩ := Option.ite_none_right_eq_some.mp hstep
    cases hw'
    have hunwritten : w.unwritten = [] := by rw [unwritten, hback]
    have ha : w.buffA.isSome := h.a_some (by rw [hback]; rfl)
    exact h.between (by rw [emptied, hback]) hunwritten rfl (fun _ => ha) rfl (fun _ => by simp)
  · rename_i hback
    cases hstep
    exact h.critical hback
  · rename_i i hback
    split at hstep
    · rename_i b hb
      cases hstep
      exact h.writeBuffer hback hb now
    · rename_i hnone
      cases hstep
      have hunwritten : w.unwritten = [] := by
        rw [unwritten_of_writing hback, List.drop_eq_nil_of_le (List.getElem?_eq_none_iff.mp hnone)]
        rfl
      exact h.goOn hunwritten.symm nofun (fun _ => h.taken (by rw [hback]; rfl)) (by simp [emptied])
        (fun _ => by simp)
  · rename_i i hback
    split at hstep
    · rename_i b hb
      cases hstep
      exact h.retrieveBuffer hback hb
    · rename_i hnone
      cases hstep
      have hunwritten : w.unwritten = [] := by rw [unwritten, hback]
      refine h.goOn hunwritten.symm nofun (fun _ => h.taken (by rw [hback]; rfl)) (fun c hc => ?_)
        (fun _ => by simp)
      refine h.leftover c ?_
      rw [emptied, hback, List.take_of_length_le (List.getElem?_eq_none_iff.mp hnone)]
      exact List.mem_of_mem_take hc
  · rename_i hback
    cases hstep
    exact h.recycle hback

/-- `start` makes a thread when there is none. -/
theorem Inv.begin (h : w.Inv) (hback : w.back = .absent) :
    Inv { w with running := true, back := .begin } := by
  have hconserved := h.conserved
  rw [unwritten, hback] at hconserved
  have hleftover := h.leftover
  rw [emptied, hback] at hleftover
  exact { h with
    conserved := hconserved
    a_some := nofun
    taken := nofun
    leftover := hleftover
    thread := fun _ => by simp }

/-- Nor does any other step. -/
theorem Inv.step {a : Action} (h : w.Inv) (hstep : w.step a = some w') : w'.Inv := by
  cases a with
  | start =>
    rw [AsyncLogger.step] at hstep
    split at hstep
    · cases hstep
      exact h
    · obtain ⟨⟨hback, -⟩, hw'⟩ := Option.ite_none_right_eq_some.mp hstep
      cases hw'
      exact h.begin hback
  | append data =>
    obtain ⟨-, hw'⟩ := Option.ite_none_left_eq_some.mp hstep
    cases hw'
    exact h.append data
  | stop =>
    rw [AsyncLogger.step] at hstep
    split at hstep
    · cases hstep
      exact { h with thread := nofun }
    · cases hstep
      exact { h with }
  | stopReturns =>
    rw [AsyncLogger.step] at hstep
    split at hstep
    · obtain ⟨hback, hw'⟩ := Option.ite_none_right_eq_some.mp hstep
      cases hw'
      have hrunning : w.running ≠ true := fun hr => (h.thread hr).2 hback
      have h' := h.between (b := .absent)
        (by rw [emptied, hback]) (by rw [unwritten, hback]) rfl nofun rfl
        (fun hr => absurd hr hrunning)
      exact { h' with }
    · contradiction
  | back now => exact h.backStep hstep

/-! ## What the back thread leaves -/

/-- A step of the back thread is no call of a user, writes at most one piece to the files, and takes
no buffer of the users unless it is in its critical section. -/
structure BackFrame (now : Date) (w w' : AsyncLogger) : Prop where
  appended : w'.appended = w.appended
  running : w'.running = w.running
  stopping : w'.stopping = w.stopping
  stopped : w'.stopped = w.stopped
  file : w'.file = w.file ∨ ∃ data, w'.file = w.file.write now data
  untaken : w.back ≠ .locked → w'.untaken = w.untaken

variable {now : Date}

theorem BackFrame.refl (w : AsyncLogger) : BackFrame now w w :=
  ⟨rfl, rfl, rfl, rfl, .inl rfl, fun _ => rfl⟩

/-- The critical section appends nothing, and writes no file. -/
theorem critical_frame (hlocked : w.back = .locked) : BackFrame now w w.critical := by
  have hcheck : BackFrame now w w.checkCurrent := by
    rw [checkCurrent]
    split <;> exact ⟨rfl, rfl, rfl, rfl, .inl rfl, fun _ => rfl⟩
  obtain ⟨happended, hrunning, hstopping, hstopped, hfile, -⟩ := hcheck
  have huntaken (x : AsyncLogger) : w.back ≠ .locked → x.untaken = w.untaken := fun h =>
    absurd hlocked h
  rw [critical]
  dsimp only
  split
  · rw [takeAll]
    dsimp only
    split <;> exact ⟨happended, hrunning, hstopping, hstopped, hfile, huntaken _⟩
  · split <;> exact ⟨happended, hrunning, hstopping, hstopped, hfile, huntaken _⟩

/-- A buffer is written without a message being appended. -/
theorem writeBuffer_frame (now : Date) (b : BufferPtr) : BackFrame now w (w.writeBuffer now b) := by
  cases b with
  | none => exact ⟨rfl, rfl, rfl, rfl, .inl rfl, fun _ => rfl⟩
  | some b => exact ⟨rfl, rfl, rfl, rfl, .inr ⟨b.readable, rfl⟩, fun _ => rfl⟩

/-- A buffer is emptied without a message being appended. -/
theorem retrieveBuffer_frame (i : Nat) (b : BufferPtr) :
    BackFrame now w (w.retrieveBuffer i b) := by
  cases b <;> exact ⟨rfl, rfl, rfl, rfl, .inl rfl, fun _ => rfl⟩

/-- Recycling changes only who holds the spare buffers. -/
theorem recycle_frame : BackFrame now w w.recycleA.recycleB := by
  have hA : BackFrame now w w.recycleA := by
    rw [recycleA]
    split
    · exact .refl w
    · split <;> exact ⟨rfl, rfl, rfl, rfl, .inl rfl, fun _ => rfl⟩
  obtain ⟨happended, hrunning, hstopping, hstopped, hfile, huntaken⟩ := hA
  rw [recycleB]
  split
  · exact ⟨happended, hrunning, hstopping, hstopped, hfile, huntaken⟩
  · split <;> exact ⟨happended, hrunning, hstopping, hstopped, hfile, huntaken⟩

/-- Whatever the back thread does, it appends no message. -/
theorem backStep_frame (hstep : w.backStep now = some w') : BackFrame now w w' := by
  have hmoved {x : AsyncLogger} (h : BackFrame now w x) (b : Back) :
      BackFrame now w { x with back := b } :=
    ⟨h.appended, h.running, h.stopping, h.stopped, h.file, h.untaken⟩
  rw [backStep] at hstep
  split at hstep
  · contradiction
  · contradiction
  · cases hstep
    exact ⟨rfl, rfl, rfl, rfl, .inl rfl, fun _ => rfl⟩
  · cases hstep
    split <;> exact ⟨rfl, rfl, rfl, rfl, .inl rfl, fun _ => rfl⟩
  · obtain ⟨-, hw'⟩ := Option.ite_none_right_eq_some.mp hstep
    cases hw'
    exact hmoved (.refl w) _
  · rename_i hback
    cases hstep
    exact critical_frame hback
  · split at hstep
    · rename_i b hb
      cases hstep
      exact hmoved (writeBuffer_frame now b) _
    · cases hstep
      exact hmoved (.refl w) _
  · rename_i i hback
    split at hstep
    · rename_i b hb
      cases hstep
      exact hmoved (retrieveBuffer_frame i b) _
    · cases hstep
      exact hmoved (.refl w) _
  · cases hstep
    exact hmoved recycle_frame _

/-- What `append` leaves to the back thread and to `stop`. -/
theorem append_frame (w : AsyncLogger) (data : Bytes) :
    (w.append data).file = w.file ∧ (w.append data).back = w.back ∧
      (w.append data).buffersToWrite = w.buffersToWrite ∧ (w.append data).running = w.running ∧
      (w.append data).stopping = w.stopping ∧ (w.append data).stopped = w.stopped := by
  have hcurrent (w : AsyncLogger) : (w.appendCurrent data).file = w.file ∧
      (w.appendCurrent data).back = w.back ∧
      (w.appendCurrent data).buffersToWrite = w.buffersToWrite ∧
      (w.appendCurrent data).running = w.running ∧ (w.appendCurrent data).stopping = w.stopping ∧
      (w.appendCurrent data).stopped = w.stopped := by
    rw [appendCurrent]
    split <;> exact ⟨rfl, rfl, rfl, rfl, rfl, rfl⟩
  rw [append, appendData]
  dsimp only
  split
  · exact ⟨rfl, rfl, rfl, rfl, rfl, rfl⟩
  · split
    · exact hcurrent w
    · obtain ⟨hfile, hback, htoWrite, hrunning, hstopping, hstopped⟩ := hcurrent w.replaceCurrent
      rw [hfile, hback, htoWrite, hrunning, hstopping, hstopped, replaceCurrent]
      dsimp only
      split <;> exact ⟨rfl, rfl, rfl, rfl, rfl, rfl⟩

/-! ## Runs -/

/-- The messages that are appended in a run. -/
def messages (as : List Action) : Bytes :=
  as.flatMap fun a => match a with | .append data => data | _ => []

/-- A step appends the message of its call, if it is one. -/
theorem appended_step {a : Action} (hstep : w.step a = some w') :
    w'.appended = w.appended ++ messages [a] := by
  cases a with
  | start =>
    rw [step] at hstep
    split at hstep
    · cases hstep
      simp [messages]
    · obtain ⟨-, hw'⟩ := Option.ite_none_right_eq_some.mp hstep
      cases hw'
      simp [messages]
  | append data =>
    obtain ⟨-, hw'⟩ := Option.ite_none_left_eq_some.mp hstep
    cases hw'
    simp [messages, append]
  | stop =>
    rw [step] at hstep
    split at hstep <;> cases hstep <;> simp [messages]
  | stopReturns =>
    rw [step] at hstep
    split at hstep
    · obtain ⟨-, hw'⟩ := Option.ite_none_right_eq_some.mp hstep
      cases hw'
      simp [messages]
    · contradiction
  | back now =>
    rw [(backStep_frame hstep).appended]
    simp [messages]

/-- In a run the messages of the calls are appended in the order of the calls. -/
theorem appended_of_run {as : List Action} (hrun : Run step anyStep w as w') :
    w'.appended = w.appended ++ messages as := by
  induction hrun with
  | nil => simp [messages]
  | snoc hrun _ hs ih => rw [appended_step hs, ih, List.append_assoc, messages, messages, messages,
      List.flatMap_append]

/-- What is written goes to the files that were there, behind what they held. -/
theorem recorded_step {a : Action} {disk : String → Option Bytes} (h : w.Inv)
    (hdisk : w.file.Recorded disk) (hstep : w.step a = some w') : w'.file.Recorded disk := by
  cases a with
  | start =>
    rw [step] at hstep
    split at hstep
    · cases hstep
      exact hdisk
    · obtain ⟨-, hw'⟩ := Option.ite_none_right_eq_some.mp hstep
      cases hw'
      exact hdisk
  | append data =>
    obtain ⟨-, hw'⟩ := Option.ite_none_left_eq_some.mp hstep
    cases hw'
    rwa [(w.append_frame data).1]
  | stop =>
    rw [step] at hstep
    split at hstep <;> cases hstep <;> exact hdisk
  | stopReturns =>
    rw [step] at hstep
    split at hstep
    · obtain ⟨-, hw'⟩ := Option.ite_none_right_eq_some.mp hstep
      cases hw'
      exact hdisk
    · contradiction
  | back now =>
    rcases (backStep_frame hstep).file with hfile | ⟨data, hfile⟩
    · rwa [hfile]
    · rw [hfile]
      exact hdisk.write h.coherent now data

/-- In every state of a run no byte is lost. -/
theorem inv_of_run {name : String} {rollSize : Nat} {logDir : String}
    {disk : String → Option Bytes} {sequence hasWritenBytes : Nat} {as : List Action}
    {guard : AsyncLogger → Action → Prop}
    (hrun : Run step guard (new (.new name rollSize logDir disk sequence hasWritenBytes)) as w) :
    w.Inv ∧ w.file.Recorded disk := by
  refine hrun.invariant (I := fun w => w.Inv ∧ w.file.Recorded disk) ?_ ?_
  · exact ⟨inv_new (LogFile.coherent_new _ _ _ _ _ _) rfl, LogFile.recorded_new _ _ _ _ _ _⟩
  · rintro w a w' ⟨hinv, hdisk⟩ _ hstep
    exact ⟨hinv.step hstep, recorded_step hinv hdisk hstep⟩

/-- In every reachable state what was written, what the back thread is to write, the full buffers
and the current one hold the messages in order; no null pointer is followed; spares are empty. -/
theorem conserved_of_run {name : String} {rollSize : Nat} {logDir : String}
    {disk : String → Option Bytes} {sequence hasWritenBytes : Nat} {as : List Action}
    (hrun : Run step anyStep (new (.new name rollSize logDir disk sequence hasWritenBytes)) as w) :
    w.file.Recorded disk ∧
    w.file.bytes ++ w.unwritten ++ contents w.buffers ++ contents [w.currentBuffer] =
      messages as ∧
    w.nullUsed = false ∧ w.currentBuffer.isSome ∧ (w.back.usesA = true → w.buffA.isSome) ∧
    HoldsNothing w.nextBuffer ∧ HoldsNothing w.buffA ∧ HoldsNothing w.buffB := by
  obtain ⟨hinv, hdisk⟩ := inv_of_run hrun
  have hconserved := hinv.conserved
  rw [untaken, ← List.append_assoc, appended_of_run hrun] at hconserved
  exact ⟨hdisk, hconserved, hinv.nullUsed, hinv.current, hinv.a_some, hinv.next_empty,
    hinv.a_empty, hinv.b_empty⟩

/-- The back thread takes the same steps on one day. -/
def backSteps (n : Nat) : List Action := List.replicate n (.back ⟨2024, 1, 2⟩)

/-- Two rounds of the back thread, messages before, between and inside them, and a `stop`. -/
def twoRounds : List Action :=
  [.start, .append [1]] ++ backSteps 5 ++ [.append [2, 3]] ++ backSteps 7 ++ [.append [4], .stop] ++
    backSteps 3

/-- A run in which both buffers of the front are taken. -/
theorem conserved_of_run_twoRounds :
    ∃ w : AsyncLogger,
      Run step anyStep (new (.new "app" 100 "logs" (fun _ => none) 0 0)) twoRounds w ∧
      w.file.Recorded (fun _ => none) ∧
      w.file.bytes ++ w.unwritten ++ contents w.buffers ++ contents [w.currentBuffer] =
        messages twoRounds ∧
      w.nullUsed = false ∧ w.currentBuffer.isSome ∧ (w.back.usesA = true → w.buffA.isSome) ∧
      HoldsNothing w.nextBuffer ∧ HoldsNothing w.buffA ∧ HoldsNothing w.buffB := by
  obtain ⟨w, hw⟩ := Option.isSome_iff_exists.mp
    (show (replay step anyStep (new (.new "app" 100 "logs" (fun _ => none) 0 0))
      twoRounds).isSome by decide +kernel)
  exact ⟨w, .of_replay hw, conserved_of_run (.of_replay hw)⟩

end AsyncLogger

end ClearMoon.Log

import ClearMoon.Tcp.Calm

/-!
# A connection as an end of a stream

`handleRead` appends what the socket has to `readBuffer_`, and message callbacks retrieve from its
front; nothing else touches the buffer, also when the connection is closed. What is handed to the
kernel stands in the trace, and nothing more is once the write side of the socket has been shut
down. Most functions only do the latter: they are `Sends` transitions, which compose.
-/

namespace ClearMoon.Tcp

open ClearMoon.Net ClearMoon.Timer

/-- The bytes that `readv` has stored. -/
def ReadResult.bytes : ReadResult → Bytes
  | .done data => data
  | _ => []

theorem handed_append (es fs : List Event) : handed (es ++ fs) = handed es ++ handed fs :=
  List.flatMap_append

namespace TcpLoop

variable {w v w' : TcpLoop}

/-- The readable bytes of `readBuffer_`. -/
def input (w : TcpLoop) : Bytes := w.conn.readBuffer.readable

/-- What `readv` answers, if the step calls it. -/
def readv? (w : TcpLoop) : Action → Option ReadResult
  | .resume env =>
    let r := w.conn.channel.revents
    match w.todo, w.stack with
    | none, .handleEvent .read :: _ =>
      if r.epollin || r.epollrdhup || r.epollpri then some env.read else none
    | _, _ => none
  | _ => none

/-- The bytes that the step reads from the socket. -/
def reads (w : TcpLoop) (a : Action) : Bytes := (w.readv? a).elim [] ReadResult.bytes

/-- The bytes that the step takes out of the buffer. -/
def retrieves (w : TcpLoop) : Action → Bytes
  | .retrieve len => w.input.take len
  | _ => []

/-- The socket has become readable: the first two tests of `handleEvent`, with their answers. -/
def readable (timer : Addr) (read : ReadResult) : List Action :=
  [.poll [.conn] { epollin := true }, .dispatch, .resume { timer }, .resume { timer, read }]

/-! ## Transitions that only send -/

/-- Events are noted, which hand nothing over when the write side has been shut down. -/
def Notes (w w' : TcpLoop) : Prop :=
  ∃ es, w'.trace = w.trace ++ es ∧ (w.writeShut = true → handed es = []) ∧
    (w'.writeShut = true ↔ w.writeShut = true ∨ .shutdownWrite ∈ es)

/-- The input is left alone besides. -/
structure Sends (w w' : TcpLoop) : Prop where
  input : w'.input = w.input
  notes : w.Notes w'

/-- What two transitions note is noted by both together. -/
theorem Notes.trans (h : w.Notes v) (h' : v.Notes w') : w.Notes w' := by
  obtain ⟨es, htrace, hhanded, hshut⟩ := h
  obtain ⟨fs, htrace', hhanded', hshut'⟩ := h'
  refine ⟨es ++ fs, by rw [htrace', htrace, List.append_assoc], fun hw => ?_, ?_⟩
  · rw [handed_append, hhanded hw, hhanded' (hshut.mpr (.inl hw)), List.append_nil]
  · rw [hshut', hshut, List.mem_append, or_assoc]

/-- Nothing is noted. -/
theorem Notes.ofSame (htrace : w'.trace = w.trace) (hshut : w'.writeShut = w.writeShut) :
    w.Notes w' := ⟨[], by simpa using htrace, fun _ => rfl, by simp [hshut]⟩

/-- Two transitions that only send are one. -/
theorem Sends.trans (h : w.Sends v) (h' : v.Sends w') : w.Sends w' :=
  ⟨h'.input.trans h.input, h.notes.trans h'.notes⟩

/-- Neither the input nor the trace is touched. -/
theorem Sends.ofSame (hinput : w'.input = w.input) (htrace : w'.trace = w.trace)
    (hshut : w'.writeShut = w.writeShut) : w.Sends w' := ⟨hinput, .ofSame htrace hshut⟩

theorem Sends.refl (w : TcpLoop) : w.Sends w := .ofSame rfl rfl rfl

/-- An event that is not `shutdownWrite`, and that hands bytes over only if the write side is
open. -/
theorem sends_note {e : Event} (hshut : e ≠ .shutdownWrite)
    (hhanded : w.writeShut = true → e.wroteBytes ++ e.sentBytes = []) : w.Sends (w.note e) := by
  refine ⟨rfl, [e], rfl, fun hw => ?_, ?_⟩
  · rw [handed, List.flatMap_singleton, hhanded hw]
  · rw [List.mem_singleton, or_iff_left hshut.symm]
    rfl

theorem sends_push (frame : Frame) : w.Sends (w.push frame) := .ofSame rfl rfl rfl

/-- A callback hands nothing over. -/
theorem sends_invoke (cb : Callback) : w.Sends (w.invoke cb) := by
  rw [invoke]
  split
  · exact (sends_note (by simp) fun _ => rfl).trans (sends_push _)
  · exact .refl w

/-- What is queued, or run next, has handed nothing over yet. -/
theorem sends_runInLoop (inThread : Bool) (f : Functor) : w.Sends (w.runInLoop inThread f) := by
  cases inThread <;> exact .ofSame rfl rfl rfl

theorem sends_disableWriting : w.Sends w.disableWriting := .ofSame rfl rfl rfl

/-- Timers have nothing to do with the stream. -/
theorem sends_resetIdleTimer (env : Env) : w.Sends (w.resetIdleTimer env) := by
  obtain ⟨queue, id, h⟩ := w.resetIdleTimer_frame env
  rw [h]
  exact .ofSame rfl rfl rfl

/-- Dropping a file hands nothing over. -/
theorem sends_dropFile : w.Sends w.dropFile := by
  obtain ⟨files, h⟩ := w.closeFile_frame
  rw [dropFile, h]
  exact .ofSame rfl rfl rfl

/-- Nor does opening one. -/
theorem sends_openFile (filePath : Bytes) (fd : Addr) : w.Sends (w.openFile filePath fd) := by
  rw [openFile]
  split <;> exact .ofSame rfl rfl rfl

/-- Nor does dropping the timers and the entries. -/
theorem sends_clear : w.Sends w.cancelIdleTimer.clearRetrans := by
  obtain ⟨queue, h⟩ := w.clear_frame
  rw [h]
  exact .ofSame rfl rfl rfl

/-- A close leaves the input to the user, who may still retrieve from it. -/
theorem sends_handleClose : w.Sends w.handleClose := by
  have hclosed : w.Sends ({ (w.setState .kDisConnected).removeChannel.dropFile with
      conn.fileSentOffset := 0, conn.fileTotalSize := 0 }.cancelIdleTimer.clearRetrans.invoke
        .close) := by
    have hremoved : w.Sends (w.setState .kDisConnected).removeChannel := .ofSame rfl rfl rfl
    have hdropped : w.Sends { (w.setState .kDisConnected).removeChannel.dropFile with
        conn.fileSentOffset := 0, conn.fileTotalSize := 0 } :=
      (hremoved.trans sends_dropFile).trans (.ofSame rfl rfl rfl)
    exact hdropped.trans (sends_clear.trans (sends_invoke _))
  rw [handleClose]
  split
  · exact .refl w
  · exact .ofSame rfl rfl rfl
  · exact hclosed
  · exact hclosed

theorem sends_forceCloseInLoop : w.Sends w.forceCloseInLoop := by
  rw [forceCloseInLoop]
  split
  · exact sends_handleClose
  · exact .refl w

/-- The write side is shut down, and the event says so. -/
theorem sends_shutdownWrite : w.Sends w.shutdownWrite :=
  ⟨rfl, [.shutdownWrite], rfl, fun _ => rfl, by simp [shutdownWrite, note]⟩

/-- A shutdown notes that the write side is shut. -/
theorem sends_shutdownInLoop : w.Sends w.shutdownInLoop := by
  rw [shutdownInLoop]
  split
  · exact sends_shutdownWrite.trans sends_handleClose
  · exact sends_shutdownWrite

/-- Establishing a connection concerns no byte. -/
theorem sends_connectEstablelished (env : Env) : w.Sends (w.connectEstablelished env) := by
  rw [connectEstablelished]
  split
  · exact .ofSame rfl rfl rfl
  · have hset : w.Sends (w.enableReading.setState .kConnected) := .ofSame rfl rfl rfl
    exact hset.trans ((sends_resetIdleTimer env).trans (sends_invoke _))

/-- Nor does destroying it. -/
theorem sends_connectDestroyed : w.Sends w.connectDestroyed := by
  have hclear (v : TcpLoop) : v.Sends v.cancelIdleTimer.clearRetrans.removeChannel :=
    sends_clear.trans (.ofSame rfl rfl rfl)
  rw [connectDestroyed]
  split
  · exact Sends.trans (v := w.setState .kDisConnected) (.ofSame rfl rfl rfl) (hclear _)
  · exact hclear w

/-! ## Output -/

/-- The kernel has taken bytes, so the write side is open. -/
theorem writeShut_of_ioResult {r : IoResult} {n : Nat} (h : w.ioResult r = .done n) :
    w.writeShut ≠ true := by
  intro hshut
  rw [ioResult, if_pos hshut] at h
  contradiction

/-- What is left of a message stands in the buffer, and has not been handed over. -/
theorem sends_sendRest (rest : Bytes) : w.Sends (w.sendRest rest) := by
  have happend : w.Sends (w.appendOutput rest) := by
    rw [appendOutput]
    split
    · exact .refl w
    · dsimp only
      split <;> exact .ofSame rfl rfl rfl
  rw [sendRest]
  split
  · exact happend.trans (sends_runInLoop ..)
  · exact happend

/-- What `::write` takes of a message is handed over, if the write side is open. -/
theorem sends_sendInLoop (data : Bytes) (env : Env) : w.Sends (w.sendInLoop data env) := by
  rw [sendInLoop]
  split
  · exact .refl w
  · refine (sends_note (e := .taken (.message data)) (by simp) fun _ => rfl).trans ?_
    generalize w.note (.taken (.message data)) = v
    dsimp only
    split
    · split
      · rename_i n hwrite
        have hwrote : v.Sends (v.note (.wrote (data.take n))) :=
          sends_note (by simp) fun hshut => absurd hshut (writeShut_of_ioResult hwrite)
        split
        · exact hwrote.trans (sends_invoke _)
        · exact hwrote.trans (sends_sendRest _)
      · exact sends_sendRest data
      · exact sends_sendRest data
    · exact sends_sendRest data

/-- No byte of a file is sent before the socket is writeable. -/
theorem sends_sendFileInLoop (filePath : Bytes) (env : Env) :
    w.Sends (w.sendFileInLoop filePath env) := by
  rw [sendFileInLoop]
  split
  · exact .refl w
  · refine (sends_note (e := .taken (.file filePath)) (by simp) fun _ => rfl).trans ?_
    generalize w.note (.taken (.file filePath)) = v
    dsimp only
    split
    · exact sends_forceCloseInLoop
    · rename_i fd _
      have hclosed : v.Sends { v.openFile filePath fd with
          files := (v.openFile filePath fd).files.free fd } :=
        (sends_openFile filePath fd).trans (.ofSame rfl rfl rfl)
      exact hclosed.trans sends_forceCloseInLoop
    · rename_i fd _
      exact (sends_openFile filePath fd).trans (.ofSame rfl rfl rfl)

/-- `send` accepts a message, which is an event that hands nothing over. -/
theorem sends_send (inThread : Bool) (data : Bytes) : w.Sends (w.send inThread data) := by
  rw [send]
  split
  · exact .refl w
  · exact (sends_note (by simp) fun _ => rfl).trans (sends_runInLoop ..)

/-- The calls of the user hand nothing over. -/
theorem sends_call (inThread : Bool) (c : ConnCall) : w.Sends (w.call inThread c) := by
  have hset : w.Sends (w.setState .kDisConnecting) := .ofSame rfl rfl rfl
  cases c with
  | send data => exact sends_send inThread data
  | sendFile filePath =>
    rw [call, sendFile]
    split
    · exact .refl w
    · exact (sends_note (by simp) fun _ => rfl).trans (sends_runInLoop ..)
  | shutdown =>
    rw [call, shutdown]
    split
    · exact (hset.trans (sends_note (by simp) fun _ => rfl)).trans (sends_runInLoop ..)
    · exact .refl w
  | forceClose =>
    rw [call, forceClose]
    split
    · exact hset.trans (sends_runInLoop ..)
    · exact .refl w
  | sendWithRetransmit data seq => exact sends_runInLoop ..
  | ackReceived seq => exact sends_runInLoop ..

/-- What `::write` takes of the buffer is handed over. -/
theorem sends_writeFd {n k : Nat} {r : IoResult} (hwrite : w.ioResult r = .done k) :
    w.Sends (w.writeFd n) := by
  refine Sends.trans (v := { w with conn.writeBuffer := w.conn.writeBuffer.retrieve n })
    (.ofSame rfl rfl rfl) (sends_note (by simp) fun hshut => ?_)
  exact absurd hshut (writeShut_of_ioResult hwrite)

/-- So is what `::sendfile` takes of the file. -/
theorem sends_sendfile {n k : Nat} {r : IoResult} (hwrite : w.ioResult r = .done k) :
    w.Sends (w.sendfile n) := by
  rw [sendfile]
  generalize w.unsent.take (min n chunkSize) = sent
  dsimp only
  split
  · exact .refl w
  · have hsent : w.Sends ({ w with conn.fileSentOffset := w.conn.fileSentOffset + sent.length }.note
        (.sentFile sent)) := by
      refine Sends.trans
        (v := { w with conn.fileSentOffset := w.conn.fileSentOffset + sent.length })
        (.ofSame rfl rfl rfl) (sends_note (by simp) fun hshut => ?_)
      exact absurd hshut (writeShut_of_ioResult hwrite)
    split
    · exact (hsent.trans sends_dropFile).trans (sends_disableWriting.trans (sends_invoke _))
    · exact hsent

/-- The channel stops writing when the buffer is empty. -/
theorem sends_disable (c : Prop) [Decidable c] :
    w.Sends (if c then w.disableWriting else w) := by
  split
  · exact sends_disableWriting
  · exact .refl w

/-- The buffer is written, or the connection closed. -/
theorem sends_handleWriteBuffer (env : Env) : w.Sends (w.handleWriteBuffer env) := by
  rw [handleWriteBuffer]
  split
  · split
    · rename_i n hwrite
      have hwrote : (w.push .handleWriteEnd).Sends ((w.push .handleWriteEnd).writeFd (n + 1)) :=
        sends_writeFd hwrite
      exact (sends_push _).trans (hwrote.trans ((sends_disable _).trans (sends_invoke _)))
    · exact .refl w
    · exact sends_handleClose
    · exact sends_handleClose
  · exact .refl w

/-- The file is sent, or given up. -/
theorem sends_handleWriteFile (env : Env) : w.Sends (w.handleWriteFile env) := by
  rw [handleWriteFile]
  split
  · split
    · rename_i hwrite
      exact sends_sendfile hwrite
    · exact .refl w
    · exact (sends_dropFile.trans sends_disableWriting).trans sends_handleClose
  · exact sends_handleWriteBuffer env

/-- What follows the first block of `handleWrite` sends only. -/
theorem sends_handleWriteRest (env : Env) : w.Sends (w.handleWriteRest env) := by
  rw [handleWriteRest]
  split
  · exact .refl w
  · exact sends_handleWriteFile env

/-- So does `handleWrite` as a whole. -/
theorem sends_handleWrite (env : Env) : w.Sends (w.handleWrite env) := by
  rw [handleWrite]
  split
  · exact .refl w
  · refine (sends_resetIdleTimer env).trans ?_
    generalize w.resetIdleTimer env = v
    dsimp only
    split
    · refine (sends_push .handleWrite).trans ?_
      split
      · rename_i hwrite
        exact (sends_writeFd hwrite).trans ((sends_disable _).trans (sends_invoke _))
      · exact .refl _
      · exact sends_handleClose
      · exact sends_handleClose
    · exact sends_handleWriteFile env

/-- A timeout leaves the data to `sendInLoop`. -/
theorem sends_onRetransmitTimeout (seq : Nat) : w.Sends (w.onRetransmitTimeout seq) := by
  rw [onRetransmitTimeout]
  split
  · exact .refl w
  · rename_i node _
    split
    · exact Sends.trans (v := { w with
        conn.pendingRetrans := w.conn.pendingRetrans.erase seq }) (.ofSame rfl rfl rfl)
        sends_forceCloseInLoop
    · dsimp only
      split
      · exact .ofSame rfl rfl rfl
      · have hnote := (sends_push (w := w) (.onRetransmitTimeout seq node.id)).trans
          (sends_note (e := .accepted (.message node.entry.data)) (by simp) fun _ => rfl)
        exact hnote.trans (.ofSame rfl rfl rfl)

/-- No functor reads from the socket. -/
theorem sends_run (env : Env) (f : Functor) : w.Sends (w.run env f) := by
  cases f with
  | connectEstablelished => exact sends_connectEstablelished env
  | connectDestroyed => exact sends_connectDestroyed
  | sendInLoop data => exact sends_sendInLoop data env
  | sendFileInLoop filePath => exact sends_sendFileInLoop filePath env
  | shutdownInLoop => exact sends_shutdownInLoop
  | forceCloseInLoop => exact sends_forceCloseInLoop
  | sendFunc data seq => exact (sends_push _).trans (sends_send true data)
  | ackReceived seq =>
    obtain ⟨queue, pendingRetrans, h⟩ := w.ackReceived_frame seq
    rw [run, h]
    exact .ofSame rfl rfl rfl
  | onIdleTimeout => exact sends_forceCloseInLoop
  | onRetransmitTimeout seq => exact sends_onRetransmitTimeout seq
  | user => exact sends_push _

/-! ## What a step does -/

/-- `handleRead` appends to the input what `readv` has stored, and hands nothing over. -/
theorem notes_handleRead (env : Env) :
    (w.handleRead env).input = w.input ++ env.read.bytes ∧ w.Notes (w.handleRead env) := by
  have hclose : w.handleClose.input = w.input ++ [] ∧ w.Notes w.handleClose := by
    rw [List.append_nil]
    exact ⟨sends_handleClose.input, sends_handleClose.notes⟩
  rw [handleRead]
  cases hread : env.read with
  | done data =>
    cases data with
    | nil => exact hclose
    | cons x data =>
      have hsends := (sends_resetIdleTimer (w := { w with
        conn.readBuffer := w.conn.readBuffer.readFd (x :: data) }) env).trans
          (sends_invoke .message)
      exact ⟨hsends.input.trans (Buffer.readable_readFd ..),
        Notes.trans (.ofSame rfl rfl) hsends.notes⟩
  | again => exact ⟨(List.append_nil _).symm, .ofSame rfl rfl⟩
  | error => exact hclose

/-- Code that goes on appends to the input what it reads. -/
theorem notes_resumeFrame {env : Env} {frame : Frame} {rest : List Frame} (htodo : w.todo = none)
    (hstack : w.stack = frame :: rest)
    (h : { w with stack := rest }.resumeFrame env frame = some w') :
    w'.input = w.input ++ w.reads (.resume env) ∧ w.Notes w' := by
  have hsame : w.Sends { w with stack := rest } := .ofSame rfl rfl rfl
  -- only the read test of `handleEvent` calls `readv`
  have hsends (hframe : frame ≠ .handleEvent .read)
      (hs : { w with stack := rest }.Sends w') :
      w'.input = w.input ++ w.reads (.resume env) ∧ w.Notes w' := by
    have hreads : w.reads (.resume env) = [] := by
      simp only [reads, readv?, htodo, hstack]
      cases frame with
      | handleEvent stage =>
        cases stage with
        | read => contradiction
        | _ => rfl
      | _ => rfl
    rw [hreads, List.append_nil]
    exact ⟨(hsame.trans hs).input, (hsame.trans hs).notes⟩
  cases frame with
  | user cb => contradiction
  | handleEvent stage =>
    obtain rfl := Option.some.inj h
    cases stage with
    | read =>
      simp only [handleEvent, reads, readv?, htodo, hstack]
      split
      · exact notes_handleRead env
      · exact ⟨(List.append_nil _).symm, .ofSame rfl rfl⟩
    | error =>
      refine hsends (by simp) ?_
      rw [handleEvent]
      split
      · exact (sends_push _).trans sends_handleClose
      · exact sends_push _
    | hup =>
      refine hsends (by simp) ?_
      rw [handleEvent]
      split
      · exact (sends_push _).trans sends_handleClose
      · exact sends_push _
    | write =>
      refine hsends (by simp) ?_
      rw [handleEvent]
      split
      · exact sends_handleWrite env
      · exact .refl _
  | handleWrite =>
    obtain rfl := Option.some.inj h
    exact hsends (by simp) (sends_handleWriteRest env)
  | handleWriteEnd =>
    obtain rfl := Option.some.inj h
    refine hsends (by simp) ?_
    rw [handleWriteEnd]
    split
    · exact sends_runInLoop ..
    · exact .refl _
  | sendFunc data seq =>
    obtain rfl := Option.some.inj h
    obtain ⟨queue, pendingRetrans, nextNode, hframe⟩ :=
      sendFuncEnd_frame { w with stack := rest } data seq env
    rw [hframe] at hsends ⊢
    exact hsends (by simp) (.ofSame rfl rfl rfl)
  | onRetransmitTimeout seq node =>
    obtain rfl := Option.some.inj h
    obtain ⟨queue, pendingRetrans, dangling, hframe⟩ :=
      onRetransmitTimeoutEnd_frame { w with stack := rest } seq node env
    rw [hframe] at hsends ⊢
    exact hsends (by simp) (.ofSame rfl rfl rfl)
  | timerQueue =>
    refine hsends (by simp) ?_
    simp only [resumeFrame, handleTimers] at h
    split at h
    · contradiction
    · obtain ⟨timers, -, rfl⟩ := Option.map_eq_some_iff.mp h
      exact .ofSame rfl rfl rfl
    · obtain ⟨timers, -, rfl⟩ := Option.map_eq_some_iff.mp h
      exact .ofSame rfl rfl rfl
    · obtain ⟨timers, -, rfl⟩ := Option.map_eq_some_iff.mp h
      exact .ofSame rfl rfl rfl

/-- A step appends what it reads to the input and drops what it retrieves, and hands nothing over
when the write side has been shut down. -/
theorem stream_of_step {a : Action} (h : w.step a = some w') :
    w.retrieves a ++ w'.input = w.input ++ w.reads a ∧ w.Notes w' := by
  have hsends {a : Action} {u : TcpLoop} (hs : w.Sends u) (hreads : w.reads a = [])
      (hretrieves : w.retrieves a = []) :
      w.retrieves a ++ u.input = w.input ++ w.reads a ∧ w.Notes u := by
    rw [hreads, hretrieves, List.append_nil, List.nil_append]
    exact ⟨hs.input, hs.notes⟩
  cases stepped_of_step h with
  | poll hidle hfunc hready hw =>
    obtain rfl | rfl := hw <;> exact hsends (.ofSame rfl rfl rfl) rfl rfl
  | run htodo henv =>
    refine hsends ?_ rfl rfl
    exact Sends.trans (v := w.clearTodo) (.ofSame rfl rfl rfl) (sends_run ..)
  | resume htodo hstack henv hresume => exact notes_resumeFrame htodo hstack hresume
  | call huser => exact hsends (sends_call ..) rfl rfl
  | callElsewhere => exact hsends (sends_call ..) rfl rfl
  | @retrieve len rest htodo hstack =>
    have hrest : { w with conn.readBuffer := w.conn.readBuffer.retrieve len }.input =
        w.input.drop len := Buffer.readable_retrieve ..
    rw [hrest, retrieves, List.take_append_drop]
    exact ⟨(List.append_nil _).symm, .ofSame rfl rfl⟩
  | _ => exact hsends (.ofSame rfl rfl rfl) rfl rfl

end TcpLoop

end ClearMoon.Tcp

import ClearMoon.Tcp.Effect

/-!
# The life cycle of a connection

A `Life` gathers the state of a connection and the callbacks that have been invoked. `Stirs` lists
what a step of the machine can do to it: establish, disconnect, close or destroy the connection,
or invoke a callback.
-/

namespace ClearMoon.Tcp

open ClearMoon.Net ClearMoon.Timer

def Event.invoked? : Event → Option Callback
  | .invoked cb => some cb
  | _ => none

/-- The callbacks that have been invoked, in order. -/
def calls (trace : List Event) : List Callback := trace.filterMap Event.invoked?

structure Life where
  state : StateE
  sendingFile : Bool
  /-- Which callbacks are installed. -/
  callbacks : Callback → Bool
  aborted : Bool
  calls : List Callback

namespace Life

variable {l : Life}

/-- A callback is invoked, if it is installed. -/
def invoke (l : Life) (cb : Callback) : Life :=
  { l with calls := l.calls ++ if l.callbacks cb then [cb] else [] }

/-- What `handleClose` does. -/
inductive Ends (l : Life) : Life → Prop
  | already (h : l.state = .kDisConnected) : Ends l l
  | closed (h : l.state = .kConnected ∨ l.state = .kDisConnecting) :
      Ends l ({ l with state := .kDisConnected, sendingFile := false }.invoke .close)
  | aborted (h : l.state = .kConnecting) : Ends l { l with aborted := true }

/-- What an event handler does, when a read may deliver data and a write may take buffered
bytes. -/
inductive Served (l : Life) (delivers drains : Prop) : Life → Prop
  | quiet : Served l delivers drains l
  | message (h : delivers) : Served l delivers drains (l.invoke .message)
  | writeComplete {b} (h : drains ∨ l.sendingFile = true) (hb : b = true → l.sendingFile = true) :
      Served l delivers drains ({ l with sendingFile := b }.invoke .writeComplete)
  | close {l' b} (hb : b = true → l.sendingFile = true) (h : Ends { l with sendingFile := b } l') :
      Served l delivers drains l'

/-- A handler may be given more leave to deliver and to drain. -/
theorem Served.mono {l' : Life} {delivers delivers' drains drains' : Prop}
    (h : Served l delivers drains l') (hdelivers : delivers → delivers')
    (hdrains : drains → drains') :
    Served l delivers' drains' l' := by
  cases h with
  | quiet => exact .quiet
  | message h => exact .message (hdelivers h)
  | writeComplete h hb => exact .writeComplete (h.imp_left hdrains) hb
  | close hb h => exact .close hb h

/-- `handleClose` as an event handler. -/
theorem Served.ofEnds {l' : Life} {delivers drains : Prop} (h : Ends l l') :
    Served l delivers drains l' :=
  .close (b := l.sendingFile) id h

end Life

namespace TcpLoop

variable {w : TcpLoop}

def life (w : TcpLoop) : Life where
  state := w.conn.state
  sendingFile := w.conn.sendingFile
  callbacks := w.conn.callbacks
  aborted := w.aborted
  calls := calls w.trace

/-! ### Operations outside the life cycle -/

/-- An event that is no callback is no part of the life. -/
theorem life_note {e : Event} (he : e.invoked? = none) : (w.note e).life = w.life := by
  have hcalls : calls (w.trace ++ [e]) = calls w.trace := by
    rw [calls, List.filterMap_append, List.filterMap_cons_none he, List.filterMap_nil,
      List.append_nil]
    rfl
  exact congrArg (fun calls => { w.life with calls }) hcalls

/-- Invoking a callback of the connection is invoking one in its life. -/
theorem life_invoke (cb : Callback) : (w.invoke cb).life = w.life.invoke cb := by
  have hcalls : calls (w.trace ++ [.invoked cb]) = calls w.trace ++ [cb] := List.filterMap_append
  unfold TcpLoop.invoke Life.invoke
  by_cases hcb : w.life.callbacks cb = true
  · rw [if_pos hcb, if_pos (show w.conn.callbacks cb = true from hcb)]
    exact congrArg (fun calls => { w.life with calls }) hcalls
  · rw [if_neg hcb, if_neg (show ¬w.conn.callbacks cb = true from hcb), List.append_nil]

/-- The idle timer is no part of the life either. -/
theorem life_cancelIdleTimer : w.cancelIdleTimer.life = w.life := by
  obtain ⟨queue, h⟩ := w.cancel_frame w.conn.idleTimerId
  rw [cancelIdleTimer, h]
  rfl

/-- Nor are the entries. -/
theorem life_clearRetrans : w.clearRetrans.life = w.life := by
  obtain ⟨queue, h⟩ := foldl_cancel_frame w.conn.pendingRetrans.toList w
  rw [clearRetrans, h]
  rfl

theorem life_resetIdleTimer (env : Env) : (w.resetIdleTimer env).life = w.life := by
  obtain ⟨queue, id, h⟩ := w.resetIdleTimer_frame env
  rw [h]
  rfl

/-- The lambda of `sendWithRetransmit` makes an entry, and calls nobody. -/
theorem life_sendFuncEnd (data : Bytes) (seq : Nat) (env : Env) :
    (w.sendFuncEnd data seq env).life = w.life := by
  obtain ⟨queue, pendingRetrans, nextNode, h⟩ := w.sendFuncEnd_frame data seq env
  rw [h]
  rfl

/-- An ack calls nobody. -/
theorem life_ackReceived (seq : Nat) : (w.ackReceived seq).life = w.life := by
  obtain ⟨queue, pendingRetrans, h⟩ := w.ackReceived_frame seq
  rw [h]
  rfl

/-- The retry that is counted, and the timer that is armed, are no part of the life. -/
theorem life_onRetransmitTimeoutEnd (seq node : Nat) (env : Env) :
    (w.onRetransmitTimeoutEnd seq node env).life = w.life := by
  obtain ⟨queue, pendingRetrans, dangling, h⟩ := w.onRetransmitTimeoutEnd_frame seq node env
  rw [h]
  rfl

theorem life_openFile (filePath : Bytes) (fd : Addr) : (w.openFile filePath fd).life = w.life := by
  rw [openFile]
  split
  · rfl
  · rfl

/-- Output that is buffered calls nobody. -/
theorem life_appendOutput (rest : Bytes) : (w.appendOutput rest).life = w.life := by
  rw [appendOutput]
  split
  · rfl
  · dsimp only
    split
    · rfl
    · rfl

/-- Nor does what is left of a message. -/
theorem life_sendRest (rest : Bytes) : (w.sendRest rest).life = w.life := by
  have happend := life_appendOutput (w := w) rest
  rw [sendRest]
  generalize w.appendOutput rest = v at happend ⊢
  split
  · exact happend
  · exact happend

/-! ### Closing -/

/-- With the file the transfer ends. -/
theorem life_dropFile : w.dropFile.life = { w.life with sendingFile := false } := by
  obtain ⟨files, h⟩ := w.closeFile_frame
  rw [dropFile, h]
  rfl

/-- `handleClose` ends the life of a connection that is open, and does nothing to one that is
closed. -/
theorem ends_handleClose : w.life.Ends w.handleClose.life := by
  have hreset : ∀ v : TcpLoop,
      { v.dropFile with conn.fileSentOffset := 0, conn.fileTotalSize := 0 }.life =
        { v.life with sendingFile := false } := fun v => life_dropFile (w := v)
  cases h : w.conn.state with
  | kConnecting =>
    simp only [handleClose, h]
    exact .aborted h
  | kConnected =>
    simp only [handleClose, h, life_invoke, life_clearRetrans, life_cancelIdleTimer, hreset]
    exact .closed (.inl h)
  | kDisConnecting =>
    simp only [handleClose, h, life_invoke, life_clearRetrans, life_cancelIdleTimer, hreset]
    exact .closed (.inr h)
  | kDisConnected =>
    simp only [handleClose, h]
    exact .already h

/-- `forceCloseInLoop` leaves a connection alone that is not open. -/
theorem ends_forceCloseInLoop :
    w.forceCloseInLoop.life = w.life ∨ w.life.Ends w.forceCloseInLoop.life := by
  rw [forceCloseInLoop]
  split
  · exact .inr ends_handleClose
  · exact .inl rfl

/-! ### Event handlers -/

/-- A read delivers data, or closes the connection, or does nothing. -/
theorem served_handleRead (env : Env) :
    w.life.Served (∃ b data, env.read = .done (b :: data)) False (w.handleRead env).life := by
  rw [handleRead]
  split
  · exact .ofEnds ends_handleClose
  · rename_i data hne hread
    rw [life_invoke, life_resetIdleTimer]
    obtain ⟨b, data, rfl⟩ := List.exists_cons_of_ne_nil hne
    exact .message ⟨b, data, hread⟩
  · exact .quiet
  · exact .ofEnds ends_handleClose

/-- `::write` has taken bytes of the buffer. -/
theorem life_writeFd (n : Nat) : (w.writeFd n).life = w.life := by
  rw [writeFd]
  exact life_note rfl

/-- A part of the file is sent, and the callback is invoked behind the last one. -/
theorem served_sendfile (n : Nat) {delivers drains : Prop} (h : w.conn.sendingFile = true) :
    w.life.Served delivers drains (w.sendfile n).life := by
  rw [sendfile]
  generalize w.unsent.take (min n chunkSize) = sent
  dsimp only
  split
  · exact .quiet
  · have hsent : ({ w with conn.fileSentOffset := w.conn.fileSentOffset + sent.length }.note
        (Event.sentFile sent)).life = w.life := life_note rfl
    split
    · rw [life_invoke]
      have hdrop := life_dropFile (w := { w with
        conn.fileSentOffset := w.conn.fileSentOffset + sent.length }.note (.sentFile sent))
      rw [hsent] at hdrop
      exact (congrArg (fun l : Life => w.life.Served delivers drains (l.invoke .writeComplete))
        hdrop).mpr (.writeComplete (b := false) (.inr h) (by simp))
    · rw [hsent]
      exact .quiet

/-- The buffer is drained, and the callback told, if `::write` takes at least one byte. -/
theorem served_handleWriteBuffer (env : Env) :
    w.life.Served False
      (0 < w.conn.writeBuffer.readableBytes ∧ ∃ n, w.ioResult env.write = .done (n + 1))
      (w.handleWriteBuffer env).life := by
  rw [handleWriteBuffer]
  split
  · rename_i hbuffered
    split
    · rename_i n hwrite
      have hdrained := life_writeFd (w := w.push .handleWriteEnd) (n + 1)
      generalize (w.push .handleWriteEnd).writeFd (n + 1) = v at hdrained ⊢
      have hlife : v.life = w.life := hdrained
      have hdisabled : v.disableWriting.life = w.life := hlife
      have hdone : w.life.Served False (0 < w.conn.writeBuffer.readableBytes ∧
          ∃ n, w.ioResult env.write = .done (n + 1)) (w.life.invoke .writeComplete) :=
        .writeComplete (b := w.life.sendingFile) (.inl ⟨hbuffered, n, hwrite⟩) id
      dsimp only
      split
      · rwa [life_invoke, hdisabled]
      · rwa [life_invoke, hlife]
    · exact .quiet
    · exact .ofEnds ends_handleClose
    · exact .ofEnds ends_handleClose
  · exact .quiet

/-- The transfer goes on, fails and closes the connection, or gives way to the buffer. -/
theorem served_handleWriteFile (env : Env) :
    w.life.Served False
      (0 < w.conn.writeBuffer.readableBytes ∧ ∃ n, w.ioResult env.write = .done (n + 1))
      (w.handleWriteFile env).life := by
  rw [handleWriteFile]
  split
  · rename_i hfile
    split
    · exact served_sendfile _ hfile.1
    · exact .quiet
    · refine .close (b := false) (by simp) ?_
      have hdrop : w.dropFile.disableWriting.life = { w.life with sendingFile := false } :=
        life_dropFile
      rw [← hdrop]
      exact ends_handleClose
  · exact served_handleWriteBuffer env

/-- Behind the first block there is only the file left to tell of. -/
theorem served_handleWriteRest (env : Env) :
    w.life.Served False False (w.handleWriteRest env).life := by
  rw [handleWriteRest]
  split
  · exact .quiet
  · rename_i hempty
    refine (served_handleWriteFile env).mono id ?_
    exact fun h => hempty h.1

/-- The idle timer does not concern the buffer. -/
theorem writeBuffer_resetIdleTimer (env : Env) :
    (w.resetIdleTimer env).conn.writeBuffer = w.conn.writeBuffer := by
  obtain ⟨queue, id, h⟩ := w.resetIdleTimer_frame env
  rw [h]

/-- Nor what `::write` answers. -/
theorem ioResult_resetIdleTimer (env : Env) (r : IoResult) :
    (w.resetIdleTimer env).ioResult r = w.ioResult r := by
  obtain ⟨queue, id, h⟩ := w.resetIdleTimer_frame env
  rw [h]
  rfl

/-- `handleWrite` drains what is buffered only while the channel is writing. -/
theorem served_handleWrite (env : Env) :
    w.life.Served False (w.conn.channel.isWriting = true ∧
      0 < w.conn.writeBuffer.readableBytes ∧ ∃ n, w.ioResult env.write = .done (n + 1))
      (w.handleWrite env).life := by
  rw [handleWrite]
  split
  · exact .quiet
  · rename_i hwriting
    have hwriting : w.conn.channel.isWriting = true := by simpa using hwriting
    have hidle := life_resetIdleTimer (w := w) env
    have hbuffer := writeBuffer_resetIdleTimer (w := w) env
    have hio := ioResult_resetIdleTimer (w := w) env env.write
    generalize w.resetIdleTimer env = v at hidle hbuffer hio ⊢
    rw [← hidle, ← hbuffer, ← hio]
    dsimp only
    split
    · rename_i hbuffered
      have hpush : (v.push .handleWrite).life = v.life := rfl
      split
      · rename_i n hwrite
        have hdrained := life_writeFd (w := v.push .handleWrite) (n + 1)
        generalize (v.push .handleWrite).writeFd (n + 1) = u at hdrained ⊢
        have hlife : u.life = v.life := hdrained
        have hdisabled : u.disableWriting.life = v.life := hlife
        have hdone : v.life.Served False (w.conn.channel.isWriting = true ∧
            0 < v.conn.writeBuffer.readableBytes ∧ ∃ n, v.ioResult env.write = .done (n + 1))
            (v.life.invoke .writeComplete) :=
          .writeComplete (b := v.life.sendingFile) (.inl ⟨hwriting, hbuffered, n, hwrite⟩) id
        split
        · rwa [life_invoke, hdisabled]
        · rwa [life_invoke, hlife]
      · exact .quiet
      · exact .ofEnds (ends_handleClose (w := v.push .handleWrite))
      · exact .ofEnds (ends_handleClose (w := v.push .handleWrite))
    · refine (served_handleWriteFile env).mono id ?_
      exact fun h => ⟨hwriting, h⟩

/-- The read test of `Channel::handleEvent` succeeds, and the read delivers data. -/
def delivers (w : TcpLoop) : Action → Bool
  | .resume env =>
    let r := w.conn.channel.revents
    w.stack.head? = some (.handleEvent .read) && (r.epollin || r.epollrdhup || r.epollpri) &&
      match env.read with
      | .done (_ :: _) => true
      | _ => false
  | _ => false

/-- The write test of `Channel::handleEvent` succeeds, and `::write` takes buffered bytes. -/
def drains (w : TcpLoop) : Action → Bool
  | .resume env =>
    w.stack.head? = some (.handleEvent .write) && w.conn.channel.revents.epollout &&
      w.conn.channel.isWriting && 0 < w.conn.writeBuffer.readableBytes &&
      match w.ioResult env.write with
      | .done (_ + 1) => true
      | _ => false
  | _ => false

/-- The four tests deliver, drain and close as their events say. -/
theorem served_handleEvent {env : Env} {stage : EventStage} {rest : List Frame}
    (hstack : w.stack = .handleEvent stage :: rest) :
    w.life.Served (w.delivers (.resume env)) (w.drains (.resume env))
      ({ w with stack := rest }.handleEvent env stage).life := by
  cases stage with
  | error =>
    simp only [handleEvent]
    split
    · exact .ofEnds (ends_handleClose (w := { w with stack := rest }.push _))
    · exact .quiet
  | read =>
    simp only [handleEvent]
    split
    · rename_i hrevents
      refine (served_handleRead (w := { w with stack := rest }.push _) env).mono ?_ (by simp)
      rintro ⟨b, data, hread⟩
      have hrevents : (w.conn.channel.revents.epollin || w.conn.channel.revents.epollrdhup ||
        w.conn.channel.revents.epollpri) = true := hrevents
      simp [delivers, hstack, hread, hrevents]
    · exact .quiet
  | hup =>
    simp only [handleEvent]
    split
    · exact .ofEnds (ends_handleClose (w := { w with stack := rest }.push _))
    · exact .quiet
  | write =>
    simp only [handleEvent]
    split
    · rename_i hrevents
      refine (served_handleWrite (w := { w with stack := rest }) env).mono (by simp) ?_
      rintro ⟨hwriting, hbuffered, n, hwrite⟩
      have hrevents : w.conn.channel.revents.epollout = true := hrevents
      have hwriting : w.conn.channel.isWriting = true := hwriting
      have hwrite : w.ioResult env.write = .done (n + 1) := hwrite
      simp [drains, hstack, hrevents, hwriting, hwrite]
      exact hbuffered
    · exact .quiet

/-! ### What a step does -/

/-- What one step does to the life cycle. -/
inductive Stirs (w : TcpLoop) : Action → Life → Prop
  | quiet {a} : Stirs w a w.life
  | establish {env} (htodo : w.todo = some .connectEstablelished)
      (hstate : w.conn.state = .kConnecting) :
      Stirs w (.run env) ({ w.life with state := .kConnected }.invoke .connection)
  | abort {env} (htodo : w.todo = some .connectEstablelished)
      (hstate : w.conn.state ≠ .kConnecting) :
      Stirs w (.run env) { w.life with aborted := true }
  /-- `shutdown` or `forceClose`, in the loop thread or in another one. -/
  | disconnect {a} (hstate : w.conn.state = .kConnected ∨ w.conn.state = .kDisConnecting) :
      Stirs w a { w.life with state := .kDisConnecting }
  | destroy {env} (htodo : w.todo = some .connectDestroyed) (hstate : w.conn.state = .kConnected) :
      Stirs w (.run env) { w.life with state := .kDisConnected }
  /-- `sendInLoop` has written its message. -/
  | written {env} (hstate : w.conn.state ≠ .kDisConnected) :
      Stirs w (.run env) (w.life.invoke .writeComplete)
  | openFile {env} (hstate : w.conn.state ≠ .kDisConnected) :
      Stirs w (.run env) { w.life with sendingFile := true }
  /-- What was to be run closes the connection. -/
  | close {env l} (h : w.life.Ends l) : Stirs w (.run env) l
  | served {env l} (h : w.life.Served (w.delivers (.resume env)) (w.drains (.resume env)) l) :
      Stirs w (.resume env) l

/-- Closing by force is a close, if the connection is open. -/
theorem stirs_forceCloseInLoop {env : Env} {v : TcpLoop} (hlife : v.life = w.life) :
    Stirs w (.run env) v.forceCloseInLoop.life := by
  rcases v.ends_forceCloseInLoop with h | h
  · rw [h, hlife]
    exact .quiet
  · rw [hlife] at h
    exact .close h

/-- `sendInLoop` refuses a closed connection, and tells of a message written at once. -/
theorem stirs_sendInLoop (data : Bytes) (env : Env) :
    Stirs w (.run env) (w.clearTodo.sendInLoop data env).life := by
  rw [sendInLoop]
  split
  · exact .quiet
  · rename_i hstate
    have htaken : (w.clearTodo.note (.taken (.message data))).life = w.life := life_note rfl
    generalize w.clearTodo.note (.taken (.message data)) = v at htaken ⊢
    dsimp only
    split
    · split
      · rename_i n _
        have hwrote : (v.note (.wrote (data.take n))).life = w.life := by
          rw [life_note rfl, htaken]
        split
        · rw [life_invoke, hwrote]
          exact .written hstate
        · rw [life_sendRest, hwrote]
          exact .quiet
      · rw [life_sendRest, htaken]
        exact .quiet
      · rw [life_sendRest, htaken]
        exact .quiet
    · rw [life_sendRest, htaken]
      exact .quiet

/-- `sendFileInLoop` begins a transfer, or closes the connection when there is no file. -/
theorem stirs_sendFileInLoop (filePath : Bytes) (env : Env) :
    Stirs w (.run env) (w.clearTodo.sendFileInLoop filePath env).life := by
  rw [sendFileInLoop]
  split
  · exact .quiet
  · rename_i hstate
    have htaken : (w.clearTodo.note (.taken (.file filePath))).life = w.life := life_note rfl
    generalize w.clearTodo.note (.taken (.file filePath)) = v at htaken ⊢
    dsimp only
    cases env.opened with
    | failed => exact stirs_forceCloseInLoop htaken
    | fstatFailed fd => exact stirs_forceCloseInLoop ((life_openFile filePath fd).trans htaken)
    | opened fd =>
      have hopened : (((v.openFile filePath fd).setFile fd (v.disk filePath).length).enableWriting
          ).life = { w.life with sendingFile := true } :=
        congrArg (fun l : Life => { l with sendingFile := true })
          ((life_openFile filePath fd).trans htaken)
      dsimp only
      rw [hopened]
      exact .openFile hstate

/-- Only here a connection is established, and tells so. -/
theorem stirs_connectEstablelished {env : Env} (htodo : w.todo = some .connectEstablelished) :
    Stirs w (.run env) (w.clearTodo.connectEstablelished env).life := by
  rw [connectEstablelished]
  split
  · rename_i hstate
    exact .abort htodo hstate
  · rename_i hstate
    rw [life_invoke, life_resetIdleTimer]
    exact .establish htodo (not_not.mp hstate)

/-- A connected connection that is destroyed is closed without a callback. -/
theorem stirs_connectDestroyed {env : Env} (htodo : w.todo = some .connectDestroyed) :
    Stirs w (.run env) w.clearTodo.connectDestroyed.life := by
  have hremoved : ∀ v : TcpLoop, v.cancelIdleTimer.clearRetrans.removeChannel.life = v.life :=
    fun v => life_clearRetrans.trans life_cancelIdleTimer
  rw [connectDestroyed, hremoved]
  split
  · rename_i hstate
    exact .destroy htodo hstate
  · exact .quiet

/-- With nothing to write a shutdown is a close. -/
theorem stirs_shutdownInLoop {env : Env} : Stirs w (.run env) w.clearTodo.shutdownInLoop.life := by
  have hshut : w.clearTodo.shutdownWrite.life = w.life := by
    rw [shutdownWrite]
    exact life_note rfl
  rw [shutdownInLoop]
  split
  · have h := ends_handleClose (w := w.clearTodo.shutdownWrite)
    rw [hshut] at h
    exact .close h
  · rw [hshut]
    exact .quiet

/-- Accepting a message changes nothing in the life. -/
theorem life_send (inThread : Bool) (data : Bytes) : (w.send inThread data).life = w.life := by
  rw [send]
  split
  · rfl
  · cases inThread <;> exact life_note (w := w) (e := .accepted (.message data)) rfl

/-- Nor does accepting a file. -/
theorem life_sendFile (inThread : Bool) (filePath : Bytes) :
    (w.sendFile inThread filePath).life = w.life := by
  rw [sendFile]
  split
  · rfl
  · cases inThread <;> exact life_note (w := w) (e := .accepted (.file filePath)) rfl

/-- A timeout leaves the life alone, or closes the connection when the retries are used up. -/
theorem life_onRetransmitTimeout (seq : Nat) :
    (w.onRetransmitTimeout seq).life = w.life ∨
      ∃ v : TcpLoop, v.life = w.life ∧ w.onRetransmitTimeout seq = v.forceCloseInLoop := by
  rw [onRetransmitTimeout]
  split
  · exact .inl rfl
  · rename_i node _
    split
    · refine .inr ⟨_, ?_, rfl⟩
      rfl
    · left
      dsimp only
      split
      · rfl
      · exact life_note (w := w.push _) (e := .accepted (.message node.entry.data)) rfl

/-- What a functor does to the life of its connection. -/
theorem stirs_run {env : Env} {f : Functor} (htodo : w.todo = some f) :
    Stirs w (.run env) (w.clearTodo.run env f).life := by
  cases f with
  | connectEstablelished => exact stirs_connectEstablelished htodo
  | connectDestroyed => exact stirs_connectDestroyed htodo
  | sendInLoop data => exact stirs_sendInLoop data env
  | sendFileInLoop filePath => exact stirs_sendFileInLoop filePath env
  | shutdownInLoop => exact stirs_shutdownInLoop
  | forceCloseInLoop => exact stirs_forceCloseInLoop rfl
  | sendFunc data seq =>
    rw [run, sendFunc, life_send]
    exact .quiet
  | ackReceived seq =>
    rw [run, life_ackReceived]
    exact .quiet
  | onIdleTimeout => exact stirs_forceCloseInLoop rfl
  | onRetransmitTimeout seq =>
    rw [run]
    rcases life_onRetransmitTimeout (w := w.clearTodo) seq with h | ⟨v, hlife, h⟩
    · rw [h]
      exact .quiet
    · rw [h]
      exact stirs_forceCloseInLoop hlife
  | user => exact .quiet

/-- A call of the user moves an open connection to `kDisConnecting` at most. -/
theorem stirs_call (a : Action) (inThread : Bool) (c : ConnCall) :
    Stirs w a (w.call inThread c).life := by
  cases c with
  | send data =>
    rw [call, life_send]
    exact .quiet
  | sendFile filePath =>
    rw [call, life_sendFile]
    exact .quiet
  | shutdown =>
    rw [call, shutdown]
    split
    · rename_i hstate
      have h : Stirs w a _ := .disconnect (.inl hstate)
      have hnote : ((w.setState .kDisConnecting).note .shutdown).life =
          { w.life with state := .kDisConnecting } := life_note rfl
      rw [← hnote] at h
      cases inThread <;> exact h
    · exact .quiet
  | forceClose =>
    rw [call, forceClose]
    split
    · rename_i hstate
      cases inThread <;> exact .disconnect hstate
    · exact .quiet
  | sendWithRetransmit data seq => cases inThread <;> exact .quiet
  | ackReceived seq => cases inThread <;> exact .quiet

/-- The timer queue only chooses what is run next. -/
theorem life_handleTimers {w' : TcpLoop} (h : w.handleTimers = some w') : w'.life = w.life := by
  rw [handleTimers] at h
  split at h
  · contradiction
  · obtain ⟨timers, -, rfl⟩ := Option.map_eq_some_iff.mp h
    rfl
  · obtain ⟨timers, -, rfl⟩ := Option.map_eq_some_iff.mp h
    rfl
  · obtain ⟨timers, -, rfl⟩ := Option.map_eq_some_iff.mp h
    rfl

/-- What code that goes on does to the life of the connection. -/
theorem stirs_resumeFrame {env : Env} {frame : Frame} {rest : List Frame} {w' : TcpLoop}
    (hstack : w.stack = frame :: rest)
    (h : { w with stack := rest }.resumeFrame env frame = some w') :
    Stirs w (.resume env) w'.life := by
  have hnone : ∀ {v}, w.life.Served False False v → Stirs w (.resume env) v :=
    fun hserved => .served (hserved.mono (by simp) (by simp))
  cases frame with
  | user cb => contradiction
  | handleEvent stage =>
    obtain rfl := Option.some.inj h
    exact .served (served_handleEvent hstack)
  | handleWrite =>
    obtain rfl := Option.some.inj h
    exact hnone (served_handleWriteRest (w := { w with stack := rest }) env)
  | handleWriteEnd =>
    obtain rfl := Option.some.inj h
    rw [handleWriteEnd]
    split
    · exact .quiet
    · exact .quiet
  | sendFunc data seq =>
    obtain rfl := Option.some.inj h
    rw [life_sendFuncEnd]
    exact .quiet
  | onRetransmitTimeout seq node =>
    obtain rfl := Option.some.inj h
    rw [life_onRetransmitTimeoutEnd]
    exact .quiet
  | timerQueue =>
    rw [life_handleTimers h]
    exact .quiet

/-- Every step stirs the life in one of these ways. -/
theorem stirs_of_step {a : Action} {w' : TcpLoop} (h : w.step a = some w') :
    Stirs w a w'.life := by
  cases stepped_of_step h with
  | poll hidle hfunc hready hw => obtain rfl | rfl := hw <;> exact .quiet
  | run htodo henv => exact stirs_run htodo
  | resume htodo hstack henv hresume => exact stirs_resumeFrame hstack hresume
  | @call c huser => exact stirs_call _ true c
  | @callElsewhere c => exact stirs_call _ false c
  | _ => exact .quiet

/-- The callbacks are those that the connection was set up with. -/
theorem callbacks_of_step {a : Action} {w' : TcpLoop} (hstep : w.step a = some w') :
    w'.conn.callbacks = w.conn.callbacks := by
  have hends {l l' : Life} (he : l.Ends l') : l'.callbacks = l.callbacks := by
    cases he <;> rfl
  have hstirs := stirs_of_step hstep
  change w'.life.callbacks = w.life.callbacks
  generalize w'.life = l at hstirs ⊢
  cases hstirs with
  | close he => exact hends he
  | served hs =>
    cases hs with
    | close hb he =>
      have hsame := hends he
      exact hsame
    | _ => rfl
  | _ => rfl

end TcpLoop

/-! ### The states of a connection -/

/-- What a connection may go through: it is established, disconnected, closed or destroyed. -/
inductive StateE.Moves : StateE → StateE → Prop
  | stay {s} : Moves s s
  | establish : Moves .kConnecting .kConnected
  | disconnect {s} (h : s = .kConnected ∨ s = .kDisConnecting) : Moves s .kDisConnecting
  | close {s} (h : s = .kConnected ∨ s = .kDisConnecting) : Moves s .kDisConnected
  | destroy : Moves .kConnected .kDisConnected

/-- The order in which a connection goes through its states. -/
def StateE.rank : StateE → Nat
  | kConnecting => 0
  | kConnected => 1
  | kDisConnecting => 2
  | kDisConnected => 3

/-- The states of a connection go forward. -/
theorem StateE.Moves.rank_le {s t : StateE} (h : s.Moves t) : s.rank ≤ t.rank := by
  cases h with
  | stay => exact Nat.le_refl _
  | establish => simp [rank]
  | disconnect h => rcases h with rfl | rfl <;> simp [rank]
  | close h => rcases h with rfl | rfl <;> simp [rank]
  | destroy => simp [rank]

namespace TcpLoop

variable {w : TcpLoop}

/-- No state comes behind `kDisConnected`. -/
theorem kDisConnected_of_rank {s : StateE} (h : StateE.kDisConnected.rank ≤ s.rank) :
    s = .kDisConnected := by
  cases s with
  | kDisConnected => rfl
  | _ => simp [StateE.rank] at h

/-- No state comes before `kConnecting`. -/
theorem ne_kConnecting_of_rank {s t : StateE} (hs : s ≠ .kConnecting) (h : s.rank ≤ t.rank) :
    t ≠ .kConnecting := by
  rintro rfl
  cases s with
  | kConnecting => contradiction
  | _ => simp [StateE.rank] at h

/-- Every step of the loop thread of a connection moves its state in this way. -/
theorem moves_of_step {a : Action} {w' : TcpLoop} (h : w.step a = some w') :
    w.conn.state.Moves w'.conn.state := by
  have hends : ∀ {l l' : Life}, l.Ends l' → l.state.Moves l'.state := by
    intro l l' he
    cases he with
    | already hstate => exact .stay
    | closed hstate => exact .close hstate
    | aborted hstate => exact .stay
  have hstirs := stirs_of_step h
  change w.life.state.Moves w'.life.state
  generalize w'.life = l at hstirs ⊢
  cases hstirs with
  | establish htodo hstate =>
    rw [show w.life.state = .kConnecting from hstate]
    exact .establish
  | disconnect hstate => exact .disconnect hstate
  | destroy htodo hstate =>
    rw [show w.life.state = .kConnected from hstate]
    exact .destroy
  | close he => exact hends he
  | served hs =>
    cases hs with
    | close hb he =>
      have hmoves := hends he
      exact hmoves
    | _ => exact .stay
  | _ => exact .stay

end TcpLoop

end ClearMoon.Tcp

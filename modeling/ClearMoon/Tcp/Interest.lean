import ClearMoon.Net.Poller
import ClearMoon.Tcp.View

/-!
# The interest of a connection in `EPOLLOUT`

A `Watch` gathers the channel, its poller, and what the connection has to write. While the
connection is open the channel watches for `EPOLLOUT` exactly if there is something to write, and
the records of the channel agree.
-/

namespace ClearMoon.Tcp

open ClearMoon.Net ClearMoon.Timer

/-- What the interest in `EPOLLOUT` depends on. -/
structure Watch where
  state : StateE
  aborted : Bool
  channel : Channel
  poller : Epoller Source
  /-- The readable bytes of `writeBuffer_`. -/
  buffered : Bytes
  sendingFile : Bool

namespace Watch

/-- There is something to write. -/
def HasOutput (x : Watch) : Prop := x.buffered ≠ [] ∨ x.sendingFile = true

/-- The channel is registered as it should be, and watches for `EPOLLOUT` as it should. -/
structure Apt (x : Watch) : Prop where
  agrees : x.channel.Agrees x.poller .conn
  reading : x.state ≠ .kConnecting → x.channel.events.epollin = true
  registered : x.state = .kConnected → x.channel.index = .kAdded
  interest : x.state ≠ .kDisConnected → x.aborted = false →
    (x.channel.isWriting = true ↔ x.HasOutput)

variable {x : Watch}

/-- An update with events that are not empty leaves a channel registered. -/
theorem index_update {c : Channel} {p : Epoller Source} (h : c.events.isNone = false) :
    (c.update p .conn).1.index = .kAdded := by
  rw [Channel.update, Epoller.updateChannel]
  cases hindex : c.index with
  | kNew => rfl
  | kDeleted => rfl
  | kAdded =>
    dsimp only
    rw [if_neg (by simp [h])]
    exact hindex

/-- An update of the channel, with the interest that is then apt. -/
theorem Apt.update (h : x.Apt) {y : Watch} (events : Events)
    (hc : y.channel = ({ x.channel with events }.update x.poller .conn).1)
    (hp : y.poller = ({ x.channel with events }.update x.poller .conn).2)
    (hreading : y.state ≠ .kConnecting → events.epollin = true)
    (hinterest : y.state ≠ .kDisConnected → y.aborted = false →
      (events.epollout = true ↔ y.HasOutput)) : y.Apt := by
  have hevents : y.channel.events = events := by rw [hc, Channel.events_update]
  refine ⟨?_, fun hstate => ?_, fun hstate => ?_, fun hstate hlive => ?_⟩
  · rw [hc, hp]
    exact (h.agrees.update events).2
  · rw [hevents]
    exact hreading hstate
  · rw [hc]
    apply index_update
    simp [Events.isNone, hreading (by simp [hstate])]
  · rw [Channel.isWriting, hevents]
    exact hinterest hstate hlive

/-- The channel is left alone. -/
theorem Apt.same (h : x.Apt) {y : Watch} (hchannel : y.channel = x.channel)
    (hpoller : y.poller = x.poller) (hstate : y.state = .kConnecting ↔ x.state = .kConnecting)
    (hconnected : y.state = .kConnected → x.state = .kConnected)
    (hinterest : y.state ≠ .kDisConnected → y.aborted = false →
      (x.channel.isWriting = true ↔ y.HasOutput)) : y.Apt where
  agrees := by
    rw [hchannel, hpoller]
    exact h.agrees
  reading hs := by
    rw [hchannel]
    exact h.reading (hstate.not.mp hs)
  registered hs := by
    rw [hchannel]
    exact h.registered (hconnected hs)
  interest := by
    rw [hchannel]
    exact hinterest

end Watch

namespace TcpLoop

variable {w : TcpLoop}

def watch (w : TcpLoop) : Watch where
  state := w.conn.state
  aborted := w.aborted
  channel := w.conn.channel
  poller := w.poller
  buffered := w.conn.writeBuffer.readable
  sendingFile := w.conn.sendingFile

abbrev Apt (w : TcpLoop) : Prop := w.watch.Apt

/-! ## Operations that leave the interest alone -/

@[simp] theorem watch_note (e : Event) : (w.note e).watch = w.watch := rfl

@[simp] theorem watch_push (frame : Frame) : (w.push frame).watch = w.watch := rfl

@[simp] theorem watch_invoke (cb : Callback) : (w.invoke cb).watch = w.watch := by
  rw [invoke]
  split <;> rfl

@[simp] theorem watch_runInLoop (inThread : Bool) (f : Functor) :
    (w.runInLoop inThread f).watch = w.watch := by
  rw [runInLoop]
  split <;> rfl

@[simp] theorem watch_cancelIdleTimer : w.cancelIdleTimer.watch = w.watch := by
  obtain ⟨queue, h⟩ := w.cancel_frame w.conn.idleTimerId
  rw [cancelIdleTimer, h]
  rfl

@[simp] theorem watch_clearRetrans : w.clearRetrans.watch = w.watch := by
  obtain ⟨queue, h⟩ := foldl_cancel_frame w.conn.pendingRetrans.toList w
  rw [clearRetrans, h]
  rfl

@[simp] theorem watch_resetIdleTimer (env : Env) : (w.resetIdleTimer env).watch = w.watch := by
  obtain ⟨queue, id, h⟩ := w.resetIdleTimer_frame env
  rw [h]
  rfl

@[simp] theorem watch_sendFuncEnd (data : Bytes) (seq : Nat) (env : Env) :
    (w.sendFuncEnd data seq env).watch = w.watch := by
  obtain ⟨queue, pendingRetrans, nextNode, h⟩ := w.sendFuncEnd_frame data seq env
  rw [h]
  rfl

@[simp] theorem watch_ackReceived (seq : Nat) : (w.ackReceived seq).watch = w.watch := by
  obtain ⟨queue, pendingRetrans, h⟩ := w.ackReceived_frame seq
  rw [h]
  rfl

@[simp] theorem watch_onRetransmitTimeoutEnd (seq node : Nat) (env : Env) :
    (w.onRetransmitTimeoutEnd seq node env).watch = w.watch := by
  obtain ⟨queue, pendingRetrans, dangling, h⟩ := w.onRetransmitTimeoutEnd_frame seq node env
  rw [h]
  rfl

/-- A file may be opened without the channel taking notice. -/
theorem watch_openFile (filePath : Bytes) (fd : Addr) :
    (w.openFile filePath fd).watch = w.watch := by
  rw [openFile]
  split <;> rfl

/-- With the file the transfer ends, and the channel is left to the caller. -/
theorem watch_dropFile : w.dropFile.watch = { w.watch with sendingFile := false } := by
  obtain ⟨files, h⟩ := w.closeFile_frame
  rw [dropFile, h]
  rfl

/-! ## Closing -/

/-- A state that is stored later than `kConnected` asks less of the channel. -/
theorem Apt.setState (h : w.Apt) {s : StateE} (hs : s = .kDisConnecting ∨ s = .kDisConnected)
    (hstate : w.conn.state = .kConnected ∨ w.conn.state = .kDisConnecting) :
    (w.setState s).Apt := by
  have hopen : w.conn.state ≠ .kDisConnected := by rcases hstate with h | h <;> simp [h]
  refine Watch.Apt.same h rfl rfl ⟨fun hc => ?_, fun hc => ?_⟩ (fun hc => ?_) (fun _ hlive => ?_)
  · rw [show s = .kConnecting from hc] at hs
    simp at hs
  · rcases hstate with hstate | hstate <;>
      exact absurd (hstate.symm.trans hc) (by simp)
  · rw [show s = .kConnected from hc] at hs
    simp at hs
  · exact h.interest hopen hlive

/-- Without its place in the poller a channel is apt, if the connection is not established. -/
theorem Apt.removeChannel (h : w.Apt) (hstate : w.conn.state ≠ .kConnected) :
    w.removeChannel.Apt := by
  have hevents : w.removeChannel.conn.channel.events = w.conn.channel.events :=
    Channel.events_remove _ _
  refine ⟨h.agrees.remove.2.1, fun hs => ?_, fun hs => absurd hs hstate, fun hs hlive => ?_⟩
  · exact (congrArg Events.epollin hevents).trans (h.reading hs)
  · have hinterest := h.interest hs hlive
    have hwriting : w.removeChannel.conn.channel.isWriting = w.conn.channel.isWriting :=
      congrArg Events.epollout hevents
    change w.removeChannel.conn.channel.isWriting = true ↔ w.watch.HasOutput
    rw [hwriting]
    exact hinterest

/-- What is left to write plays no part for a connection that is closed. -/
theorem Apt.closed (h : w.Apt) (hstate : w.conn.state = .kDisConnected) {v : TcpLoop}
    (hchannel : v.conn.channel = w.conn.channel) (hpoller : v.poller = w.poller)
    (hsame : v.conn.state = w.conn.state) : v.Apt := by
  refine h.same hchannel hpoller ?_ ?_ (fun hs => absurd (hsame.trans hstate) hs)
  · exact iff_of_eq (congrArg (· = StateE.kConnecting) hsame)
  · exact fun hs => hsame.symm.trans hs

/-- `handleClose` removes the channel, and takes the output from a connection that is closed. -/
theorem Apt.handleClose (h : w.Apt) : w.handleClose.Apt := by
  have hclose (hopen : w.conn.state = .kConnected ∨ w.conn.state = .kDisConnecting) :
      ({ (w.setState .kDisConnected).removeChannel.dropFile with
        conn.fileSentOffset := 0, conn.fileTotalSize := 0 }.cancelIdleTimer.clearRetrans.invoke
          .close).Apt := by
    have hremoved := Apt.removeChannel (h.setState (.inr rfl) hopen) (by simp [TcpLoop.setState])
    generalize hv : (w.setState .kDisConnected).removeChannel = v at hremoved ⊢
    have hstate : v.conn.state = .kDisConnected := by
      rw [← hv]
      rfl
    rw [Apt, watch_invoke, watch_clearRetrans, watch_cancelIdleTimer]
    obtain ⟨files, hfile⟩ := v.closeFile_frame
    rw [dropFile, hfile]
    exact hremoved.closed hstate rfl rfl rfl
  rw [TcpLoop.handleClose]
  split
  · exact h
  · exact Watch.Apt.same h rfl rfl Iff.rfl id (fun _ hlive => absurd hlive (by simp [abort, watch]))
  · rename_i hstate
    exact hclose (.inl hstate)
  · rename_i hstate
    exact hclose (.inr hstate)

/-- So does a close by force. -/
theorem Apt.forceCloseInLoop (h : w.Apt) : w.forceCloseInLoop.Apt := by
  rw [TcpLoop.forceCloseInLoop]
  split
  · exact h.handleClose
  · exact h

/-- A shutdown asks the channel before it shuts the socket. -/
theorem Apt.shutdownInLoop (h : w.Apt) : w.shutdownInLoop.Apt := by
  have hshut : w.shutdownWrite.Apt := h
  rw [TcpLoop.shutdownInLoop]
  split
  · exact hshut.handleClose
  · exact hshut

/-- The channel is registered when the connection is established, for reading alone. -/
theorem Apt.connectEstablelished (h : w.Apt) (env : Env) :
    (w.connectEstablelished env).Apt := by
  rw [TcpLoop.connectEstablelished]
  split
  · exact Watch.Apt.same h rfl rfl Iff.rfl id (fun _ hlive => absurd hlive (by simp [abort, watch]))
  · rename_i hstate
    have hstate : w.conn.state = .kConnecting := not_not.mp hstate
    rw [Apt, watch_invoke, watch_resetIdleTimer]
    refine h.update { w.conn.channel.events with epollin := true } rfl rfl (fun _ => rfl)
      fun _ hlive => ?_
    exact h.interest (by simp [watch, hstate]) hlive

/-- A connection that is destroyed gives its channel up. -/
theorem Apt.connectDestroyed (h : w.Apt) : w.connectDestroyed.Apt := by
  have hclosed : (if w.conn.state = .kConnected then w.setState .kDisConnected else w).Apt ∧
      (if w.conn.state = .kConnected then w.setState .kDisConnected else w).conn.state ≠
        .kConnected := by
    split
    · rename_i hstate
      exact ⟨h.setState (.inr rfl) (.inl hstate), by simp [TcpLoop.setState]⟩
    · rename_i hstate
      exact ⟨h, hstate⟩
  rw [TcpLoop.connectDestroyed]
  generalize (if w.conn.state = .kConnected then w.setState .kDisConnected else w) = v at hclosed ⊢
  obtain ⟨hv, hstate⟩ := hclosed
  have hsame : v.cancelIdleTimer.clearRetrans.watch = v.watch := by simp
  apply Apt.removeChannel
  · rwa [Apt, hsame]
  · rwa [show v.cancelIdleTimer.clearRetrans.conn.state = v.conn.state from
      congrArg Watch.state hsame]

/-! ## Sending -/

/-- What is appended is watched for. -/
theorem Apt.appendOutput (h : w.Apt) (rest : Bytes) : (w.appendOutput rest).Apt := by
  rw [TcpLoop.appendOutput]
  split
  · exact h
  · rename_i hrest
    have hsome {v : TcpLoop} (hv : v.conn.writeBuffer = w.conn.writeBuffer.append rest) :
        v.watch.HasOutput := by
      left
      change v.conn.writeBuffer.readable ≠ []
      rw [hv, Buffer.readable_append]
      simp [hrest]
    dsimp only
    split
    · refine h.update { w.conn.channel.events with epollout := true } rfl rfl h.reading ?_
      intro _ _
      exact iff_of_true rfl (hsome rfl)
    · rename_i hwriting
      have hwriting : w.conn.channel.isWriting = true := by simpa using hwriting
      refine Watch.Apt.same h rfl rfl Iff.rfl id fun _ _ => ?_
      exact iff_of_true hwriting (hsome rfl)

/-- What is left of a message is buffered, and watched for. -/
theorem Apt.sendRest (h : w.Apt) (rest : Bytes) : (w.sendRest rest).Apt := by
  have hrest := h.appendOutput rest
  rw [TcpLoop.sendRest]
  split
  · rwa [Apt, watch_runInLoop]
  · exact hrest

/-- A message is written at once only when nothing waits before it. -/
theorem Apt.sendInLoop (h : w.Apt) (data : Bytes) (env : Env) : (w.sendInLoop data env).Apt := by
  rw [TcpLoop.sendInLoop]
  split
  · exact h
  · have hnoted : (w.note (.taken (.message data))).Apt := h
    generalize w.note (.taken (.message data)) = v at hnoted ⊢
    dsimp only
    split
    · split
      · rename_i n _
        have hwrote : (v.note (.wrote (data.take n))).Apt := hnoted
        split
        · rwa [Apt, watch_invoke]
        · exact hwrote.sendRest _
      · exact hnoted.sendRest _
      · exact hnoted.sendRest _
    · exact hnoted.sendRest _

/-- A file to be sent is watched for from the start. -/
theorem Apt.sendFileInLoop (h : w.Apt) (filePath : Bytes) (env : Env) :
    (w.sendFileInLoop filePath env).Apt := by
  rw [TcpLoop.sendFileInLoop]
  split
  · exact h
  · have hnoted : (w.note (.taken (.file filePath))).Apt := h
    generalize w.note (.taken (.file filePath)) = v at hnoted ⊢
    have hopened (fd : Addr) : (v.openFile filePath fd).Apt := by
      rwa [Apt, watch_openFile]
    dsimp only
    split
    · exact hnoted.forceCloseInLoop
    · rename_i fd _
      have hfreed : { v.openFile filePath fd with
          files := (v.openFile filePath fd).files.free fd }.Apt := hopened fd
      exact hfreed.forceCloseInLoop
    · rename_i fd _
      have hv := hopened fd
      generalize v.openFile filePath fd = u at hv ⊢
      refine hv.update { u.conn.channel.events with epollout := true } rfl rfl hv.reading ?_
      intro _ _
      exact iff_of_true rfl (.inr rfl)

/-- `send` leaves the channel to `sendInLoop`. -/
theorem Apt.send (h : w.Apt) (inThread : Bool) (data : Bytes) : (w.send inThread data).Apt := by
  rw [TcpLoop.send]
  split
  · exact h
  · rwa [Apt, watch_runInLoop]

/-- A call of the user has nothing but the state to change. -/
theorem Apt.call (h : w.Apt) (inThread : Bool) (c : ConnCall) : (w.call inThread c).Apt := by
  have hdisconnect {e : Event} (hstate : w.conn.state = .kConnected) :
      ((w.setState .kDisConnecting).note e).Apt := h.setState (.inl rfl) (.inl hstate)
  cases c with
  | send data => exact h.send inThread data
  | sendFile filePath =>
    rw [TcpLoop.call, sendFile]
    split
    · exact h
    · rwa [Apt, watch_runInLoop]
  | shutdown =>
    rw [TcpLoop.call, shutdown]
    split
    · rename_i hstate
      rw [Apt, watch_runInLoop]
      exact hdisconnect hstate
    · exact h
  | forceClose =>
    rw [TcpLoop.call, forceClose]
    split
    · rename_i hstate
      rw [Apt, watch_runInLoop]
      exact h.setState (.inl rfl) hstate
    · exact h
  | sendWithRetransmit data seq => rwa [TcpLoop.call, Apt, watch_runInLoop]
  | ackReceived seq => rwa [TcpLoop.call, Apt, watch_runInLoop]

/-- A timeout sends again through the loop, or closes the connection. -/
theorem Apt.onRetransmitTimeout (h : w.Apt) (seq : Nat) : (w.onRetransmitTimeout seq).Apt := by
  rw [TcpLoop.onRetransmitTimeout]
  split
  · exact h
  · split
    · have herased : { w with
          conn.pendingRetrans := w.conn.pendingRetrans.erase seq }.Apt := h
      exact herased.forceCloseInLoop
    · dsimp only
      split <;> exact h

/-! ## Events -/

/-- A read does not concern `EPOLLOUT`. -/
theorem Apt.handleRead (h : w.Apt) (env : Env) : (w.handleRead env).Apt := by
  rw [TcpLoop.handleRead]
  split
  · exact h.handleClose
  · rw [Apt, watch_invoke, watch_resetIdleTimer]
    exact h
  · exact h
  · exact h.handleClose

/-- The channel stops watching for `EPOLLOUT` when nothing is left to write. -/
theorem Apt.disableWriting (h : w.Apt) {v : TcpLoop} (hchannel : v.conn.channel = w.conn.channel)
    (hpoller : v.poller = w.poller) (hstate : v.conn.state = w.conn.state)
    (hnothing : ¬v.watch.HasOutput) : v.disableWriting.Apt := by
  refine h.update { w.conn.channel.events with epollout := false } ?_ ?_ ?_ ?_
  · change (v.conn.channel.disableWriting v.poller .conn).1 = _
    rw [hchannel, hpoller]
    rfl
  · change (v.conn.channel.disableWriting v.poller .conn).2 = _
    rw [hchannel, hpoller]
    rfl
  · intro hne
    exact h.reading fun hc => hne (hstate.trans hc)
  · intro _ _
    exact iff_of_false Bool.false_ne_true hnothing

/-- A file that has been sent is no longer watched for; the buffer is empty then. -/
theorem Apt.dropFile_disableWriting (h : w.Apt) (hbuffered : w.conn.writeBuffer.readable = []) :
    w.dropFile.disableWriting.Apt := by
  have hdrop := watch_dropFile (w := w)
  refine h.disableWriting ?_ ?_ ?_ ?_
  · exact congrArg Watch.channel hdrop
  · exact congrArg Watch.poller hdrop
  · exact congrArg Watch.state hdrop
  · rw [hdrop]
    rintro (hsome | hfile)
    · exact hsome hbuffered
    · contradiction

/-- When the last bytes of the file are sent, with the buffer empty, nothing is watched for. -/
theorem Apt.sendfile (h : w.Apt) (n : Nat) (hbuffered : w.conn.writeBuffer.readable = []) :
    (w.sendfile n).Apt := by
  rw [TcpLoop.sendfile]
  generalize w.unsent.take (min n chunkSize) = sent
  dsimp only
  split
  · exact h
  · generalize hv : { w with conn.fileSentOffset := w.conn.fileSentOffset + sent.length }.note
      (.sentFile sent) = v
    have hsent : v.Apt ∧ v.conn.writeBuffer.readable = [] := by
      rw [← hv]
      exact ⟨h, hbuffered⟩
    split
    · rw [Apt, watch_invoke]
      exact hsent.1.dropFile_disableWriting hsent.2
    · exact hsent.1

/-- Behind its first block `handleWrite` comes to the file with an empty buffer. -/
theorem Apt.handleWriteFile (h : w.Apt) (env : Env) (hbuffered : w.conn.writeBuffer.readable = []) :
    (w.handleWriteFile env).Apt := by
  rw [TcpLoop.handleWriteFile]
  split
  · split
    · exact h.sendfile _ hbuffered
    · exact h
    · exact (h.dropFile_disableWriting hbuffered).handleClose
  · rw [handleWriteBuffer, if_neg]
    · exact h
    · rw [buffered_eq_nil.mp hbuffered]
      exact Nat.lt_irrefl 0

/-- What follows the first block of `handleWrite` keeps the interest apt. -/
theorem Apt.handleWriteRest (h : w.Apt) (env : Env) : (w.handleWriteRest env).Apt := by
  rw [TcpLoop.handleWriteRest]
  split
  · exact h
  · rename_i hempty
    exact h.handleWriteFile env (buffered_eq_nil.mpr (Nat.eq_zero_of_not_pos hempty))

/-- The channel is no longer watched if the buffer has been emptied and there is no file. -/
theorem Apt.handleWrite (h : w.Apt) (env : Env) : (w.handleWrite env).Apt := by
  rw [TcpLoop.handleWrite]
  split
  · exact h
  · rename_i hwriting
    have hwriting : w.conn.channel.isWriting = true := by simpa using hwriting
    have hidle : (w.resetIdleTimer env).watch = w.watch := watch_resetIdleTimer env
    have hv : (w.resetIdleTimer env).Apt := by rwa [Apt, hidle]
    have hvwriting : (w.resetIdleTimer env).conn.channel.isWriting = true :=
      (congrArg (·.channel.isWriting) hidle).trans hwriting
    generalize w.resetIdleTimer env = v at hv hvwriting ⊢
    dsimp only
    split
    · split
      · rename_i n _
        rw [Apt, watch_invoke]
        generalize hu : (v.push .handleWrite).writeFd (n + 1) = u
        have hchannel : u.conn.channel = v.conn.channel := by rw [← hu]; rfl
        have hpoller : u.poller = v.poller := by rw [← hu]; rfl
        have hstate : u.conn.state = v.conn.state := by rw [← hu]; rfl
        split
        · rename_i hempty
          refine hv.disableWriting hchannel hpoller hstate ?_
          rintro (hsome | hfile)
          · exact hsome (buffered_eq_nil.mpr hempty.1)
          · rw [show u.conn.sendingFile = true from hfile] at hempty
            simp at hempty
        · rename_i hleft
          refine hv.same hchannel hpoller ?_ ?_ (fun _ _ => iff_of_true hvwriting ?_)
          · exact iff_of_eq (congrArg (· = StateE.kConnecting) hstate)
          · exact fun hs => hstate.symm.trans hs
          · by_cases hempty : u.conn.writeBuffer.readableBytes = 0
            · have hfile : u.conn.sendingFile = true := by simpa [hempty] using hleft
              exact .inr hfile
            · exact .inl fun hnil => hempty (buffered_eq_nil.mp hnil)
      · exact hv
      · exact Apt.handleClose (w := v.push .handleWrite) hv
      · exact Apt.handleClose (w := v.push .handleWrite) hv
    · rename_i hempty
      exact hv.handleWriteFile env (buffered_eq_nil.mpr (Nat.eq_zero_of_not_pos hempty))

/-- Each test of `handleEvent` leaves the interest apt for the callback in it. -/
theorem Apt.handleEvent (h : w.Apt) (env : Env) (stage : EventStage) :
    (w.handleEvent env stage).Apt := by
  cases stage with
  | error =>
    rw [TcpLoop.handleEvent]
    split
    · exact Apt.handleClose (w := w.push _) h
    · exact h
  | read =>
    rw [TcpLoop.handleEvent]
    split
    · exact Apt.handleRead (w := w.push _) h env
    · exact h
  | hup =>
    rw [TcpLoop.handleEvent]
    split
    · exact Apt.handleClose (w := w.push _) h
    · exact h
  | write =>
    rw [TcpLoop.handleEvent]
    split
    · exact h.handleWrite env
    · exact h

/-! ## Runs -/

/-- So does each functor. -/
theorem Apt.run (h : w.Apt) (env : Env) (f : Functor) : (w.run env f).Apt := by
  cases f with
  | connectEstablelished => exact h.connectEstablelished env
  | connectDestroyed => exact h.connectDestroyed
  | sendInLoop data => exact h.sendInLoop data env
  | sendFileInLoop filePath => exact h.sendFileInLoop filePath env
  | shutdownInLoop => exact h.shutdownInLoop
  | forceCloseInLoop => exact h.forceCloseInLoop
  | sendFunc data seq => exact Apt.send (w := w.push _) h true data
  | ackReceived seq => rwa [TcpLoop.run, Apt, watch_ackReceived]
  | onIdleTimeout => exact h.forceCloseInLoop
  | onRetransmitTimeout seq => exact h.onRetransmitTimeout seq
  | user => exact h

/-- The timer queue has no part in it. -/
theorem watch_handleTimers {w' : TcpLoop} (h : w.handleTimers = some w') : w'.watch = w.watch := by
  rw [handleTimers] at h
  split at h
  · contradiction
  · obtain ⟨timers, -, rfl⟩ := Option.map_eq_some_iff.mp h
    rfl
  · obtain ⟨timers, -, rfl⟩ := Option.map_eq_some_iff.mp h
    rfl
  · obtain ⟨timers, -, rfl⟩ := Option.map_eq_some_iff.mp h
    rfl

/-- Code that goes on behind a callback finds the interest apt, and leaves it so. -/
theorem Apt.resumeFrame {env : Env} {frame : Frame} {w' : TcpLoop} (hapt : w.Apt)
    (h : w.resumeFrame env frame = some w') : w'.Apt := by
  cases frame with
  | user cb => contradiction
  | handleEvent stage =>
    obtain rfl := Option.some.inj h
    exact hapt.handleEvent env stage
  | handleWrite =>
    obtain rfl := Option.some.inj h
    exact hapt.handleWriteRest env
  | handleWriteEnd =>
    obtain rfl := Option.some.inj h
    rw [handleWriteEnd]
    split
    · exact hapt
    · exact hapt
  | sendFunc data seq =>
    obtain rfl := Option.some.inj h
    rwa [Apt, watch_sendFuncEnd]
  | onRetransmitTimeout seq node =>
    obtain rfl := Option.some.inj h
    rwa [Apt, watch_onRetransmitTimeoutEnd]
  | timerQueue => rwa [Apt, watch_handleTimers h]

/-- Every step keeps the interest apt. -/
theorem Apt.step {a : Action} {w' : TcpLoop} (h : w.Apt) (hstep : w.step a = some w') : w'.Apt := by
  cases stepped_of_step hstep with
  | poll hidle hfunc hready hw' =>
    rcases hw' with rfl | rfl
    · exact h
    · exact ⟨⟨h.agrees.registered, h.agrees.absent, h.agrees.notAdded, h.agrees.added⟩, h.reading,
        h.registered, h.interest⟩
  | event hidle hactive => exact h
  | timerEvent hidle hactive ht => exact h
  | otherEvent hidle hactive => exact h
  | doPendingFuncs hidle hfunc => exact h
  | nextFunc hidle hfunc => exact h
  | run htodo henv => exact Apt.run (w := w.clearTodo) h _ _
  | @resume env frame rest w' htodo hstack henv hr =>
    exact Apt.resumeFrame (w := { w with stack := rest }) h hr
  | call huser => exact h.call true _
  | callElsewhere => exact h.call false _
  | connectDestroyed huser => exact h
  | retrieve htodo hstack => exact h
  | addTimer huser ht => exact h
  | cancelTimer huser hid ht => exact h
  | ret htodo hstack => exact h
  | connectDestroyedElsewhere => exact h
  | runElsewhere => exact h
  | tick ht => exact h

/-- A new connection is registered nowhere. -/
theorem apt_start (fd : Nat) (callbacks : Callback → Bool) (disk : Bytes → Bytes) :
    (start fd callbacks disk).Apt where
  agrees := Channel.agrees_new (by simp [watch, start]) (by simp [watch, start])
  reading hs := absurd rfl hs
  registered hs := by contradiction
  interest _ _ := by simp [watch, start, Watch.HasOutput, Channel.isWriting, Buffer.readable_new]

/-- In every state of a run the interest is apt. -/
theorem apt_of_run {fd : Nat} {callbacks : Callback → Bool} {disk : Bytes → Bytes}
    {guard : TcpLoop → Action → Prop} {as : List Action}
    (h : Run step guard (start fd callbacks disk) as w) : w.Apt :=
  h.invariant (apt_start fd callbacks disk) fun _ _ _ happ _ hstep => happ.step hstep

end TcpLoop

end ClearMoon.Tcp

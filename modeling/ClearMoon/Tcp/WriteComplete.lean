import ClearMoon.Tcp.Calm
import ClearMoon.Tcp.Send
import ClearMoon.Tcp.Silence

/-!
# The write-complete callback

`sendInLoop` invokes the callback when its message has been written as a whole, and the file
transfer when the buffer is empty. `handleWrite` invokes it behind every `::write` of its first
block, so it tells that the output is drained exactly if that `::write` takes all that is buffered.
-/

namespace ClearMoon.Tcp

open ClearMoon.Net ClearMoon.Timer

/-! ## The property -/

/-- Whenever the write-complete callback was invoked, the bytes of all messages so far had been
handed to the kernel. -/
def DrainedAtComplete (outputs : List Event → List Output) : List Event → Prop :=
  AtEvery fun before e => e = .invoked .writeComplete → wrote before = messageBytes (outputs before)

namespace TcpLoop

/-- The write test of `Channel::handleEvent` succeeds, and `::write` takes some of the buffered
bytes and leaves others. -/
def writesPart (w : TcpLoop) : Action → Bool
  | .resume env =>
    w.stack.head? = some (.handleEvent .write) && w.conn.channel.revents.epollout &&
      w.conn.channel.isWriting &&
      match w.ioResult env.write with
      | .done n => 0 < n ∧ n < w.conn.writeBuffer.readableBytes
      | _ => false
  | _ => false

/-- Where the callback is installed, `::write` takes the whole buffer or nothing. -/
def TakesAll (w : TcpLoop) (a : Action) : Prop :=
  w.conn.callbacks .writeComplete = true → w.writesPart a = false

instance (w : TcpLoop) (a : Action) : Decidable (w.TakesAll a) :=
  inferInstanceAs (Decidable (_ → _))

variable {w v w' : TcpLoop}

/-! ## Transitions that do not tell of a complete write -/

/-- The trace grows by events other than the callback. -/
def Mute (w w' : TcpLoop) : Prop :=
  ∃ es, w'.trace = w.trace ++ es ∧ .invoked .writeComplete ∉ es

/-- Nothing is told while the trace stays as it is. -/
theorem Mute.ofSame (h : w'.trace = w.trace) : w.Mute w' :=
  ⟨[], by rw [h, List.append_nil], List.not_mem_nil⟩

theorem Mute.refl (w : TcpLoop) : w.Mute w := .ofSame rfl

/-- Two mute transitions in a row are one. -/
theorem Mute.trans (h : w.Mute v) (h' : v.Mute w') : w.Mute w' := by
  obtain ⟨es, htrace, hes⟩ := h
  obtain ⟨fs, htrace', hfs⟩ := h'
  refine ⟨es ++ fs, by rw [htrace', htrace, List.append_assoc], fun hmem => ?_⟩
  exact (List.mem_append.mp hmem).elim hes hfs

/-- Any event but the callback may be noted. -/
theorem mute_note {e : Event} (he : e ≠ .invoked .writeComplete) : w.Mute (w.note e) :=
  ⟨[e], rfl, fun hmem => he (List.mem_singleton.mp hmem).symm⟩

/-- The other callbacks say nothing about what has been written. -/
theorem mute_invoke {cb : Callback} (hcb : cb ≠ .writeComplete) : w.Mute (w.invoke cb) := by
  rw [invoke]
  split
  · exact mute_note fun he => hcb (Event.invoked.inj he)
  · exact .refl w

/-- A functor that is queued, or run next, has told nothing yet. -/
theorem mute_runInLoop (inThread : Bool) (f : Functor) : w.Mute (w.runInLoop inThread f) := by
  cases inThread with
  | false => exact .ofSame rfl
  | true => exact .ofSame rfl

/-- Timers leave the trace alone. -/
theorem mute_resetIdleTimer (env : Env) : w.Mute (w.resetIdleTimer env) := by
  obtain ⟨queue, id, h⟩ := w.resetIdleTimer_frame env
  rw [h]
  exact .ofSame rfl

/-- Closing the file is no complete write. -/
theorem mute_dropFile : w.Mute w.dropFile := by
  obtain ⟨files, h⟩ := w.closeFile_frame
  rw [dropFile, h]
  exact .ofSame rfl

theorem mute_openFile (filePath : Bytes) (fd : Addr) : w.Mute (w.openFile filePath fd) := by
  rw [openFile]
  split
  · exact .ofSame rfl
  · exact .refl w

/-- Nor is dropping the timers and the entries. -/
theorem mute_clear : w.Mute w.cancelIdleTimer.clearRetrans := by
  obtain ⟨queue, h⟩ := w.clear_frame
  rw [h]
  exact .ofSame rfl

/-- The only callback of `handleClose` is the close callback. -/
theorem mute_handleClose : w.Mute w.handleClose := by
  have hclose : w.Mute ({ (w.setState .kDisConnected).removeChannel.dropFile with
      conn.fileSentOffset := 0, conn.fileTotalSize := 0 }.cancelIdleTimer.clearRetrans.invoke
        .close) := by
    have hdrop : w.Mute { (w.setState .kDisConnected).removeChannel.dropFile with
        conn.fileSentOffset := 0, conn.fileTotalSize := 0 } :=
      mute_dropFile (w := (w.setState .kDisConnected).removeChannel)
    exact hdrop.trans (mute_clear.trans (mute_invoke (by simp)))
  cases h : w.conn.state with
  | kConnecting =>
    simp only [handleClose, h]
    exact .ofSame rfl
  | kConnected =>
    simp only [handleClose, h]
    exact hclose
  | kDisConnecting =>
    simp only [handleClose, h]
    exact hclose
  | kDisConnected =>
    simp only [handleClose, h]
    exact .refl w

theorem mute_forceCloseInLoop : w.Mute w.forceCloseInLoop := by
  rw [forceCloseInLoop]
  split
  · exact mute_handleClose
  · exact .refl w

/-- Shutting down tells at most that the connection is closed. -/
theorem mute_shutdownInLoop : w.Mute w.shutdownInLoop := by
  have hshut : w.Mute w.shutdownWrite := mute_note (w := { w with writeShut := true }) (by simp)
  rw [shutdownInLoop]
  split
  · exact hshut.trans mute_handleClose
  · exact hshut

/-- Establishing a connection invokes the connection callback. -/
theorem mute_connectEstablelished (env : Env) : w.Mute (w.connectEstablelished env) := by
  rw [connectEstablelished]
  split
  · exact .ofSame rfl
  · have hset : w.Mute (w.enableReading.setState .kConnected) := .ofSame rfl
    exact hset.trans ((mute_resetIdleTimer env).trans (mute_invoke (by simp)))

/-- Destroying one invokes nothing. -/
theorem mute_connectDestroyed : w.Mute w.connectDestroyed := by
  have hclear : ∀ v : TcpLoop, v.Mute v.cancelIdleTimer.clearRetrans.removeChannel :=
    fun v => mute_clear (w := v)
  rw [connectDestroyed]
  split
  · exact hclear (w.setState .kDisConnected)
  · exact hclear w

/-- What `::write` has not taken goes to the buffer, and the callback is left to `handleWrite`. -/
theorem mute_sendRest (rest : Bytes) : w.Mute (w.sendRest rest) := by
  have happend : (w.appendOutput rest).trace = w.trace := by
    rw [appendOutput]
    split
    · rfl
    · dsimp only
      split <;> rfl
  rw [sendRest]
  split
  · exact .ofSame happend
  · exact .ofSame happend

/-- `sendFileInLoop` leaves every byte of the file to `handleWrite`. -/
theorem mute_sendFileInLoop (filePath : Bytes) (env : Env) :
    w.Mute (w.sendFileInLoop filePath env) := by
  rw [sendFileInLoop]
  split
  · exact .refl w
  · refine (mute_note (e := .taken (.file filePath)) (by simp)).trans ?_
    generalize w.note (.taken (.file filePath)) = v
    dsimp only
    split
    · exact mute_forceCloseInLoop
    · rename_i fd _
      have hclosed : v.Mute { v.openFile filePath fd with
          files := (v.openFile filePath fd).files.free fd } := mute_openFile (w := v) filePath fd
      exact hclosed.trans mute_forceCloseInLoop
    · rename_i fd _
      exact mute_openFile (w := v) filePath fd

/-- `send` accepts the message and leaves it to `sendInLoop`. -/
theorem mute_send (inThread : Bool) (data : Bytes) : w.Mute (w.send inThread data) := by
  rw [send]
  split
  · exact .refl w
  · exact (mute_note (by simp)).trans (mute_runInLoop inThread _)

/-- No call of the user writes anything by itself. -/
theorem mute_call (inThread : Bool) (c : ConnCall) : w.Mute (w.call inThread c) := by
  cases c with
  | send data => exact mute_send inThread data
  | sendFile filePath =>
    rw [call, sendFile]
    split
    · exact .refl w
    · exact (mute_note (by simp)).trans (mute_runInLoop inThread _)
  | shutdown =>
    rw [call, shutdown]
    split
    · exact (mute_note (w := w.setState .kDisConnecting) (by simp)).trans
        (mute_runInLoop inThread _)
    · exact .refl w
  | forceClose =>
    rw [call, forceClose]
    split
    · exact mute_runInLoop (w := w.setState .kDisConnecting) inThread _
    · exact .refl w
  | sendWithRetransmit data seq => exact mute_runInLoop inThread _
  | ackReceived seq => exact mute_runInLoop inThread _

/-- A timeout has `sendInLoop` run next, or gives the number up. -/
theorem mute_onRetransmitTimeout (seq : Nat) : w.Mute (w.onRetransmitTimeout seq) := by
  rw [onRetransmitTimeout]
  split
  · exact .refl w
  · rename_i node _
    split
    · exact mute_forceCloseInLoop (w := { w with
        conn.pendingRetrans := w.conn.pendingRetrans.erase seq })
    · dsimp only
      split
      · exact .ofSame rfl
      · exact mute_note (w := w.push _) (e := .accepted (.message node.entry.data)) (by simp)

/-- Behind its `send` the lambda makes an entry. -/
theorem mute_sendFuncEnd (data : Bytes) (seq : Nat) (env : Env) :
    w.Mute (w.sendFuncEnd data seq env) := by
  obtain ⟨queue, pendingRetrans, nextNode, h⟩ := w.sendFuncEnd_frame data seq env
  rw [h]
  exact .ofSame rfl

/-- An ack takes an entry away. -/
theorem mute_ackReceived (seq : Nat) : w.Mute (w.ackReceived seq) := by
  obtain ⟨queue, pendingRetrans, h⟩ := w.ackReceived_frame seq
  rw [h]
  exact .ofSame rfl

/-- Behind its `sendInLoop` a timeout counts a retry and arms a timer. -/
theorem mute_onRetransmitTimeoutEnd (seq node : Nat) (env : Env) :
    w.Mute (w.onRetransmitTimeoutEnd seq node env) := by
  obtain ⟨queue, pendingRetrans, dangling, h⟩ := w.onRetransmitTimeoutEnd_frame seq node env
  rw [h]
  exact .ofSame rfl

/-- A read tells of a message, or of the close. -/
theorem mute_handleRead (env : Env) : w.Mute (w.handleRead env) := by
  rw [handleRead]
  split
  · exact mute_handleClose
  · rename_i data _ _
    have hread : w.Mute { w with conn.readBuffer := w.conn.readBuffer.readFd data } := .ofSame rfl
    exact hread.trans ((mute_resetIdleTimer env).trans (mute_invoke (by simp)))
  · exact .refl w
  · exact mute_handleClose

/-- The timer queue has functors run next. -/
theorem mute_handleTimers (h : w.handleTimers = some w') : w.Mute w' := by
  rw [handleTimers] at h
  split at h
  · contradiction
  · obtain ⟨timers, -, rfl⟩ := Option.map_eq_some_iff.mp h
    exact .ofSame rfl
  · obtain ⟨timers, -, rfl⟩ := Option.map_eq_some_iff.mp h
    exact .ofSame rfl
  · obtain ⟨timers, -, rfl⟩ := Option.map_eq_some_iff.mp h
    exact .ofSame rfl

/-! ## Transitions that may tell of one -/

/-- The callback is invoked at the end of a transition or not at all; it is invoked with bytes in
the buffer exactly behind a partial write. -/
inductive Reports (w w' : TcpLoop) (partly : Prop) : Prop
  | mute (hmute : w.Mute w') (hwhole : ¬partly)
  | told {u} (hmute : w.Mute u) (hsame : w' = u.invoke .writeComplete) (htodo : u.todo = none)
      (hbuffer : partly ↔ u.view.buffered ≠ [])

/-- A mute transition may stand before one that tells of a complete write. -/
theorem Mute.reports {partly : Prop} (h : w.Mute v) (h' : v.Reports w' partly) :
    w.Reports w' partly := by
  cases h' with
  | mute hmute hwhole => exact .mute (h.trans hmute) hwhole
  | told hmute hsame htodo hbuffer => exact .told (h.trans hmute) hsame htodo hbuffer

/-- The condition of a partial write may be put in other words. -/
theorem Reports.congr {partly partly' : Prop} (h : w.Reports w' partly) (hp : partly ↔ partly') :
    w.Reports w' partly' := by
  cases h with
  | mute hmute hwhole => exact .mute hmute (fun hpartly => hwhole (hp.mpr hpartly))
  | told hmute hsame htodo hbuffer => exact .told hmute hsame htodo (hp.symm.trans hbuffer)

/-- `sendInLoop` invokes the callback when `::write` has taken its whole message. -/
theorem reports_sendInLoop (htodo : w.todo = none) (data : Bytes) (env : Env) :
    w.Reports (w.sendInLoop data env) False := by
  rw [sendInLoop]
  split
  · exact .mute (.refl w) not_false
  · refine (mute_note (e := .taken (.message data)) (by simp)).reports ?_
    have htodo : (w.note (.taken (.message data))).todo = none := htodo
    generalize w.note (.taken (.message data)) = v at htodo ⊢
    dsimp only
    split
    · rename_i hidle
      have hbuffered : v.view.buffered = [] := by
        rw [Bool.and_eq_true, beq_iff_eq] at hidle
        exact buffered_eq_nil.mpr hidle.2
      split
      · rename_i n _
        have hwrote : v.Mute (v.note (.wrote (data.take n))) := mute_note (by simp)
        split
        · refine .told hwrote rfl htodo ?_
          rw [view_note rfl]
          simp [hbuffered]
        · exact .mute (hwrote.trans (mute_sendRest _)) not_false
      · exact .mute (mute_sendRest _) not_false
      · exact .mute (mute_sendRest _) not_false
    · exact .mute (mute_sendRest _) not_false

/-- Among the functors only `sendInLoop` invokes the callback, and never behind a part. -/
theorem reports_run (htodo : w.todo = none) (env : Env) (f : Functor) :
    w.Reports (w.run env f) False := by
  cases f with
  | connectEstablelished => exact .mute (mute_connectEstablelished env) not_false
  | connectDestroyed => exact .mute mute_connectDestroyed not_false
  | sendInLoop data => exact reports_sendInLoop htodo data env
  | sendFileInLoop filePath => exact .mute (mute_sendFileInLoop filePath env) not_false
  | shutdownInLoop => exact .mute mute_shutdownInLoop not_false
  | forceCloseInLoop => exact .mute mute_forceCloseInLoop not_false
  | sendFunc data seq =>
    exact .mute (mute_send (w := w.push (.sendFunc data seq)) true data) not_false
  | ackReceived seq => exact .mute (mute_ackReceived seq) not_false
  | onIdleTimeout => exact .mute mute_forceCloseInLoop not_false
  | onRetransmitTimeout seq => exact .mute (mute_onRetransmitTimeout seq) not_false
  | user => exact .mute (.ofSame rfl) not_false

/-- The end of a file is told with the buffer empty and no byte of the file left. -/
theorem reports_sendfile (htodo : w.todo = none) (n : Nat) (hbuffered : w.view.buffered = []) :
    w.Reports (w.sendfile n) False := by
  rw [sendfile]
  generalize w.unsent.take (min n chunkSize) = sent
  dsimp only
  split
  · exact .mute (.refl w) not_false
  · have hsent : w.Mute ({ w with conn.fileSentOffset := w.conn.fileSentOffset + sent.length }.note
        (.sentFile sent)) :=
      mute_note (w := { w with conn.fileSentOffset := w.conn.fileSentOffset + sent.length })
        (by simp)
    have hbuffered : ({ w with conn.fileSentOffset := w.conn.fileSentOffset + sent.length }.note
        (.sentFile sent)).view.buffered = [] := hbuffered
    have htodo : ({ w with conn.fileSentOffset := w.conn.fileSentOffset + sent.length }.note
        (.sentFile sent)).view.todo = none := htodo
    generalize { w with conn.fileSentOffset := w.conn.fileSentOffset + sent.length }.note
      (.sentFile sent) = v at hsent hbuffered htodo ⊢
    split
    · have hdrop : v.Mute v.dropFile.disableWriting := mute_dropFile (w := v)
      refine .told (hsent.trans hdrop) rfl ((congrArg View.todo view_dropFile).trans htodo) ?_
      rw [view_disableWriting, view_dropFile]
      simp [hbuffered]
    · exact .mute hsent not_false

/-- The last block of `handleWrite` finds nothing in the buffer. -/
theorem reports_handleWriteFile (htodo : w.todo = none) (env : Env)
    (hbuffered : w.view.buffered = []) :
    w.Reports (w.handleWriteFile env) False := by
  rw [handleWriteFile]
  split
  · split
    · exact reports_sendfile htodo _ hbuffered
    · exact .mute (.refl w) not_false
    · have hdrop : w.Mute w.dropFile.disableWriting := mute_dropFile (w := w)
      exact .mute (hdrop.trans mute_handleClose) not_false
  · rw [handleWriteBuffer, if_neg (by rw [buffered_eq_nil.mp hbuffered]; omega)]
    exact .mute (.refl w) not_false

/-- Behind its first callback `handleWrite` goes on with the file. -/
theorem reports_handleWriteRest (htodo : w.todo = none) (env : Env) :
    w.Reports (w.handleWriteRest env) False := by
  rw [handleWriteRest]
  split
  · exact .mute (.refl w) not_false
  · exact reports_handleWriteFile htodo env (buffered_eq_nil.mpr (by omega))

/-- The buffer keeps bytes exactly if `::write` takes fewer than there are. -/
theorem buffered_ne_nil_writeFd (n : Nat) :
    (w.writeFd n).view.buffered ≠ [] ↔ n < w.conn.writeBuffer.readableBytes := by
  rw [view_writeFd, ← Buffer.length_readable]
  change w.conn.writeBuffer.readable.drop n ≠ [] ↔ _
  rw [ne_eq, List.drop_eq_nil_iff]
  omega

/-- `handleWrite` invokes the callback behind a part when `::write` takes some bytes and leaves
others. -/
theorem reports_handleWrite (htodo : w.todo = none) (env : Env) :
    w.Reports (w.handleWrite env) (w.conn.channel.isWriting = true ∧
      ∃ n, w.ioResult env.write = .done n ∧ 0 < n ∧ n < w.conn.writeBuffer.readableBytes) := by
  rw [handleWrite]
  split
  · rename_i hwriting
    refine .mute (.refl w) fun hpartly => ?_
    simp [hpartly.1] at hwriting
  · rename_i hwriting
    have hwriting : w.conn.channel.isWriting = true := by simpa using hwriting
    have hbuffer := writeBuffer_resetIdleTimer (w := w) env
    have hio := ioResult_resetIdleTimer (w := w) env env.write
    have htodo : (w.resetIdleTimer env).todo = none :=
      (congrArg View.todo (view_resetIdleTimer env)).trans htodo
    refine (mute_resetIdleTimer env).reports ?_
    generalize w.resetIdleTimer env = v at hbuffer hio htodo ⊢
    rw [← hbuffer, ← hio]
    dsimp only
    split
    · rename_i hbuffered
      have hpush : v.Mute (v.push .handleWrite) := .ofSame rfl
      refine hpush.reports ?_
      change (v.push .handleWrite).Reports _ (_ ∧ ∃ n, (v.push .handleWrite).ioResult _ = _ ∧ _ ∧
        n < (v.push .handleWrite).conn.writeBuffer.readableBytes)
      have htodo : (v.push .handleWrite).todo = none := htodo
      generalize v.push .handleWrite = v at htodo ⊢
      split
      · rename_i n hwrite
        have hwrote : v.Mute (v.writeFd (n + 1)) :=
          mute_note (w := { v with conn.writeBuffer := v.conn.writeBuffer.retrieve (n + 1) })
            (by simp)
        have hpartly : (w.conn.channel.isWriting = true ∧ ∃ m, v.ioResult env.write = .done m ∧
            0 < m ∧ m < v.conn.writeBuffer.readableBytes) ↔
            (v.writeFd (n + 1)).view.buffered ≠ [] := by
          rw [buffered_ne_nil_writeFd, hwrite]
          constructor
          · rintro ⟨-, m, hm, -, hlt⟩
            obtain rfl := IoResult.done.inj hm
            exact hlt
          · exact fun hlt => ⟨hwriting, n + 1, rfl, n.succ_pos, hlt⟩
        have htodo : (v.writeFd (n + 1)).todo = none := htodo
        generalize v.writeFd (n + 1) = u at hwrote hpartly htodo ⊢
        split
        · have hdisable : u.Mute u.disableWriting := .ofSame rfl
          refine .told (hwrote.trans hdisable) rfl htodo ?_
          rw [view_disableWriting]
          exact hpartly
        · exact .told hwrote rfl htodo hpartly
      · rename_i hwrite
        exact .mute (.refl v) (by simp [hwrite])
      · rename_i hwrite
        exact .mute mute_handleClose (by simp [hwrite])
      · rename_i hwrite
        exact .mute mute_handleClose (by simp [hwrite])
    · rename_i hbuffered
      refine (reports_handleWriteFile htodo env (buffered_eq_nil.mpr (by omega))).congr ?_
      constructor
      · exact False.elim
      · rintro ⟨-, n, -, -, hlt⟩
        omega

/-- Of the four tests of `handleEvent` only the last one may tell of a part. -/
theorem reports_handleEvent {env : Env} {stage : EventStage} {rest : List Frame}
    (htodo : w.todo = none) (hstack : w.stack = .handleEvent stage :: rest) :
    w.Reports ({ w with stack := rest }.handleEvent env stage)
      (w.writesPart (.resume env) = true) := by
  have hpop : w.Mute { w with stack := rest } := .ofSame rfl
  have hother (hstage : stage ≠ .write) : ¬w.writesPart (.resume env) = true := by
    simp [writesPart, hstack, hstage]
  cases stage with
  | error =>
    have hpush : w.Mute ({ w with stack := rest }.push (.handleEvent .read)) := .ofSame rfl
    simp only [handleEvent]
    split
    · exact .mute (hpush.trans mute_handleClose) (hother (by simp))
    · exact .mute hpush (hother (by simp))
  | read =>
    have hpush : w.Mute ({ w with stack := rest }.push (.handleEvent .hup)) := .ofSame rfl
    simp only [handleEvent]
    split
    · exact .mute (hpush.trans (mute_handleRead env)) (hother (by simp))
    · exact .mute hpush (hother (by simp))
  | hup =>
    have hpush : w.Mute ({ w with stack := rest }.push (.handleEvent .write)) := .ofSame rfl
    simp only [handleEvent]
    split
    · exact .mute (hpush.trans mute_handleClose) (hother (by simp))
    · exact .mute hpush (hother (by simp))
  | write =>
    simp only [handleEvent]
    split
    · rename_i hrevents
      have hrevents : w.conn.channel.revents.epollout = true := hrevents
      refine hpop.reports ((reports_handleWrite (w := { w with stack := rest }) htodo env).congr ?_)
      change (w.conn.channel.isWriting = true ∧ ∃ n, w.ioResult env.write = .done n ∧ 0 < n ∧
        n < w.conn.writeBuffer.readableBytes) ↔ _
      simp only [writesPart, hstack, hrevents]
      cases w.ioResult env.write with
      | done n => simp
      | again => simp
      | error => simp
    · rename_i hrevents
      have hrevents : ¬w.conn.channel.revents.epollout = true := hrevents
      exact .mute hpop (by simp [writesPart, hrevents])

/-- Code that goes on tells of a part only where it goes on with the write test. -/
theorem reports_resumeFrame {env : Env} {frame : Frame} {rest : List Frame}
    (htodo : w.todo = none) (hstack : w.stack = frame :: rest)
    (h : { w with stack := rest }.resumeFrame env frame = some w') :
    w.Reports w' (w.writesPart (.resume env) = true) := by
  have hpop : w.Mute { w with stack := rest } := .ofSame rfl
  have hother (hframe : ∀ stage, frame ≠ .handleEvent stage) :
      False ↔ w.writesPart (.resume env) = true := by
    simp [writesPart, hstack, hframe]
  cases frame with
  | user cb => contradiction
  | handleEvent stage =>
    obtain rfl := Option.some.inj h
    exact reports_handleEvent htodo hstack
  | handleWrite =>
    obtain rfl := Option.some.inj h
    exact (hpop.reports (reports_handleWriteRest (w := { w with stack := rest }) htodo env)).congr
      (hother (by simp))
  | handleWriteEnd =>
    obtain rfl := Option.some.inj h
    refine .mute ?_ (hother (by simp)).mpr
    rw [handleWriteEnd]
    split
    · exact .ofSame rfl
    · exact hpop
  | sendFunc data seq =>
    obtain rfl := Option.some.inj h
    exact .mute (hpop.trans (mute_sendFuncEnd data seq env)) (hother (by simp)).mpr
  | onRetransmitTimeout seq node =>
    obtain rfl := Option.some.inj h
    exact .mute (hpop.trans (mute_onRetransmitTimeoutEnd seq node env)) (hother (by simp)).mpr
  | timerQueue => exact .mute (hpop.trans (mute_handleTimers h)) (hother (by simp)).mpr

/-- A step tells of a complete write with output left exactly where `writesPart` says so. -/
theorem reports_of_step {a : Action} (h : w.step a = some w') :
    w.Reports w' (w.writesPart a = true) := by
  cases stepped_of_step h with
  | run htodo henv =>
    have hclear : w.Mute w.clearTodo := .ofSame rfl
    exact (hclear.reports (reports_run rfl _ _)).congr (by simp [writesPart])
  | resume htodo hstack henv hframe => exact reports_resumeFrame htodo hstack hframe
  | call huser => exact .mute (mute_call true _) (by simp [writesPart])
  | callElsewhere => exact .mute (mute_call false _) (by simp [writesPart])
  | poll hidle hfunc hready hsame =>
    obtain rfl | rfl := hsame
    · exact .mute (.ofSame rfl) (by simp [writesPart])
    · exact .mute (.ofSame rfl) (by simp [writesPart])
  | _ => exact .mute (.ofSame rfl) (by simp [writesPart])

end TcpLoop

/-! ## What the kernel has not been given -/

namespace View

/-- What has been written and what is buffered are the messages that the loop has taken. -/
def Lined (v : View) : Prop :=
  ¬v.closed → wrote v.trace ++ v.buffered = messageBytes (taken v.trace)

variable {v v' : View}

/-- A step that takes no message. -/
theorem Lined.same (h : v.Lined) (hclosed : v.closed → v'.closed)
    (hline : wrote v'.trace ++ v'.buffered = wrote v.trace ++ v.buffered)
    (htaken : messageBytes (taken v'.trace) = messageBytes (taken v.trace)) : v'.Lined := by
  intro hopen
  rw [hline, htaken, h fun hc => hopen (hclosed hc)]

/-- Of a connection that is closed nothing is asked. -/
theorem Lined.ofClosed (hclosed : v.closed) : v.Lined := fun hopen => absurd hclosed hopen

/-- Bytes that move from the buffer or the file to the kernel stay in line. -/
theorem Lined.flow (h : v.Lined) (hf : Flow v v') : v'.Lined := by
  cases hf with
  | quiet => exact h
  | drain hbuffered hb =>
    refine h.same id ?_ ?_
    · simp [wrote_concat, Event.wroteBytes, hbuffered]
    · simp [taken_concat, Event.taken?]
  | transfer hbuffered hunsent hb =>
    refine h.same id ?_ ?_
    · simp [wrote_concat, Event.wroteBytes]
    · simp [taken_concat, Event.taken?]
  | close hu hc => exact .ofClosed (TcpLoop.closed_of_closes hc)

end View

namespace TcpLoop

variable {w w' : TcpLoop}

/-- Every step keeps what was taken in line with what is written, buffered and unsent. -/
theorem lined_effect {a : Action} {v : View} (h : w.view.Lined) (he : Effect w a v) : v.Lined := by
  cases he with
  | flow htodo hflow => exact h.flow hflow
  | queueOutput hf hstate =>
    refine h.same id ?_ ?_
    · simp [wrote_concat, Event.wroteBytes]
    · simp [taken_concat, Event.taken?]
  | accept ho hf htodo hstate hfile =>
    refine h.same id ?_ ?_
    · simp [wrote_concat, Event.wroteBytes]
    · simp [taken_concat, Event.taken?]
  | disconnect hf hcloses hstate hes hplace =>
    have hclosed (hc : w.view.closed) : w.aborted = true := by
      rcases hc with hs | ha
      · rw [view_state] at hs
        simp [hs] at hstate
      · exact ha
    rcases hes with rfl | rfl
    · refine h.same (fun hc => .inr (hclosed hc)) ?_ ?_
      · simp
      · simp
    · refine h.same (fun hc => .inr (hclosed hc)) ?_ ?_
      · simp [wrote_concat, Event.wroteBytes]
      · simp [taken_concat, Event.taken?]
  | establish htodo hstate =>
    refine h.same (fun hc => ?_) rfl rfl
    rcases hc with hs | ha
    · rw [view_state, hstate] at hs
      contradiction
    · exact .inr ha
  | abort htodo => exact .ofClosed (.inr rfl)
  | destroy htodo hstate => exact .ofClosed (.inl rfl)
  | close es hes hc => exact .ofClosed (closed_of_closes hc)
  | write hd tl htodo hstate hwriting hbuffered hnext =>
    intro hopen
    have hline := h hopen
    rw [hbuffered, List.append_nil] at hline
    rw [wrote_concat, wrote_concat, taken_concat, taken_concat, hbuffered, hline]
    simp [Event.wroteBytes, Event.taken?]
  | append htodo hstate hnext =>
    intro hopen
    have hline := h hopen
    simp only [wrote_concat, taken_concat, Event.wroteBytes, Event.taken?, List.append_nil,
      Option.toList_some, messageBytes_append, messageBytes_message, ← hline, List.append_assoc]
  | lose htodo hstate =>
    refine h.same id ?_ ?_
    · simp [wrote_concat, Event.wroteBytes]
    · simp [taken_concat, Event.taken?]
  | openFile htodo hopened hstate =>
    refine h.same id ?_ ?_
    · simp [wrote_concat, Event.wroteBytes]
    · simp [taken_concat, Event.taken?]
  | shutdownWriting htodo hwriting =>
    refine h.same id ?_ ?_
    · simp [wrote_concat, Event.wroteBytes]
    · simp [taken_concat, Event.taken?]
  | shutdown htodo hwriting hc => exact .ofClosed (closed_of_closes hc)
  | _ => exact h

/-! ## Runs -/

/-- Where the messages are what has been written and what is buffered, as long as nothing is to be
run, the callback tells of drained output exactly if every write takes the whole buffer. -/
theorem drainedAtComplete_iff {s : TcpLoop} {guard : TcpLoop → Action → Prop} {as : List Action}
    {outputs : List Event → List Output} (hrun : Run step guard s as w) (hopen : ¬w.view.closed)
    (hstart : s.view.Sound) (hempty : s.trace = [])
    (hcalls : ∀ trace cb, outputs (trace ++ [.invoked cb]) = outputs trace)
    (hline : ∀ {bs v}, Run step guard s bs v → ¬v.view.closed → v.todo = none →
      wrote v.trace ++ v.conn.writeBuffer.readable = messageBytes (outputs v.trace)) :
    DrainedAtComplete outputs w.trace ↔ Run step TakesAll s as w := by
  have hsound : ∀ {bs v}, Run step guard s bs v → v.view.Sound := by
    intro bs v h
    refine h.invariant (I := fun v => v.view.Sound) hstart fun t a u ht _ hstep => ?_
    exact sound_effect ht (effect_of_step ht.sized hstep)
  induction hrun with
  | nil =>
    rw [hempty]
    exact iff_of_true atEvery_nil .nil
  | @snoc as v a u hbefore hguard hstep ih =>
    have hv : ¬v.view.closed := fun hc => hopen (closed_of_step (hsound hbefore).sized hc hstep)
    have hmute {t : TcpLoop} (hm : v.Mute t) :
        DrainedAtComplete outputs t.trace ↔ DrainedAtComplete outputs v.trace := by
      obtain ⟨es, htrace, hes⟩ := hm
      rw [DrainedAtComplete, htrace]
      exact atEvery_append fun log e he heq => absurd (heq ▸ he) hes
    have hbefore_iff : DrainedAtComplete outputs v.trace ↔ Run step TakesAll s as v := ih hv
    rw [hbefore.snoc_iff hstep, ← hbefore_iff]
    cases reports_of_step hstep with
    | mute hm hwhole =>
      exact (hmute hm).trans (and_iff_left fun _ => Bool.eq_false_iff.mpr hwhole).symm
    | @told t hm hsame htodo hbuffer =>
      have hcb : t.conn.callbacks = v.conn.callbacks := by
        rw [← callbacks_of_step hstep, hsame, TcpLoop.invoke]
        split <;> rfl
      have hview : u.view = t.view := by rw [hsame, view_invoke]
      by_cases hinstalled : t.conn.callbacks .writeComplete = true
      · have htrace : u.trace = t.trace ++ [.invoked .writeComplete] := by
          rw [hsame, TcpLoop.invoke, if_pos hinstalled]
          rfl
        have htodo : u.todo = none := (congrArg View.todo hview).trans htodo
        have hunsent : wrote t.trace ++ t.view.buffered = messageBytes (outputs t.trace) := by
          have h := hline (hbefore.snoc hguard hstep) hopen htodo
          have hnone : (Event.invoked .writeComplete).wroteBytes = [] := rfl
          rw [htrace, wrote_concat, hcalls, hnone, List.append_nil] at h
          rw [← hview]
          exact h
        rw [DrainedAtComplete, htrace, atEvery_concat, ← DrainedAtComplete, hmute hm]
        refine and_congr_right fun _ => ?_
        rw [← hunsent]
        constructor
        · intro h _
          have hnil : t.view.buffered = [] :=
            List.append_cancel_left (by rw [← h rfl, List.append_nil])
          by_contra hpart
          exact (hbuffer.mp (by simpa using hpart)) hnil
        · intro h _
          have hnil : t.view.buffered = [] := by
            by_contra hne
            have hpart := hbuffer.mpr hne
            rw [h (hcb ▸ hinstalled)] at hpart
            contradiction
          rw [hnil, List.append_nil]
      · have htrace : u.trace = t.trace := by rw [hsame, TcpLoop.invoke, if_neg hinstalled]
        rw [htrace, hmute hm]
        refine (and_iff_left fun h => ?_).symm
        exact absurd (hcb ▸ h) hinstalled

/-- So it is in every state of a run. -/
theorem lined_of_run {fd : Nat} {callbacks : Callback → Bool} {disk : Bytes → Bytes}
    {as : List Action} (h : Run step anyStep (start fd callbacks disk) as w) : w.view.Lined := by
  refine (h.invariant (I := fun w => w.view.Sound ∧ w.view.Lined) ?_ ?_).2
  · exact ⟨sound_start fd callbacks disk, fun _ => rfl⟩
  · rintro t a u ⟨hsound, hlined⟩ - hstep
    have he := effect_of_step hsound.sized hstep
    exact ⟨sound_effect hsound he, lined_effect hlined he⟩

/-- As long as the connection is open, the write-complete callback was invoked only when all
messages that the loop had taken were handed to the kernel, exactly if no `::write` of an event took
a part of the buffer. If no other thread sends, all messages that were accepted had been taken. -/
theorem drainedAtComplete_iff_of_run {fd : Nat} {callbacks : Callback → Bool}
    {disk : Bytes → Bytes} {as : List Action}
    (hrun : Run step anyStep (start fd callbacks disk) as w) (hopen : w.IsOpen) :
    (DrainedAtComplete taken w.trace ↔ Run step TakesAll (start fd callbacks disk) as w) ∧
    ((∀ data, .callElsewhere (.send data) ∉ as) →
      (DrainedAtComplete accepted w.trace ↔
        Run step TakesAll (start fd callbacks disk) as w)) := by
  constructor
  · refine drainedAtComplete_iff hrun hopen.not_closed (sound_start fd callbacks disk) rfl
      (fun trace cb => ?_) fun {bs v} hv hlive _ => ?_
    · simp [taken_concat, Event.taken?]
    · have hline := lined_of_run hv hlive
      rw [← wrote_filter, ← taken_filter]
      exact hline
  · intro hsends
    have hown := hrun.restrict (P := fun a => ∀ data, a ≠ .callElsewhere (.send data))
      fun a ha data he => hsends data (he ▸ ha)
    refine drainedAtComplete_iff hown hopen.not_closed (sound_start fd callbacks disk) rfl
      (fun trace cb => ?_) fun {bs v} hv hlive htodo => ?_
    · simp [accepted_concat, Event.accepted?]
    · have hfifo := fifo_of_run hv.toAny fun data hd => hv.labels _ hd data rfl
      have hline := hfifo.line hlive
      have hnone : messageBytes (outputs (none : Option Functor).toList) = [] := rfl
      rw [view_todo, htodo, hnone, List.append_nil] at hline
      rw [← wrote_filter, ← accepted_filter]
      exact hline

/-- One of three bytes is written by `sendInLoop`, and the socket becomes writeable. -/
def writtenByParts (write : IoResult) : List Action :=
  establishing ++ [.call (.send [10, 11, 12]), .run { timer := 2, write := .done 1 }, .ret] ++
  writeable 2 write .again

theorem drainedAtComplete_iff_of_run_writtenByParts :
    ∃ w, Run step anyStep (start 7 (fun _ => true) id) (writtenByParts (.done 2)) w ∧
      calls w.trace = [.connection, .writeComplete] ∧
      (DrainedAtComplete taken w.trace ↔
        Run step TakesAll (start 7 (fun _ => true) id) (writtenByParts (.done 2)) w) ∧
      (DrainedAtComplete accepted w.trace ↔
        Run step TakesAll (start 7 (fun _ => true) id) (writtenByParts (.done 2)) w) := by
  have hreplay : (replay step anyStep (start 7 (fun _ => true) id) (writtenByParts (.done 2))).map
      (fun w => (calls w.trace, w.conn.state, w.aborted)) =
        some ([.connection, .writeComplete], .kConnected, false) := by
    decide +kernel
  obtain ⟨w, hw, he⟩ := Option.map_eq_some_iff.mp hreplay
  obtain ⟨hcalls, hrest⟩ := Prod.mk.inj he
  obtain ⟨hstate, hlive⟩ := Prod.mk.inj hrest
  have hsends : ∀ data, .callElsewhere (.send data) ∉ writtenByParts (.done 2) := by
    simp [writtenByParts, establishing, writeable]
  obtain ⟨htaken, haccepted⟩ :=
    drainedAtComplete_iff_of_run (.of_replay hw) ⟨.inl hstate, hlive⟩
  exact ⟨w, .of_replay hw, hcalls, htaken, haccepted hsends⟩

/-- When the socket takes one of the two bytes left, the callback is invoked all the same. -/
theorem complete_with_buffered :
    ∃ w, Run step anyStep (start 7 (fun _ => true) id) (writtenByParts (.done 1)) w ∧ w.IsOpen ∧
      w.conn.writeBuffer.readable = [12] ∧ ¬DrainedAtComplete taken w.trace ∧
      ¬DrainedAtComplete accepted w.trace := by
  have hreplay : (replay step anyStep (start 7 (fun _ => true) id) (writtenByParts (.done 1))).map
      (fun w => (w.trace, w.conn.writeBuffer.readable, w.conn.state, w.aborted)) =
        some ([.invoked .connection, .accepted (.message [10, 11, 12]),
          .taken (.message [10, 11, 12]), .wrote [10], .wrote [11]] ++
            .invoked .writeComplete :: [], [12], .kConnected, false) := by
    decide +kernel
  obtain ⟨w, hw, he⟩ := Option.map_eq_some_iff.mp hreplay
  obtain ⟨htrace, hrest⟩ := Prod.mk.inj he
  obtain ⟨hreadable, hrest⟩ := Prod.mk.inj hrest
  obtain ⟨hstate, hlive⟩ := Prod.mk.inj hrest
  refine ⟨w, .of_replay hw, ⟨.inl hstate, hlive⟩, hreadable, fun h => ?_, fun h => ?_⟩
  · exact absurd (h _ _ _ htrace rfl) (by decide)
  · exact absurd (h _ _ _ htrace rfl) (by decide)

end TcpLoop

end ClearMoon.Tcp

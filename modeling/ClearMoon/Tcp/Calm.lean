import ClearMoon.Tcp.Queues
import ClearMoon.Tcp.Interest

/-!
# What has nothing to do with timers

Most functions of a connection leave the entries of `pendingRetrans_` alone, or close the connection
and drop them all. They push frames for user code and for themselves, and run nothing next that
comes from a timer or the loop. A `Calm` transition is one of this kind; calm transitions compose.
-/

namespace ClearMoon.Tcp

open ClearMoon.Net ClearMoon.Timer

/-- A functor that is not about retransmission. -/
def Functor.neutral : Functor → Bool
  | sendFunc _ _ | onRetransmitTimeout _ => false
  | _ => true

/-- What the code of a connection has the loop thread run next. -/
def Functor.inner : Functor → Bool
  | sendInLoop _ | sendFileInLoop _ | shutdownInLoop | forceCloseInLoop | ackReceived _ => true
  | _ => false

/-- A frame of user code or of `handleWrite`. -/
def Frame.inner : Frame → Bool
  | user _ | handleWrite | handleWriteEnd => true
  | _ => false

namespace TcpLoop

variable {w v w' : TcpLoop}

/-- What `poll` has reported, and whether the loop is still at it. -/
def polled (w : TcpLoop) : Bool × List Source := (w.eventHanding, w.activeChannels)

/-- The batch in progress and the clock. -/
def timing (w : TcpLoop) : Option Batch × Int := (w.timers.batch, w.timers.clock)

/-- The entries are left alone or dropped with the connection, and what is run or on the stack
besides is not about them. -/
structure Calm (w w' : TcpLoop) : Prop where
  stack : ∃ fs, w'.stack = fs ++ w.stack ∧ ∀ f ∈ fs, f.inner = true
  todo : ∀ f ∈ w'.todo, f ∈ w.todo ∨ f.inner = true
  polled : w'.polled = w.polled
  timing : w'.timing = w.timing
  closed : w.conn.state = .kDisConnected → w'.conn.state = .kDisConnected
  pending : w'.conn.pendingRetrans = w.conn.pendingRetrans ∨
    w'.conn.pendingRetrans = ∅ ∧ w'.conn.state = .kDisConnected

/-- None of this is touched. -/
theorem Calm.ofSame (hstack : w'.stack = w.stack) (htodo : w'.todo = w.todo)
    (hpolled : w'.polled = w.polled) (htiming : w'.timing = w.timing)
    (hclosed : w.conn.state = .kDisConnected → w'.conn.state = .kDisConnected)
    (hpending : w'.conn.pendingRetrans = w.conn.pendingRetrans) : w.Calm w' where
  stack := ⟨[], hstack, nofun⟩
  todo _ hf := .inl (htodo ▸ hf)
  polled := hpolled
  timing := htiming
  closed := hclosed
  pending := .inl hpending

theorem Calm.refl (w : TcpLoop) : w.Calm w := .ofSame rfl rfl rfl rfl id rfl

/-- Two calm transitions in a row are one. -/
theorem Calm.trans (h : w.Calm v) (h' : v.Calm w') : w.Calm w' where
  stack := by
    obtain ⟨fs, hfs, hinner⟩ := h.stack
    obtain ⟨gs, hgs, hinner'⟩ := h'.stack
    refine ⟨gs ++ fs, by rw [hgs, hfs, List.append_assoc], fun f hf => ?_⟩
    exact (List.mem_append.mp hf).elim (hinner' f) (hinner f)
  todo f hf := (h'.todo f hf).elim (h.todo f) .inr
  polled := h'.polled.trans h.polled
  timing := h'.timing.trans h.timing
  closed hs := h'.closed (h.closed hs)
  pending := by
    rcases h'.pending with hsame | hdropped
    · rcases h.pending with hsame' | ⟨hnone, hs⟩
      · exact .inl (hsame.trans hsame')
      · exact .inr ⟨hsame.trans hnone, h'.closed hs⟩
    · exact .inr hdropped

theorem calm_note (e : Event) : w.Calm (w.note e) := .ofSame rfl rfl rfl rfl id rfl

/-- The frames that are pushed are of user code or of `handleWrite`. -/
theorem calm_push {frame : Frame} (h : frame.inner = true) : w.Calm (w.push frame) where
  stack := ⟨[frame], rfl, by simpa using h⟩
  todo f hf := .inl hf
  polled := rfl
  timing := rfl
  closed := id
  pending := .inl rfl

theorem calm_invoke (cb : Callback) : w.Calm (w.invoke cb) := by
  rw [invoke]
  split
  · exact (calm_note _).trans (calm_push rfl)
  · exact .refl w

/-- What is run next, or queued, has not come from a timer. -/
theorem calm_runInLoop {f : Functor} (hf : f.inner = true) (inThread : Bool) :
    w.Calm (w.runInLoop inThread f) := by
  cases inThread with
  | false => exact .ofSame rfl rfl rfl rfl id rfl
  | true =>
    refine ⟨⟨[], rfl, nofun⟩, fun g hg => .inr ?_, rfl, rfl, id, .inl rfl⟩
    obtain rfl := Option.some.inj hg
    exact hf

/-! ## Timers and files -/

/-- The idle timer concerns no entry. -/
theorem calm_resetIdleTimer (env : Env) : w.Calm (w.resetIdleTimer env) := by
  obtain ⟨queue, id, h⟩ := w.resetIdleTimer_frame env
  rw [h]
  exact .ofSame rfl rfl rfl rfl (fun hs => hs) rfl

theorem calm_dropFile : w.Calm w.dropFile := by
  obtain ⟨files, h⟩ := w.closeFile_frame
  rw [dropFile, h]
  exact .ofSame rfl rfl rfl rfl id rfl

theorem calm_openFile (filePath : Bytes) (fd : Addr) : w.Calm (w.openFile filePath fd) := by
  rw [openFile]
  split
  · exact .ofSame rfl rfl rfl rfl id rfl
  · exact .refl w

/-! ## Closing -/

/-- All entries are dropped, and their timers with the idle timer. -/
theorem clear_frame (w : TcpLoop) : ∃ queue, w.cancelIdleTimer.clearRetrans =
    { w with timers.queue := queue, conn.idleTimerId := none, conn.pendingRetrans := ∅ } := by
  obtain ⟨queue, hcancel⟩ := w.cancel_frame w.conn.idleTimerId
  obtain ⟨queue', hclear⟩ := foldl_cancel_frame w.cancelIdleTimer.conn.pendingRetrans.toList
    w.cancelIdleTimer
  refine ⟨queue', ?_⟩
  rw [clearRetrans, hclear, cancelIdleTimer, hcancel]

/-- The entries are dropped, of a connection that is closed. -/
theorem calm_clear (h : w.conn.state = .kDisConnected) :
    w.Calm w.cancelIdleTimer.clearRetrans := by
  obtain ⟨queue, hclear⟩ := w.clear_frame
  rw [hclear]
  exact ⟨⟨[], rfl, nofun⟩, fun _ hf => .inl hf, rfl, rfl, id, .inr ⟨rfl, h⟩⟩

/-- `handleClose` drops all entries when it has stored the last state. -/
theorem calm_handleClose : w.Calm w.handleClose := by
  have hclosed : w.Calm ({ (w.setState .kDisConnected).removeChannel.dropFile with
      conn.fileSentOffset := 0, conn.fileTotalSize := 0 }.cancelIdleTimer.clearRetrans.invoke
        .close) := by
    have hremoved : w.Calm (w.setState .kDisConnected).removeChannel :=
      .ofSame rfl rfl rfl rfl (fun _ => rfl) rfl
    have hstate : (w.setState .kDisConnected).removeChannel.conn.state = .kDisConnected := rfl
    generalize (w.setState .kDisConnected).removeChannel = v at hremoved hstate ⊢
    have hdropped : v.Calm { v.dropFile with conn.fileSentOffset := 0, conn.fileTotalSize := 0 } :=
      calm_dropFile.trans (.ofSame rfl rfl rfl rfl id rfl)
    exact (hremoved.trans hdropped).trans
      ((calm_clear (hdropped.closed hstate)).trans (calm_invoke _))
  rw [handleClose]
  split
  · exact .refl w
  · exact .ofSame rfl rfl rfl rfl id rfl
  · exact hclosed
  · exact hclosed

theorem calm_forceCloseInLoop : w.Calm w.forceCloseInLoop := by
  rw [forceCloseInLoop]
  split
  · exact calm_handleClose
  · exact .refl w

/-- A shutdown that closes the connection drops its entries too. -/
theorem calm_shutdownInLoop : w.Calm w.shutdownInLoop := by
  have hshut : w.Calm w.shutdownWrite := .ofSame rfl rfl rfl rfl id rfl
  rw [shutdownInLoop]
  split
  · exact hshut.trans calm_handleClose
  · exact hshut

/-- A connection that is established keeps its entries, of which it has none. -/
theorem calm_connectEstablelished (env : Env) : w.Calm (w.connectEstablelished env) := by
  rw [connectEstablelished]
  split
  · exact .ofSame rfl rfl rfl rfl id rfl
  · rename_i hstate
    have hstate : w.conn.state = .kConnecting := not_not.mp hstate
    have hestablished : w.Calm (w.enableReading.setState .kConnected) := by
      refine .ofSame rfl rfl rfl rfl (fun hs => ?_) rfl
      rw [hstate] at hs
      contradiction
    exact hestablished.trans ((calm_resetIdleTimer env).trans (calm_invoke _))

/-- Being established takes a connection from `kConnecting` to `kConnected`. -/
theorem state_connectEstablelished (env : Env) (hstate : w.conn.state = .kConnecting) :
    (w.connectEstablelished env).conn.state = .kConnected := by
  rw [connectEstablelished, if_neg (not_not.mpr hstate)]
  change (((w.enableReading.setState .kConnected).resetIdleTimer env).invoke _).view.state = _
  rw [view_invoke, view_resetIdleTimer]
  rfl

/-! ## Sending -/

theorem calm_appendOutput (rest : Bytes) : w.Calm (w.appendOutput rest) := by
  rw [appendOutput]
  split
  · exact .refl w
  · dsimp only
    split
    · exact .ofSame rfl rfl rfl rfl id rfl
    · exact .ofSame rfl rfl rfl rfl id rfl

/-- What is buffered may queue a shutdown, and touches no entry. -/
theorem calm_sendRest (rest : Bytes) : w.Calm (w.sendRest rest) := by
  rw [sendRest]
  split
  · exact (calm_appendOutput rest).trans (calm_runInLoop rfl true)
  · exact calm_appendOutput rest

/-- Sending touches no entry, whatever `::write` answers. -/
theorem calm_sendInLoop (data : Bytes) (env : Env) : w.Calm (w.sendInLoop data env) := by
  rw [sendInLoop]
  split
  · exact .refl w
  · refine (calm_note (.taken (.message data))).trans ?_
    generalize w.note (.taken (.message data)) = v
    dsimp only
    split
    · split
      · split
        · exact (calm_note _).trans (calm_invoke _)
        · exact (calm_note _).trans (calm_sendRest _)
      · exact calm_sendRest _
      · exact calm_sendRest _
    · exact calm_sendRest _

/-- A file that cannot be opened closes the connection, and drops the entries with it. -/
theorem calm_sendFileInLoop (filePath : Bytes) (env : Env) :
    w.Calm (w.sendFileInLoop filePath env) := by
  rw [sendFileInLoop]
  split
  · exact .refl w
  · refine (calm_note (.taken (.file filePath))).trans ?_
    generalize w.note (.taken (.file filePath)) = v
    dsimp only
    split
    · exact calm_forceCloseInLoop
    · rename_i fd _
      refine (calm_openFile filePath fd).trans ?_
      generalize v.openFile filePath fd = u
      exact Calm.trans (v := { u with files := u.files.free fd }) (.ofSame rfl rfl rfl rfl id rfl)
        calm_forceCloseInLoop
    · rename_i fd _
      exact (calm_openFile filePath fd).trans (.ofSame rfl rfl rfl rfl id rfl)

/-- `send` itself knows nothing of sequence numbers. -/
theorem calm_send (inThread : Bool) (data : Bytes) : w.Calm (w.send inThread data) := by
  rw [send]
  split
  · exact .refl w
  · exact (calm_note _).trans (calm_runInLoop rfl inThread)

/-- A call, unless it is one of `sendWithRetransmit` in the loop thread. -/
theorem calm_call {inThread : Bool} {c : ConnCall}
    (h : inThread = false ∨ c.functor.neutral = true) :
    w.Calm (w.call inThread c) := by
  have hdisconnect {f : Functor} (hf : f.inner = true)
      (hstate : w.conn.state = .kConnected ∨ w.conn.state = .kDisConnecting) :
      w.Calm ((w.setState .kDisConnecting).runInLoop inThread f) := by
    refine Calm.trans (v := w.setState .kDisConnecting) (.ofSame rfl rfl rfl rfl (fun hs => ?_) rfl)
      (calm_runInLoop hf inThread)
    rw [hs] at hstate
    simp at hstate
  cases c with
  | send data => exact calm_send inThread data
  | sendFile filePath =>
    rw [call, sendFile]
    split
    · exact .refl w
    · exact (calm_note _).trans (calm_runInLoop rfl inThread)
  | shutdown =>
    rw [call, shutdown]
    split
    · rename_i hstate
      have := hdisconnect (f := .shutdownInLoop) rfl (.inl hstate)
      cases inThread with
      | false => exact ⟨this.stack, this.todo, rfl, rfl, this.closed, .inl rfl⟩
      | true => exact ⟨this.stack, this.todo, rfl, rfl, this.closed, .inl rfl⟩
    · exact .refl w
  | forceClose =>
    rw [call, forceClose]
    split
    · rename_i hstate
      exact hdisconnect rfl hstate
    · exact .refl w
  | sendWithRetransmit data seq =>
    obtain rfl | hneutral := h
    · exact .ofSame rfl rfl rfl rfl id rfl
    · contradiction
  | ackReceived seq => exact calm_runInLoop rfl inThread

/-! ## Events -/

/-- A read delivers, or closes the connection. -/
theorem calm_handleRead (env : Env) : w.Calm (w.handleRead env) := by
  rw [handleRead]
  split
  · exact calm_handleClose
  · rename_i data _ _
    have hread : w.Calm { w with conn.readBuffer := w.conn.readBuffer.readFd data } :=
      .ofSame rfl rfl rfl rfl id rfl
    exact hread.trans ((calm_resetIdleTimer env).trans (calm_invoke _))
  · exact .refl w
  · exact calm_handleClose

theorem calm_writeFd (n : Nat) : w.Calm (w.writeFd n) := .ofSame rfl rfl rfl rfl id rfl

theorem calm_disableWriting : w.Calm w.disableWriting := .ofSame rfl rfl rfl rfl id rfl

/-- The transfer of a file touches no entry. -/
theorem calm_sendfile (n : Nat) : w.Calm (w.sendfile n) := by
  rw [sendfile]
  generalize w.unsent.take (min n chunkSize) = sent
  dsimp only
  split
  · exact .refl w
  · have hsent : w.Calm ({ w with
        conn.fileSentOffset := w.conn.fileSentOffset + sent.length }.note (.sentFile sent)) :=
      .ofSame rfl rfl rfl rfl id rfl
    split
    · exact (hsent.trans calm_dropFile).trans (calm_disableWriting.trans (calm_invoke _))
    · exact hsent

/-- A `::write` that fails closes the connection. -/
theorem calm_handleWriteBuffer (env : Env) : w.Calm (w.handleWriteBuffer env) := by
  rw [handleWriteBuffer]
  split
  · split
    · rename_i n _
      have hwrote : w.Calm ((w.push .handleWriteEnd).writeFd (n + 1)) :=
        (calm_push rfl).trans (calm_writeFd _)
      refine hwrote.trans (Calm.trans ?_ (calm_invoke _))
      split
      · exact calm_disableWriting
      · exact .refl _
    · exact .refl w
    · exact calm_handleClose
    · exact calm_handleClose
  · exact .refl w

/-- So does a `::sendfile` that fails. -/
theorem calm_handleWriteFile (env : Env) : w.Calm (w.handleWriteFile env) := by
  rw [handleWriteFile]
  split
  · split
    · exact calm_sendfile _
    · exact .refl w
    · exact calm_dropFile.trans (calm_disableWriting.trans calm_handleClose)
  · exact calm_handleWriteBuffer env

/-- What follows the first callback of `handleWrite` is calm as well. -/
theorem calm_handleWriteRest (env : Env) : w.Calm (w.handleWriteRest env) := by
  rw [handleWriteRest]
  split
  · exact .refl w
  · exact calm_handleWriteFile env

/-- `handleWrite` goes on behind its callbacks, for which it leaves frames of its own. -/
theorem calm_handleWrite (env : Env) : w.Calm (w.handleWrite env) := by
  rw [handleWrite]
  split
  · exact .refl w
  · refine (calm_resetIdleTimer env).trans ?_
    generalize w.resetIdleTimer env = v
    dsimp only
    split
    · refine Calm.trans (v := v.push .handleWrite) (calm_push rfl) ?_
      split
      · rename_i n _
        refine (calm_writeFd (n + 1)).trans (Calm.trans ?_ (calm_invoke _))
        split
        · exact calm_disableWriting
        · exact .refl _
      · exact .refl _
      · exact calm_handleClose
      · exact calm_handleClose
    · exact calm_handleWriteFile env

/-- The frame that stays below a test of `Channel::handleEvent`. -/
def next : EventStage → List Frame
  | .error => [.handleEvent .read]
  | .read => [.handleEvent .hup]
  | .hup => [.handleEvent .write]
  | .write => []

/-- Each test of `handleEvent` is calm, and leaves the next one on the stack. -/
theorem calm_handleEvent (env : Env) (stage : EventStage) :
    Calm { w with stack := next stage ++ w.stack } (w.handleEvent env stage) := by
  cases stage with
  | error =>
    rw [handleEvent]
    split
    · exact calm_handleClose
    · exact .refl _
  | read =>
    rw [handleEvent]
    split
    · exact calm_handleRead env
    · exact .refl _
  | hup =>
    rw [handleEvent]
    split
    · exact calm_handleClose
    · exact .refl _
  | write =>
    rw [handleEvent]
    split
    · exact calm_handleWrite env
    · exact .refl w

/-- The last part of `handleWrite` may run a shutdown next. -/
theorem calm_handleWriteEnd : w.Calm w.handleWriteEnd := by
  rw [handleWriteEnd]
  split
  · exact calm_runInLoop rfl true
  · exact .refl w

/-- The functors that are not about retransmission are calm, but for `connectDestroyed` and the
acknowledgements. -/
theorem calm_run {f : Functor} (hf : f.neutral = true) (hdestroyed : f ≠ .connectDestroyed)
    (hack : ∀ seq, f ≠ .ackReceived seq) (env : Env) : w.Calm (w.run env f) := by
  cases f with
  | connectEstablelished => exact calm_connectEstablelished env
  | connectDestroyed => contradiction
  | sendInLoop data => exact calm_sendInLoop data env
  | sendFileInLoop filePath => exact calm_sendFileInLoop filePath env
  | shutdownInLoop => exact calm_shutdownInLoop
  | forceCloseInLoop => exact calm_forceCloseInLoop
  | sendFunc data seq => contradiction
  | ackReceived seq => exact absurd rfl (hack seq)
  | onIdleTimeout => exact calm_forceCloseInLoop
  | onRetransmitTimeout seq => contradiction
  | user => exact calm_push rfl

end TcpLoop

end ClearMoon.Tcp

import ClearMoon.Tcp.Descriptors
import ClearMoon.Tcp.IdleTimeout
import ClearMoon.Tcp.Threads

/-!
# What a closed connection keeps

`handleClose` takes the channel out of the poller, closes the file, cancels the timers and drops the
entries. Most functions refuse to work for a connection that is closed. Those that do not are the
rest of `Channel::handleEvent`, which may restart the idle timer, the lambda of
`sendWithRetransmit`, which makes an entry, and `onRetransmitTimeout`, which arms a timer for an
entry that is gone. Two others leave something behind when the connection is closed, the overwriting
of an entry with an armed timer, and `connectDestroyed`, which does not close the file; and another
thread may store a state when the connection is closed already. Without them nothing is kept.
-/

namespace ClearMoon.Tcp

open ClearMoon.Net ClearMoon.Timer

/-- What a connection has to give up when it is closed. -/
structure Estate where
  state : StateE
  index : ChannelState
  fileFd : Option Addr
  idleTimerId : Option TimerId
  pendingRetrans : Std.ExtTreeMap Nat RetransmitNode

/-- Everything has been given up. -/
structure Estate.Empty (x : Estate) : Prop where
  index : x.index ≠ .kAdded
  file : x.fileFd = none
  idle : x.idleTimerId = none
  entries : x.pendingRetrans = ∅

namespace TcpLoop

variable {w w' : TcpLoop} {b : Nat}

def estate (w : TcpLoop) : Estate where
  state := w.conn.state
  index := w.conn.channel.index
  fileFd := w.conn.fileFd
  idleTimerId := w.conn.idleTimerId
  pendingRetrans := w.conn.pendingRetrans

/-- A connection that is closed keeps nothing. -/
def Settled (w : TcpLoop) : Prop := w.conn.state = .kDisConnected → w.estate.Empty

/-- Being settled depends on the estate alone. -/
theorem Settled.same (h : w.Settled) (hsame : w'.estate = w.estate) : w'.Settled := by
  intro hstate
  rw [hsame]
  exact h ((congrArg Estate.state hsame).symm.trans hstate)

/-- What does not close an open connection leaves it settled. -/
theorem settled_of_state (hopen : w.conn.state ≠ .kDisConnected)
    (hstate : w'.conn.state = w.conn.state) : w'.Settled :=
  fun hclosed => absurd (hstate.symm.trans hclosed) hopen

theorem estate_invoke (cb : Callback) : (w.invoke cb).estate = w.estate := by
  rw [invoke]
  split <;> rfl

theorem estate_runInLoop (inThread : Bool) (f : Functor) :
    (w.runInLoop inThread f).estate = w.estate := by
  rw [runInLoop]
  split <;> rfl

/-- A file that is opened is not stored by that. -/
theorem estate_openFile (filePath : Bytes) (fd : Addr) :
    (w.openFile filePath fd).estate = w.estate := by
  rw [openFile]
  split <;> rfl

@[simp] theorem state_invoke (cb : Callback) : (w.invoke cb).conn.state = w.conn.state :=
  congrArg Estate.state (w.estate_invoke cb)

@[simp] theorem state_runInLoop (inThread : Bool) (f : Functor) :
    (w.runInLoop inThread f).conn.state = w.conn.state :=
  congrArg Estate.state (w.estate_runInLoop inThread f)

@[simp] theorem state_resetIdleTimer (env : Env) :
    (w.resetIdleTimer env).conn.state = w.conn.state := by
  obtain ⟨queue, id, h⟩ := w.resetIdleTimer_frame env
  rw [h]

@[simp] theorem state_dropFile : w.dropFile.conn.state = w.conn.state := by
  obtain ⟨files, h⟩ := w.closeFile_frame
  rw [dropFile, h]

theorem state_appendOutput (rest : Bytes) : (w.appendOutput rest).conn.state = w.conn.state := by
  rw [appendOutput]
  split
  · rfl
  · dsimp only
    split <;> rfl

/-- What is left of a message waits in the buffer, whatever the state. -/
theorem state_sendRest (rest : Bytes) : (w.sendRest rest).conn.state = w.conn.state := by
  rw [sendRest]
  split
  · exact state_appendOutput rest
  · exact state_appendOutput rest

/-! ## Closing -/

/-- `handleClose` gives everything up. -/
theorem Settled.handleClose (h : w.Settled) (hagrees : w.conn.channel.Agrees w.poller .conn) :
    w.handleClose.Settled := by
  have hclosed : ({ (w.setState .kDisConnected).removeChannel.dropFile with
      conn.fileSentOffset := 0, conn.fileTotalSize := 0 }.cancelIdleTimer.clearRetrans.invoke
        .close).Settled := by
    intro _
    obtain ⟨files, hdrop⟩ := (w.setState .kDisConnected).removeChannel.closeFile_frame
    rw [estate_invoke, dropFile, hdrop]
    obtain ⟨queue, hclear⟩ := clear_frame
      { { (w.setState .kDisConnected).removeChannel with files, conn.fileFd := none } with
        conn.sendingFile := false, conn.fileSentOffset := 0, conn.fileTotalSize := 0 }
    rw [hclear]
    exact ⟨hagrees.remove.2.2, rfl, rfl, rfl⟩
  rw [TcpLoop.handleClose]
  split
  · exact h
  · rename_i hstate
    exact settled_of_state (w := w) (by simp [hstate]) rfl
  · exact hclosed
  · exact hclosed

/-- So does a close by force. -/
theorem Settled.forceCloseInLoop (h : w.Settled) (hagrees : w.conn.channel.Agrees w.poller .conn) :
    w.forceCloseInLoop.Settled := by
  rw [TcpLoop.forceCloseInLoop]
  split
  · exact h.handleClose hagrees
  · exact h

/-- So does a shutdown that comes to a close. -/
theorem Settled.shutdownInLoop (h : w.Settled) (hagrees : w.conn.channel.Agrees w.poller .conn) :
    w.shutdownInLoop.Settled := by
  have hshut : w.shutdownWrite.Settled := h.same rfl
  rw [TcpLoop.shutdownInLoop]
  split
  · exact hshut.handleClose hagrees
  · exact hshut

/-- A connection that is established is not closed. -/
theorem Settled.connectEstablelished (h : w.Settled) (env : Env) :
    (w.connectEstablelished env).Settled := by
  by_cases hstate : w.conn.state = .kConnecting
  · intro hclosed
    rw [state_connectEstablelished env hstate] at hclosed
    contradiction
  · rw [TcpLoop.connectEstablelished, if_pos hstate]
    exact h.same rfl

/-- A connection that is destroyed while it is connected may have no file open. -/
theorem Settled.connectDestroyed (h : w.Settled) (hagrees : w.conn.channel.Agrees w.poller .conn)
    (hfile : w.conn.state = .kConnected → w.conn.fileFd = none) : w.connectDestroyed.Settled := by
  have hclear (v : TcpLoop) (hchannel : v.conn.channel = w.conn.channel)
      (hpoller : v.poller = w.poller)
      (hfile : v.conn.state = .kDisConnected → v.conn.fileFd = none) :
      v.cancelIdleTimer.clearRetrans.removeChannel.Settled := by
    obtain ⟨queue, hclear⟩ := v.clear_frame
    rw [hclear]
    intro hclosed
    rw [← hchannel, ← hpoller] at hagrees
    exact ⟨hagrees.remove.2.2, hfile hclosed, rfl, rfl⟩
  rw [TcpLoop.connectDestroyed]
  split
  · rename_i hstate
    exact hclear (w.setState .kDisConnected) rfl rfl fun _ => hfile hstate
  · exact hclear w rfl rfl fun hclosed => (h hclosed).file

/-! ## Sending -/

/-- `sendInLoop` refuses to work for a closed connection. -/
theorem Settled.sendInLoop (h : w.Settled) (data : Bytes) (env : Env) :
    (w.sendInLoop data env).Settled := by
  by_cases hstate : w.conn.state = .kDisConnected
  · rwa [TcpLoop.sendInLoop, if_pos hstate]
  · refine settled_of_state hstate ?_
    rw [TcpLoop.sendInLoop, if_neg hstate]
    dsimp only
    split
    · split
      · split
        · rw [state_invoke]
          rfl
        · rw [state_sendRest]
          rfl
      · rw [state_sendRest]
        rfl
      · rw [state_sendRest]
        rfl
    · rw [state_sendRest]
      rfl

/-- So does `sendFileInLoop`. -/
theorem Settled.sendFileInLoop (h : w.Settled) (hagrees : w.conn.channel.Agrees w.poller .conn)
    (filePath : Bytes) (env : Env) : (w.sendFileInLoop filePath env).Settled := by
  rw [TcpLoop.sendFileInLoop]
  split
  · exact h
  · rename_i hstate
    have hopened (fd : Addr) : ((w.note (.taken (.file filePath))).openFile filePath fd).estate =
        w.estate := estate_openFile filePath fd
    have hwatch (fd : Addr) : ((w.note (.taken (.file filePath))).openFile filePath fd).watch =
        w.watch := watch_openFile filePath fd
    dsimp only
    split
    · exact Settled.forceCloseInLoop (w := w.note _) (h.same rfl) hagrees
    · rename_i fd _
      have hopened := hopened fd
      have hchannel := congrArg Watch.channel (hwatch fd)
      have hpoller := congrArg Watch.poller (hwatch fd)
      generalize (w.note (.taken (.file filePath))).openFile filePath fd = v at *
      have hagrees : v.conn.channel.Agrees v.poller .conn := by
        rw [show v.conn.channel = _ from hchannel, show v.poller = _ from hpoller]
        exact hagrees
      exact Settled.forceCloseInLoop (w := { v with files := v.files.free fd }) (h.same hopened)
        hagrees
    · rename_i fd _
      exact settled_of_state hstate (congrArg Estate.state (hopened fd))

/-- `send` keeps nothing itself. -/
theorem estate_send (inThread : Bool) (data : Bytes) :
    (w.send inThread data).estate = w.estate := by
  rw [send]
  split
  · rfl
  · rw [estate_runInLoop]
    rfl

/-- Calls of the user leave a closed connection alone. -/
theorem Settled.call (h : w.Settled) (inThread : Bool) (c : ConnCall) :
    (w.call inThread c).Settled := by
  cases c with
  | send data => exact h.same (estate_send inThread data)
  | sendFile filePath =>
    rw [TcpLoop.call, sendFile]
    split
    · exact h
    · exact h.same (by rw [estate_runInLoop]; rfl)
  | shutdown =>
    rw [TcpLoop.call, shutdown]
    split
    · intro hclosed
      rw [state_runInLoop] at hclosed
      contradiction
    · exact h
  | forceClose =>
    rw [TcpLoop.call, forceClose]
    split
    · intro hclosed
      rw [state_runInLoop] at hclosed
      contradiction
    · exact h
  | sendWithRetransmit data seq => exact h.same (estate_runInLoop _ _)
  | ackReceived seq => exact h.same (estate_runInLoop _ _)

/-! ## Retransmission -/

/-- The lambda of `sendWithRetransmit` may not go on for a closed connection. -/
theorem settled_sendFuncEnd (data : Bytes) (seq : Nat) (env : Env)
    (hopen : w.conn.state ≠ .kDisConnected) : (w.sendFuncEnd data seq env).Settled := by
  obtain ⟨queue, pendingRetrans, nextNode, h⟩ := w.sendFuncEnd_frame data seq env
  rw [h]
  exact settled_of_state hopen rfl

/-- A closed connection has no entry for any number. -/
theorem Settled.no_entry (h : w.Settled) (hstate : w.conn.state = .kDisConnected) (seq : Nat) :
    w.conn.pendingRetrans[seq]? = none := by
  rw [show w.conn.pendingRetrans = ∅ from (h hstate).entries, Std.ExtTreeMap.getElem?_empty]

/-- An ack takes an entry away, of which a closed connection has none. -/
theorem Settled.ackReceived (h : w.Settled) (seq : Nat) : (w.ackReceived seq).Settled := by
  by_cases hstate : w.conn.state = .kDisConnected
  · rw [TcpLoop.ackReceived, h.no_entry hstate]
    exact h
  · obtain ⟨queue, pendingRetrans, hframe⟩ := w.ackReceived_frame seq
    rw [hframe]
    exact settled_of_state hstate rfl

/-- A timeout finds no entry in a closed connection. -/
theorem Settled.onRetransmitTimeout (h : w.Settled)
    (hagrees : w.conn.channel.Agrees w.poller .conn) (seq : Nat) :
    (w.onRetransmitTimeout seq).Settled := by
  by_cases hstate : w.conn.state = .kDisConnected
  · rw [TcpLoop.onRetransmitTimeout, h.no_entry hstate]
    exact h
  · rw [TcpLoop.onRetransmitTimeout]
    split
    · exact h
    · split
      · exact Settled.forceCloseInLoop
          (w := { w with conn.pendingRetrans := w.conn.pendingRetrans.erase seq })
          (settled_of_state hstate rfl) hagrees
      · dsimp only
        split
        · exact settled_of_state hstate rfl
        · exact settled_of_state hstate rfl

/-- A closed connection has no entry that `onRetransmitTimeout` could find again. -/
theorem Settled.onRetransmitTimeoutEnd (h : w.Settled) {seq n : Nat} (env : Env)
    (hfinds : w.conn.pendingRetrans[seq]?.map RetransmitNode.id = some n) :
    (w.onRetransmitTimeoutEnd seq n env).Settled := by
  have hopen : w.conn.state ≠ .kDisConnected := by
    intro hstate
    rw [h.no_entry hstate] at hfinds
    contradiction
  obtain ⟨queue, pendingRetrans, dangling, hframe⟩ := w.onRetransmitTimeoutEnd_frame seq n env
  rw [hframe]
  exact settled_of_state hopen rfl

/-! ## Events -/

/-- The read test may not read anything for a closed connection. -/
theorem Settled.handleRead (h : w.Settled) (hagrees : w.conn.channel.Agrees w.poller .conn)
    {env : Env} (hquiet : w.conn.state = .kDisConnected → env.read.delivers = false) :
    (w.handleRead env).Settled := by
  rw [TcpLoop.handleRead]
  split
  · exact h.handleClose hagrees
  · rename_i data hdata hread
    have hopen : w.conn.state ≠ .kDisConnected := by
      intro hstate
      have := hquiet hstate
      cases data with
      | nil => exact hdata rfl
      | cons byte rest =>
        rw [hread] at this
        contradiction
    exact settled_of_state hopen (by simp)
  · exact h
  · exact h.handleClose hagrees

/-- What is sent of a file is sent by an open connection. -/
theorem settled_sendfile (hopen : w.conn.state ≠ .kDisConnected) (n : Nat) :
    (w.sendfile n).Settled := by
  rw [sendfile]
  generalize w.unsent.take (min n chunkSize) = sent
  dsimp only
  split
  · exact settled_of_state hopen rfl
  · split
    · refine settled_of_state hopen ?_
      rw [state_invoke]
      exact state_dropFile
    · exact settled_of_state hopen rfl

/-- A closed connection has nothing buffered here, and nothing is sent for it. -/
theorem Settled.handleWriteBuffer (h : w.Settled) (hagrees : w.conn.channel.Agrees w.poller .conn)
    (env : Env) (hempty : w.conn.state = .kDisConnected → w.conn.writeBuffer.readableBytes = 0) :
    (w.handleWriteBuffer env).Settled := by
  rw [TcpLoop.handleWriteBuffer]
  split
  · rename_i hpos
    have hopen : w.conn.state ≠ .kDisConnected := fun hstate => by
      rw [hempty hstate] at hpos
      exact Nat.lt_irrefl 0 hpos
    split
    · refine settled_of_state hopen ?_
      rw [state_invoke]
      split <;> rfl
    · exact h
    · exact h.handleClose hagrees
    · exact h.handleClose hagrees
  · exact h

/-- A closed connection has no file to send; without bytes in the buffer it does nothing. -/
theorem Settled.handleWriteFile (h : w.Settled) (hagrees : w.conn.channel.Agrees w.poller .conn)
    (env : Env) (hempty : w.conn.state = .kDisConnected → w.conn.writeBuffer.readableBytes = 0) :
    (w.handleWriteFile env).Settled := by
  rw [TcpLoop.handleWriteFile]
  split
  · rename_i hsending
    have hopen : w.conn.state ≠ .kDisConnected := fun hstate => by
      have hfile := hsending.2
      rw [show w.conn.fileFd = none from (h hstate).file] at hfile
      contradiction
    split
    · exact settled_sendfile hopen _
    · exact h
    · have hagrees : w.dropFile.disableWriting.conn.channel.Agrees w.dropFile.disableWriting.poller
          .conn := by
        obtain ⟨files, hdrop⟩ := w.closeFile_frame
        rw [dropFile, hdrop]
        exact (hagrees.update { w.conn.channel.events with epollout := false }).2
      have hdropped : w.dropFile.disableWriting.Settled := settled_of_state hopen state_dropFile
      exact hdropped.handleClose hagrees
  · exact h.handleWriteBuffer hagrees env hempty

/-- Behind its first callback `handleWrite` looks for a file, which a closed connection has not. -/
theorem Settled.handleWriteRest (h : w.Settled) (hagrees : w.conn.channel.Agrees w.poller .conn)
    (env : Env) : (w.handleWriteRest env).Settled := by
  rw [TcpLoop.handleWriteRest]
  split
  · exact h
  · rename_i hempty
    exact h.handleWriteFile hagrees env fun _ => Nat.eq_zero_of_not_pos hempty

/-- The write test may not get past `isWriting` for a closed connection. -/
theorem Settled.handleWrite (h : w.Settled) (hagrees : w.conn.channel.Agrees w.poller .conn)
    (env : Env) (hquiet : w.conn.state = .kDisConnected → w.conn.channel.isWriting = false) :
    (w.handleWrite env).Settled := by
  rw [TcpLoop.handleWrite]
  split
  · exact h
  · rename_i hwriting
    have hopen : w.conn.state ≠ .kDisConnected := fun hstate => hwriting (by simp [hquiet hstate])
    have hstate : (w.resetIdleTimer env).conn.state ≠ .kDisConnected := by
      rwa [state_resetIdleTimer]
    have hagrees :
        (w.resetIdleTimer env).conn.channel.Agrees (w.resetIdleTimer env).poller .conn := by
      obtain ⟨queue, id, hframe⟩ := w.resetIdleTimer_frame env
      rw [hframe]
      exact hagrees
    generalize w.resetIdleTimer env = v at hstate hagrees ⊢
    have hsettled : v.Settled := settled_of_state hstate rfl
    have hpush : (v.push .handleWrite).Settled := hsettled.same rfl
    dsimp only
    split
    · split
      · refine settled_of_state hstate ?_
        rw [state_invoke]
        split <;> rfl
      · exact hpush
      · exact hpush.handleClose hagrees
      · exact hpush.handleClose hagrees
    · exact hsettled.handleWriteFile hagrees env fun hclosed => absurd hclosed hstate

/-- The tests of `handleEvent` do not look at the state, so a closed connection must have nothing to
read or write there. -/
theorem Settled.handleEvent (h : w.Settled) (hagrees : w.conn.channel.Agrees w.poller .conn)
    {env : Env} {stage : EventStage}
    (hread : stage = .read → w.conn.state = .kDisConnected →
      w.conn.channel.revents.epollin = true ∨ w.conn.channel.revents.epollrdhup = true ∨
        w.conn.channel.revents.epollpri = true → env.read.delivers = false)
    (hwrite : stage = .write → w.conn.state = .kDisConnected →
      w.conn.channel.revents.epollout = true → w.conn.channel.isWriting = false) :
    (w.handleEvent env stage).Settled := by
  have hpush (stage : EventStage) : (w.push (.handleEvent stage)).Settled := h.same rfl
  cases stage with
  | error =>
    rw [TcpLoop.handleEvent]
    split
    · exact (hpush .read).handleClose hagrees
    · exact hpush .read
  | read =>
    rw [TcpLoop.handleEvent]
    split
    · rename_i hready
      refine (hpush .hup).handleRead hagrees fun hstate => hread rfl hstate ?_
      simpa [or_assoc] using hready
    · exact hpush .hup
  | hup =>
    rw [TcpLoop.handleEvent]
    split
    · exact (hpush .write).handleClose hagrees
    · exact hpush .write
  | write =>
    rw [TcpLoop.handleEvent]
    split
    · rename_i hready
      exact h.handleWrite hagrees env fun hstate => hwrite rfl hstate hready
    · exact h

/-! ## Steps -/

/-- The number whose lambda goes on behind `send`. -/
def finishes? (w : TcpLoop) : Action → Option Nat
  | .resume _ =>
    match w.stack with
    | .sendFunc _ seq :: _ => some seq
    | _ => none
  | _ => none

/-- Neither the idle timer nor an entry is made for a closed connection, no entry is overwritten
while its timer is armed, none is erased while `onRetransmitTimeout` has a reference to it, and no
file is open when a connected connection is destroyed. -/
def Releases (w : TcpLoop) (a : Action) : Prop :=
  (w.conn.state = .kDisConnected → w.restarts a = false) ∧
    (w.destroysOpen a = true → w.conn.fileFd = none) ∧
    (∀ seq ∈ w.finishes? a, w.conn.state ≠ .kDisConnected ∧ w.Unarmed seq) ∧ w.FindsEntry a

instance (w : TcpLoop) (a : Action) : Decidable (w.Releases a) :=
  inferInstanceAs (Decidable (_ ∧ _ ∧ _ ∧ _))

/-- Where everything is released, the timers are matched with the entries. -/
theorem Releases.oneTimer {a : Action} (h : w.Releases a) : w.OneTimer a := by
  refine oneTimer_of ?_ h.2.2.2
  rintro env data seq rest rfl hstack
  exact (h.2.2.1 seq (by simp [finishes?, hstack])).2

/-- Of the functors only `connectDestroyed` has to be watched, for the file. -/
theorem Settled.run {env : Env} {f : Functor} (h : w.Settled)
    (hagrees : w.conn.channel.Agrees w.poller .conn)
    (hfile : f = .connectDestroyed → w.conn.state = .kConnected → w.conn.fileFd = none) :
    (w.run env f).Settled := by
  cases f with
  | connectEstablelished => exact h.connectEstablelished env
  | connectDestroyed => exact h.connectDestroyed hagrees (hfile rfl)
  | sendInLoop data => exact h.sendInLoop data env
  | sendFileInLoop filePath => exact h.sendFileInLoop hagrees filePath env
  | shutdownInLoop => exact h.shutdownInLoop hagrees
  | forceCloseInLoop => exact h.forceCloseInLoop hagrees
  | sendFunc data seq =>
    exact h.same (w.push (.sendFunc data seq) |>.estate_send true data)
  | ackReceived seq => exact h.ackReceived seq
  | onIdleTimeout => exact h.forceCloseInLoop hagrees
  | onRetransmitTimeout seq => exact h.onRetransmitTimeout hagrees seq
  | user => exact h.same rfl

/-- Of the code that goes on, the tests, the lambda and the timeout have to be watched. -/
theorem Settled.resumeFrame {env : Env} {frame : Frame} {rest : List Frame} (h : w.Settled)
    (hagrees : w.conn.channel.Agrees w.poller .conn) (hg : w.Releases (.resume env))
    (hstack : w.stack = frame :: rest)
    (hr : { w with stack := rest }.resumeFrame env frame = some w') : w'.Settled := by
  obtain ⟨hquiet, -, hnumber, hfinds⟩ := hg
  unfold FindsEntry at hfinds
  rw [hstack] at hfinds
  have hpop : Settled { w with stack := rest } := h.same rfl
  cases frame with
  | user cb => contradiction
  | handleEvent stage =>
    obtain rfl := Option.some.inj hr
    rw [restarts_event env hstack] at hquiet
    refine hpop.handleEvent hagrees (fun hstage hstate hready => ?_) fun hstage hstate hready => ?_
    · subst hstage
      simpa [or_assoc, hready] using hquiet hstate
    · subst hstage
      have hpass : w.conn.channel.revents.epollout = true → w.conn.channel.isWriting = false := by
        simpa using hquiet hstate
      exact hpass hready
  | handleWrite =>
    obtain rfl := Option.some.inj hr
    exact hpop.handleWriteRest hagrees env
  | handleWriteEnd =>
    obtain rfl := Option.some.inj hr
    rw [handleWriteEnd]
    split
    · exact hpop.same (estate_runInLoop _ _)
    · exact hpop
  | sendFunc data seq =>
    obtain rfl := Option.some.inj hr
    have hopen := (hnumber seq (by simp [finishes?, hstack])).1
    exact settled_sendFuncEnd data seq env hopen
  | onRetransmitTimeout seq n =>
    obtain rfl := Option.some.inj hr
    exact hpop.onRetransmitTimeoutEnd env hfinds
  | timerQueue =>
    unfold TcpLoop.resumeFrame handleTimers at hr
    dsimp only at hr
    split at hr
    · contradiction
    all_goals
      obtain ⟨timers, -, rfl⟩ := Option.map_eq_some_iff.mp hr
      exact h.same rfl

/-- A step that meets the condition leaves nothing with a closed connection. -/
theorem Settled.step {a : Action} (h : w.Settled) (hagrees : w.conn.channel.Agrees w.poller .conn)
    (hg : w.Releases a) (hstep : w.step a = some w') : w'.Settled := by
  cases stepped_of_step hstep with
  | poll hidle hfunc hready hw' =>
    rcases hw' with rfl | rfl
    · exact h.same rfl
    · exact h.same rfl
  | @run env f htodo henv =>
    have hclear : w.clearTodo.Settled := h.same rfl
    refine hclear.run hagrees fun hf hstate => hg.2.1 ?_
    have hstate : w.conn.state = .kConnected := hstate
    simp [destroysOpen, htodo, hf, hstate]
  | resume htodo hstack henv hr => exact h.resumeFrame hagrees hg hstack hr
  | call huser => exact h.call true _
  | callElsewhere => exact h.call false _
  | connectDestroyed huser => exact h.same (estate_runInLoop _ _)
  | connectDestroyedElsewhere => exact h.same (estate_runInLoop _ _)
  | runElsewhere => exact h.same (estate_runInLoop _ _)
  | _ => exact h.same rfl

/-- A new connection is not closed. -/
theorem settled_start (fd : Nat) (callbacks : Callback → Bool) (disk : Bytes → Bytes) :
    (start fd callbacks disk).Settled := by
  intro hstate
  contradiction

/-! ## Runs -/

/-- The poller and the timer queue do not refer to the connection, which has no file open and no
entry. -/
structure Released (w : TcpLoop) : Prop where
  index : w.conn.channel.index ≠ .kAdded
  channelMap : w.poller.channelMap[w.conn.channel.fd]? = none
  interest : w.poller.interest[w.conn.channel.fd]? = none
  file : w.conn.fileFd = none
  entries : w.conn.pendingRetrans = ∅
  timers : ∀ id cb, w.timers.Armed id cb → cb = .user

/-- A connection that keeps nothing is referred to by nobody. -/
theorem Settled.released (h : w.Settled) (hagrees : w.conn.channel.Agrees w.poller .conn)
    (hmatched : w.Matched b) (hclosed : w.conn.state = .kDisConnected) : w.Released := by
  obtain ⟨hindex, hfile, hidle, hentries⟩ := h hclosed
  obtain ⟨hmap, hinterest⟩ := hagrees.absent hindex
  refine ⟨hindex, hmap, hinterest, hfile, hentries, fun id cb harmed => ?_⟩
  cases cb with
  | user => rfl
  | onIdleTimeout =>
    have hid := hmatched.idle_armed id harmed
    rw [show w.held.idleTimerId = none from hidle] at hid
    contradiction
  | onRetransmitTimeout seq =>
    obtain ⟨node, hnode, -⟩ := (hmatched.paired seq).armed id harmed
    rw [show w.held.pendingRetrans[seq]? = none from h.no_entry hclosed seq] at hnode
    contradiction

end TcpLoop

namespace Threads

open TcpLoop (establishing retransmitting)

variable {x : Threads} {w w' : TcpLoop} {b : Nat}

/-- What a part of a call leaves alone, and what it may queue. -/
theorem orderly_shares (h : w.Orderly b) (hs : Shares w w') : w'.Orderly b := by
  cases hs with
  | refused => exact h
  | accept hstate => exact ⟨⟨h.sound.sized, h.sound.fresh⟩, h.queue, h.matched⟩
  | store hstate => exact ⟨⟨h.sound.sized, nofun⟩, h.queue, h.matched⟩
  | shutdown hstate => exact ⟨⟨h.sound.sized, nofun⟩, h.queue, h.matched⟩
  | @runInLoop c hstate =>
    refine ⟨⟨h.sound.sized, fun hconnecting filePath hcoming => ?_⟩, fun f hf => ?_, h.matched⟩
    · have hnew : (w.runInLoop false c.functor).view.coming =
          w.view.coming ++ outputs [c.functor] := by
        simp [TcpLoop.coming_view, TcpLoop.runInLoop, outputs_append]
      rw [hnew, List.mem_append] at hcoming
      rcases hcoming with hold | hcall
      · exact h.sound.fresh hconnecting filePath hold
      · have huntested := hstate hconnecting
        cases c with
        | sendFile path => contradiction
        | _ => simp [outputs, ConnCall.functor, Functor.output?] at hcall
    · rw [TcpLoop.queue_runInLoop, List.mem_append, List.mem_singleton] at hf
      rcases hf with hf | rfl
      · exact h.queue f hf
      · cases c <;> rfl

/-- A store of another thread that is in time asks nothing of the channel. -/
theorem apt_shares (h : w.Apt) (hs : Shares w w') : w'.Apt := by
  cases hs with
  | store hstate => exact h.setState (.inl rfl) hstate
  | shutdown hstate => exact h.setState (.inl rfl) hstate
  | _ => exact h

/-- The part of a call of another thread gives nothing to a closed connection. -/
theorem settled_shares (h : w.Settled) (hs : Shares w w') : w'.Settled := by
  cases hs with
  | store hstate => exact fun hclosed => by contradiction
  | shutdown hstate => exact fun hclosed => by contradiction
  | _ => exact h

/-- The loop gives up what it has to give up, and no store of another thread comes too late. -/
def Releases (x : Threads) : ThreadAction → Prop
  | .loop a => x.loop.Releases a
  | a => x.InTime a

instance (x : Threads) : (a : ThreadAction) → Decidable (x.Releases a)
  | .loop b => inferInstanceAs (Decidable (x.loop.Releases b))
  | .callElsewhere c => inferInstanceAs (Decidable (x.InTime (.callElsewhere c)))
  | .goOn k => inferInstanceAs (Decidable (x.InTime (.goOn k)))

/-- The condition on the threads is part of it. -/
theorem Releases.inTime {a : ThreadAction} (h : x.Releases a) : x.InTime a := by
  cases a with
  | loop b => trivial
  | callElsewhere c => trivial
  | goOn k => exact h

/-- In every run in which a closed connection takes up nothing, and none is closed with something
that `handleClose` does not find, a closed connection holds nothing. -/
theorem released_of_run {fd : Nat} {callbacks : Callback → Bool} {disk : Bytes → Bytes}
    {as : List ThreadAction} (h : Run step Releases (start fd callbacks disk) as x)
    (hclosed : x.loop.conn.state = .kDisConnected) : x.loop.Released := by
  obtain ⟨⟨b, horderly⟩, hapt, hsettled⟩ :=
    invariant_of_run (I := fun w => (∃ b, w.Orderly b) ∧ w.Apt ∧ w.Settled) h
      (fun _ _ => Releases.inTime)
      ⟨⟨0, TcpLoop.orderly_start fd callbacks disk⟩, TcpLoop.apt_start fd callbacks disk,
        TcpLoop.settled_start fd callbacks disk⟩
      (by
        rintro y a w' ⟨⟨b, hw⟩, hapt, hsettled⟩ hguard hstep
        have hguard : y.loop.Releases a := hguard
        exact ⟨⟨_, hw.step hguard.oneTimer hstep⟩, hapt.step hstep,
          hsettled.step hapt.agrees hguard hstep⟩)
      (by
        rintro w w' ⟨⟨b, hw⟩, hapt, hsettled⟩ hs
        exact ⟨⟨b, orderly_shares hw hs⟩, apt_shares hapt hs, settled_shares hsettled hs⟩)
  exact hsettled.released hapt.agrees horderly.matched hclosed

/-- A connection is closed with a number pending, behind the back of another thread that shuts it
down. -/
def closedWhilePending : List ThreadAction :=
  alone (establishing ++ retransmitting 5 2) ++ [.callElsewhere .shutdown, .goOn 0] ++
    alone [.call .forceClose, .run { timer := 3 }, .ret, .ret] ++ [.goOn 0]

theorem released_of_run_closedWhilePending :
    ∃ x, Run step Releases (start 7 (fun _ => true) id) closedWhilePending x ∧
      x.loop.idle = true ∧ x.loop.Released := by
  have hreplay : (replay step Releases (start 7 (fun _ => true) id) closedWhilePending).any
      (fun x => x.loop.idle = true ∧ x.loop.conn.state = .kDisConnected) = true := by
    decide +kernel
  obtain ⟨x, hx, hprops⟩ := (Option.any_eq_true _ _).mp hreplay
  obtain ⟨hidle, hclosed⟩ := of_decide_eq_true hprops
  exact ⟨x, .of_replay hx, hidle, released_of_run (.of_replay hx) hclosed⟩

/-- `sendWithRetransmit` is called in the close callback. -/
def sentWhenClosed : List ThreadAction :=
  alone (establishing ++ [.call .forceClose, .run { timer := 2 },
    .call (.sendWithRetransmit [7] 5), .run { timer := 2 }, .resume { timer := 2 }, .ret, .ret])

/-- The connection is closed in the write complete callback of a retransmission. -/
def closedWhenResent : List ThreadAction :=
  alone (establishing ++ retransmitting 5 2 ++ [.ret, .tick 10000, .poll [.timerQueue] {},
    .dispatch, .resume { timer := 3 }, .run { timer := 3 }, .run { timer := 3, write := .done 1 },
    .call .forceClose, .run { timer := 3 }, .ret, .ret,
    .resume { timer := 3, stale := { seq := 5, data := [7] } }, .resume { timer := 4 },
    .resume { timer := 4 }, .doPendingFuncs])

/-- The entry is made, and its timer armed, for a connection that is closed; or a timer is armed for
an entry that is gone. -/
theorem entry_of_closed :
    (∃ x, Run step anyStep (start 7 (fun _ => true) id) sentWhenClosed x ∧ x.loop.idle = true ∧
      x.loop.conn.state = .kDisConnected ∧ ¬x.loop.Released) ∧
    ∃ x, Run step anyStep (start 7 (fun _ => true) id) closedWhenResent x ∧ x.loop.idle = true ∧
      x.loop.conn.state = .kDisConnected ∧ ¬x.loop.Released := by
  have harmed {x : Threads} {k : ActiveTimer}
      (h : x.loop.timers.queue.armedWith (.onRetransmitTimeout 5) = [k]) :
      ¬x.loop.Released := by
    intro hreleased
    have harmed : x.loop.timers.Armed ⟨k.timer, k.sequence⟩ (.onRetransmitTimeout 5) :=
      TimerQueue.mem_armedWith.mp (h ▸ List.mem_singleton_self k)
    have := hreleased.timers _ _ harmed
    contradiction
  constructor
  · have hreplay : (replay step anyStep (start 7 (fun _ => true) id) sentWhenClosed).any
        (fun x => x.loop.idle = true ∧ x.loop.conn.state = .kDisConnected ∧
          x.loop.timers.queue.armedWith (.onRetransmitTimeout 5) = [⟨1, 2⟩]) = true := by
      decide +kernel
    obtain ⟨x, hx, hprops⟩ := (Option.any_eq_true _ _).mp hreplay
    obtain ⟨hidle, hclosed, htimer⟩ := of_decide_eq_true hprops
    exact ⟨x, .of_replay hx, hidle, hclosed, harmed htimer⟩
  · have hreplay : (replay step anyStep (start 7 (fun _ => true) id) closedWhenResent).any
        (fun x => x.loop.idle = true ∧ x.loop.conn.state = .kDisConnected ∧
          x.loop.timers.queue.armedWith (.onRetransmitTimeout 5) = [⟨2, 3⟩]) = true := by
      decide +kernel
    obtain ⟨x, hx, hprops⟩ := (Option.any_eq_true _ _).mp hreplay
    obtain ⟨hidle, hclosed, htimer⟩ := of_decide_eq_true hprops
    exact ⟨x, .of_replay hx, hidle, hclosed, harmed htimer⟩

end Threads

end ClearMoon.Tcp

import ClearMoon.Tcp.Output

/-!
# The descriptors of the files

`sendFileInLoop` opens a file and stores its descriptor in `fileFd_`; the file transfer and
`handleClose` close what is stored there. A `Desk` gathers the members that a transfer works with,
and `Handles` and `Turns` list what can be done to them. No descriptor is lost as long as a file is
opened only when none is stored, and `connectDestroyed` does not disconnect a connection that stores
one.
-/

namespace ClearMoon.Tcp

open ClearMoon.Net ClearMoon.Timer

/-- What a file transfer works with. -/
structure Desk where
  state : StateE
  aborted : Bool
  files : Arena OpenFile OpenFile.serial
  fileFd : Option Addr
  fileSentOffset : Nat
  fileTotalSize : Nat
  sendingFile : Bool

namespace Desk

/-- `::close(fileFd_)`, `fileFd_ = -1` and `sendingFile_ = false`. -/
def drop (d : Desk) : Desk :=
  match d.fileFd with
  | none => { d with sendingFile := false }
  | some fd => { d with files := d.files.free fd, fileFd := none, sendingFile := false }

/-- Bytes of the file have been sent; the transfer is over when they were the last ones. -/
def advance (d : Desk) (k : Nat) : Desk :=
  let d := { d with fileSentOffset := d.fileSentOffset + k }
  if d.fileTotalSize ≤ d.fileSentOffset then d.drop else d

/-- What `handleClose` does. -/
inductive Ends (d : Desk) : Desk → Prop
  | already (h : d.state = .kDisConnected) : Ends d d
  | closed (h : d.state = .kConnected ∨ d.state = .kDisConnecting) :
      Ends d { d.drop with state := .kDisConnected, fileSentOffset := 0, fileTotalSize := 0 }
  | aborted (h : d.state = .kConnecting) : Ends d { d with aborted := true }

/-- What is done to the files, apart from opening one to send it and from `connectDestroyed`. -/
inductive Handles (d : Desk) : Desk → Prop
  /-- The files are left alone, and the connection is not closed. -/
  | keep {s b} (h : s = .kDisConnected → d.state = .kDisConnected) :
      Handles d { d with state := s, aborted := b }
  /-- A file has been opened and closed at once, and the connection may have been closed too. -/
  | peek {files e} (hlive : ∀ fd, files.get? fd = d.files.get? fd)
      (hfaults : files.faults = d.files.faults) (hfreed : d.files.freed ⊆ files.freed)
      (h : e = { d with files } ∨ { d with files }.Ends e) : Handles d e
  | close {e} (h : d.Ends e) : Handles d e
  /-- `::sendfile` has failed. -/
  | fail {e} (h : d.drop.Ends e) : Handles d e
  /-- `::sendfile` has taken bytes. -/
  | send {fd file k} (hsending : d.sendingFile = true) (hfd : d.fileFd = some fd)
      (hfile : d.files.get? fd = some file) (hpos : 0 < k)
      (hk : d.fileSentOffset + k ≤ file.content.length) : Handles d (d.advance k)

variable {d e : Desk}

/-- Nothing is done. -/
theorem Handles.same (h : e = d) : d.Handles e := by
  rw [h]
  exact .keep id

/-- A file that is dropped is not stored any more. -/
theorem fileFd_drop : d.drop.fileFd = none := by
  rw [drop]
  split
  · assumption
  · rfl

/-- Nor is it sent any more. -/
theorem sendingFile_drop : d.drop.sendingFile = false := by
  rw [drop]
  split
  · rfl
  · rfl

/-- Dropping the file does not look at the state. -/
theorem drop_setState (s : StateE) : { d with state := s }.drop = { d.drop with state := s } := by
  cases hfd : d.fileFd with
  | none => simp [drop, hfd]
  | some fd => simp [drop, hfd]

end Desk

namespace TcpLoop

variable {w v w' : TcpLoop}

def desk (w : TcpLoop) : Desk where
  state := w.conn.state
  aborted := w.aborted
  files := w.files
  fileFd := w.conn.fileFd
  fileSentOffset := w.conn.fileSentOffset
  fileTotalSize := w.conn.fileTotalSize
  sendingFile := w.conn.sendingFile

/-! ## Operations that leave the files alone -/

@[simp] theorem desk_note (e : Event) : (w.note e).desk = w.desk := rfl

@[simp] theorem desk_push (frame : Frame) : (w.push frame).desk = w.desk := rfl

@[simp] theorem desk_invoke (cb : Callback) : (w.invoke cb).desk = w.desk := by
  rw [invoke]
  split <;> rfl

@[simp] theorem desk_runInLoop (inThread : Bool) (f : Functor) :
    (w.runInLoop inThread f).desk = w.desk := by
  rw [runInLoop]
  split <;> rfl

@[simp] theorem desk_clear : w.cancelIdleTimer.clearRetrans.desk = w.desk := by
  obtain ⟨queue, hidle⟩ := w.cancel_frame w.conn.idleTimerId
  obtain ⟨queue', h⟩ :=
    foldl_cancel_frame w.cancelIdleTimer.conn.pendingRetrans.toList w.cancelIdleTimer
  rw [clearRetrans, h, cancelIdleTimer, hidle]
  rfl

@[simp] theorem desk_resetIdleTimer (env : Env) : (w.resetIdleTimer env).desk = w.desk := by
  obtain ⟨queue, id, h⟩ := w.resetIdleTimer_frame env
  rw [h]
  rfl

@[simp] theorem desk_appendOutput (rest : Bytes) : (w.appendOutput rest).desk = w.desk := by
  rw [appendOutput]
  split
  · rfl
  · dsimp only
    split <;> rfl

@[simp] theorem desk_sendRest (rest : Bytes) : (w.sendRest rest).desk = w.desk := by
  rw [sendRest]
  split
  · exact desk_appendOutput rest
  · exact desk_appendOutput rest

@[simp] theorem desk_sendInLoop (data : Bytes) (env : Env) :
    (w.sendInLoop data env).desk = w.desk := by
  rw [sendInLoop]
  split
  · rfl
  · dsimp only
    split
    · split
      · split
        · rw [desk_invoke, desk_note, desk_note]
        · rw [desk_sendRest, desk_note, desk_note]
      · rw [desk_sendRest, desk_note]
      · rw [desk_sendRest, desk_note]
    · rw [desk_sendRest, desk_note]

@[simp] theorem desk_send (inThread : Bool) (data : Bytes) :
    (w.send inThread data).desk = w.desk := by
  rw [send]
  split
  · rfl
  · rw [desk_runInLoop, desk_note]

/-- The timer queue opens and closes nothing. -/
theorem desk_handleTimers (h : w.handleTimers = some w') : w'.desk = w.desk := by
  rw [handleTimers] at h
  split at h
  · contradiction
  · obtain ⟨timers, -, rfl⟩ := Option.map_eq_some_iff.mp h
    rfl
  · obtain ⟨timers, -, rfl⟩ := Option.map_eq_some_iff.mp h
    rfl
  · obtain ⟨timers, -, rfl⟩ := Option.map_eq_some_iff.mp h
    rfl

/-- `dropFile` does to the connection what `drop` does to its desk. -/
@[simp] theorem desk_dropFile : w.dropFile.desk = w.desk.drop := by
  cases hfd : w.conn.fileFd with
  | none => simp [dropFile, closeFile, Desk.drop, desk, hfd]
  | some fd => simp [dropFile, closeFile, Desk.drop, desk, hfd]

/-- `handleClose` drops the file of an open connection, and does nothing to a closed one. -/
theorem desk_handleClose : w.desk.Ends w.handleClose.desk := by
  have hclose : ({ (w.setState .kDisConnected).removeChannel.dropFile with
      conn.fileSentOffset := 0, conn.fileTotalSize := 0 }.cancelIdleTimer.clearRetrans.invoke
        .close).desk = { w.desk.drop with
          state := .kDisConnected
          fileSentOffset := 0
          fileTotalSize := 0 } := by
    have hdrop := desk_dropFile (w := (w.setState .kDisConnected).removeChannel)
    have hstate := Desk.drop_setState (d := w.desk) .kDisConnected
    rw [desk_invoke, desk_clear]
    exact congrArg (fun d : Desk => { d with fileSentOffset := 0, fileTotalSize := 0 })
      (hdrop.trans hstate)
  cases h : w.conn.state with
  | kConnecting =>
    simp only [handleClose, h]
    exact .aborted h
  | kConnected =>
    simp only [handleClose, h]
    rw [hclose]
    exact .closed (.inl h)
  | kDisConnecting =>
    simp only [handleClose, h]
    rw [hclose]
    exact .closed (.inr h)
  | kDisConnected =>
    simp only [handleClose, h]
    exact .already h

/-- Closing by force closes the file, unless the connection has been closed before. -/
theorem handles_forceCloseInLoop : w.desk.Handles w.forceCloseInLoop.desk := by
  rw [forceCloseInLoop]
  split
  · exact .close desk_handleClose
  · exact .same rfl

theorem kConnected_ne : StateE.kConnected ≠ .kDisConnected := by decide

theorem kDisConnecting_ne : StateE.kDisConnecting ≠ .kDisConnected := by decide

/-- Establishing a connection moves its state, away from `kDisConnected`. -/
theorem handles_connectEstablelished (env : Env) :
    w.desk.Handles (w.connectEstablelished env).desk := by
  rw [connectEstablelished]
  split
  · exact .keep id
  · rw [desk_invoke, desk_resetIdleTimer]
    exact .keep (absurd · kConnected_ne)

/-- A shutdown that closes the connection closes the file with it. -/
theorem handles_shutdownInLoop : w.desk.Handles w.shutdownInLoop.desk := by
  rw [shutdownInLoop]
  split
  · exact .close (desk_handleClose (w := w.shutdownWrite))
  · exact .same rfl

/-- The file that is opened stands in `fileFd_`, whatever stood there before. -/
theorem desk_setFile (filePath : Bytes) {fd : Addr} (hfd : w.files.get? fd = none) (size : Nat) :
    ((w.openFile filePath fd).setFile fd size).enableWriting.desk =
      { w.desk with
        files := w.files.alloc fd ⟨w.files.born, w.disk filePath⟩ hfd rfl
        fileFd := some fd
        fileSentOffset := 0
        fileTotalSize := size
        sendingFile := true } := by
  simp only [openFile, hfd, dite_true]
  rfl

/-- A call of the user moves the state of an open connection, and leaves the files to the loop. -/
theorem handles_call (inThread : Bool) (c : ConnCall) :
    w.desk.Handles (w.call inThread c).desk := by
  cases c with
  | send data =>
    rw [call, desk_send]
    exact .same rfl
  | sendFile filePath =>
    rw [call, sendFile]
    split
    · exact .same rfl
    · rw [desk_runInLoop, desk_note]
      exact .same rfl
  | shutdown =>
    rw [call, shutdown]
    split
    · rw [desk_runInLoop, desk_note]
      exact .keep (absurd · kDisConnecting_ne)
    · exact .same rfl
  | forceClose =>
    rw [call, forceClose]
    split
    · rw [desk_runInLoop]
      exact .keep (absurd · kDisConnecting_ne)
    · exact .same rfl
  | sendWithRetransmit data seq =>
    rw [call, desk_runInLoop]
    exact .same rfl
  | ackReceived seq =>
    rw [call, desk_runInLoop]
    exact .same rfl

/-- A timeout that gives a number up closes the file with the connection. -/
theorem handles_onRetransmitTimeout (seq : Nat) :
    w.desk.Handles (w.onRetransmitTimeout seq).desk := by
  rw [onRetransmitTimeout]
  split
  · exact .same rfl
  · split
    · exact handles_forceCloseInLoop
        (w := { w with conn.pendingRetrans := w.conn.pendingRetrans.erase seq })
    · dsimp only
      split
      · exact .same rfl
      · exact .same rfl

/-! ## What the event handlers do -/

/-- A read that finds the end or an error closes the file with the connection. -/
theorem handles_handleRead (env : Env) : w.desk.Handles (w.handleRead env).desk := by
  rw [handleRead]
  split
  · exact .close desk_handleClose
  · rw [desk_invoke, desk_resetIdleTimer]
    exact .same rfl
  · exact .same rfl
  · exact .close desk_handleClose

/-- What is unsent stands in the file that `fileFd_` stores. -/
theorem file_of_unsent {k : Nat} (hpos : 0 < k) (hk : k ≤ w.unsent.length) :
    w.conn.sendingFile = true ∧ ∃ fd file, w.conn.fileFd = some fd ∧
      w.files.get? fd = some file ∧ w.conn.fileSentOffset + k ≤ file.content.length := by
  rw [unsent] at hk
  cases hfile : w.file? with
  | none =>
    rw [hfile] at hk
    exact absurd hk (by simpa using Nat.ne_of_gt hpos)
  | some file =>
    rw [hfile] at hk
    dsimp only at hk
    split at hk
    · rename_i hsending
      rw [file?] at hfile
      split at hfile
      · contradiction
      · rename_i fd hfd
        rw [List.length_drop] at hk
        exact ⟨hsending, fd, file, hfd, hfile, by omega⟩
    · exact absurd hk (by simpa using Nat.ne_of_gt hpos)

/-- What `::sendfile` takes advances the offset, and the last bytes drop the file. -/
theorem handles_sendfile (n : Nat) : w.desk.Handles (w.sendfile n).desk := by
  have hle : (w.unsent.take (min n chunkSize)).length ≤ w.unsent.length :=
    List.length_take_le' ..
  rw [sendfile]
  generalize w.unsent.take (min n chunkSize) = sent at hle ⊢
  dsimp only
  split
  · exact .same rfl
  · rename_i hsent
    have hpos := List.length_pos_of_ne_nil hsent
    obtain ⟨hsending, fd, file, hfd, hfile, hk⟩ := file_of_unsent hpos hle
    have hturn : w.desk.Handles (w.desk.advance sent.length) := .send hsending hfd hfile hpos hk
    split
    · rename_i htotal
      have hdrop := desk_dropFile (w := { w with
        conn.fileSentOffset := w.conn.fileSentOffset + sent.length }.note (.sentFile sent))
      have hadvance : w.desk.advance sent.length = _ := if_pos htotal
      rw [hadvance] at hturn
      rw [desk_invoke]
      exact hdrop ▸ hturn
    · rename_i htotal
      have hadvance : w.desk.advance sent.length = _ := if_neg htotal
      rw [hadvance] at hturn
      exact hturn

/-- A `::write` that fails closes the file with the connection. -/
theorem handles_handleWriteBuffer (env : Env) : w.desk.Handles (w.handleWriteBuffer env).desk := by
  rw [handleWriteBuffer]
  split
  · split
    · dsimp only
      rw [desk_invoke]
      split
      · exact .same rfl
      · exact .same rfl
    · exact .same rfl
    · exact .close desk_handleClose
    · exact .close desk_handleClose
  · exact .same rfl

/-- A `::sendfile` that fails drops the file first, and then closes the connection. -/
theorem handles_handleWriteFile (env : Env) : w.desk.Handles (w.handleWriteFile env).desk := by
  rw [handleWriteFile]
  split
  · split
    · exact handles_sendfile _
    · exact .same rfl
    · have hdrop : w.dropFile.disableWriting.desk = w.desk.drop := desk_dropFile
      exact .fail (hdrop ▸ desk_handleClose)
  · exact handles_handleWriteBuffer env

/-- What follows the first block of `handleWrite` sends a part of the file. -/
theorem handles_handleWriteRest (env : Env) : w.desk.Handles (w.handleWriteRest env).desk := by
  rw [handleWriteRest]
  split
  · exact .same rfl
  · exact handles_handleWriteFile env

/-- The first block itself has nothing to do with files, unless its `::write` fails. -/
theorem handles_handleWrite (env : Env) : w.desk.Handles (w.handleWrite env).desk := by
  rw [handleWrite]
  split
  · exact .same rfl
  · have hidle := desk_resetIdleTimer (w := w) env
    rw [← hidle]
    generalize w.resetIdleTimer env = v
    dsimp only
    split
    · split
      · rw [desk_invoke]
        split
        · exact .same rfl
        · exact .same rfl
      · exact .same rfl
      · exact .close (desk_handleClose (w := v.push .handleWrite))
      · exact .close (desk_handleClose (w := v.push .handleWrite))
    · exact handles_handleWriteFile env

/-- The tests of `handleEvent` handle the files by their callbacks alone. -/
theorem handles_handleEvent (env : Env) (stage : EventStage) :
    w.desk.Handles (w.handleEvent env stage).desk := by
  cases stage with
  | error =>
    simp only [handleEvent]
    split
    · exact .close (desk_handleClose (w := w.push _))
    · exact .same rfl
  | read =>
    simp only [handleEvent]
    split
    · exact handles_handleRead (w := w.push _) env
    · exact .same rfl
  | hup =>
    simp only [handleEvent]
    split
    · exact .close (desk_handleClose (w := w.push _))
    · exact .same rfl
  | write =>
    simp only [handleEvent]
    split
    · exact handles_handleWrite env
    · exact .same rfl

/-- So does any code that goes on. -/
theorem handles_resumeFrame {env : Env} {frame : Frame} (h : w.resumeFrame env frame = some w') :
    w.desk.Handles w'.desk := by
  cases frame with
  | user cb => contradiction
  | handleEvent stage =>
    obtain rfl := Option.some.inj h
    exact handles_handleEvent env stage
  | handleWrite =>
    obtain rfl := Option.some.inj h
    exact handles_handleWriteRest env
  | handleWriteEnd =>
    obtain rfl := Option.some.inj h
    rw [handleWriteEnd]
    split
    · exact .same rfl
    · exact .same rfl
  | sendFunc data seq =>
    obtain ⟨queue, pendingRetrans, nextNode, hend⟩ := w.sendFuncEnd_frame data seq env
    obtain rfl := Option.some.inj h
    rw [hend]
    exact .same rfl
  | onRetransmitTimeout seq node =>
    obtain ⟨queue, pendingRetrans, dangling, hend⟩ := w.onRetransmitTimeoutEnd_frame seq node env
    obtain rfl := Option.some.inj h
    rw [hend]
    exact .same rfl
  | timerQueue => exact .same (desk_handleTimers h)

/-! ## What a step does -/

/-- What one step does to the files. -/
inductive Turns (w : TcpLoop) : Action → Desk → Prop
  | handle {a d} (h : w.desk.Handles d) : Turns w a d
  | openFile {env fd filePath} (htodo : w.todo = some (.sendFileInLoop filePath))
      (hopened : env.opened = .opened fd) (hfd : w.files.get? fd = none)
      (hstate : w.conn.state ≠ .kDisConnected) :
      Turns w (.run env) { w.desk with
        files := w.files.alloc fd ⟨w.files.born, w.disk filePath⟩ hfd rfl
        fileFd := some fd
        fileSentOffset := 0
        fileTotalSize := (w.disk filePath).length
        sendingFile := true }
  | destroy {env} (htodo : w.todo = some .connectDestroyed) (hstate : w.conn.state = .kConnected) :
      Turns w (.run env) { w.desk with state := .kDisConnected }

/-- A file is refused, opened in vain, or stored in `fileFd_`. -/
theorem turns_sendFileInLoop {filePath : Bytes} {env : Env}
    (htodo : w.todo = some (.sendFileInLoop filePath))
    (hfile : ∀ fd ∈ env.opened.fd?, w.files.get? fd = none) :
    Turns w (.run env) (w.clearTodo.sendFileInLoop filePath env).desk := by
  rw [sendFileInLoop]
  split
  · exact .handle (.same rfl)
  · rename_i hopen
    dsimp only
    split
    · exact .handle (handles_forceCloseInLoop (w := w.clearTodo.note _))
    · rename_i fd hopened
      have hfd : w.files.get? fd = none := hfile fd (by rw [hopened]; rfl)
      have hpeek : { (w.clearTodo.note (.taken (.file filePath))).openFile filePath fd with
          files := ((w.clearTodo.note (.taken (.file filePath))).openFile filePath fd).files.free
            fd }.desk = { w.desk with
              files := (w.files.alloc fd ⟨w.files.born, w.disk filePath⟩ hfd rfl).free fd } := by
        have hfd : (w.clearTodo.note (.taken (.file filePath))).files.get? fd = none := hfd
        simp only [openFile, hfd, dite_true]
        rfl
      refine .handle (@Desk.Handles.peek _
        ((w.files.alloc fd ⟨w.files.born, w.disk filePath⟩ hfd rfl).free fd) _ (fun a => ?_)
        (Arena.faults_free (by rw [Arena.get?_alloc, if_pos rfl])) ?_ ?_)
      · rw [Arena.get?_free, Arena.get?_alloc]
        split
        · rename_i ha
          rw [← ha]
          exact hfd.symm
        · rfl
      · have hfreed := Arena.freed_alloc (x := ⟨w.files.born, w.disk filePath⟩) hfd rfl
        exact hfreed ▸ Arena.freed_subset_free
      · rw [← hpeek, forceCloseInLoop]
        split
        · exact .inr desk_handleClose
        · exact .inl rfl
    · rename_i fd hopened
      have hfd : w.files.get? fd = none := hfile fd (by rw [hopened]; rfl)
      rw [desk_setFile (w := w.clearTodo.note _) filePath hfd]
      exact .openFile htodo hopened hfd hopen

/-- A connected connection is disconnected with its file left open. -/
theorem turns_connectDestroyed {env : Env} (htodo : w.todo = some .connectDestroyed) :
    Turns w (.run env) w.clearTodo.connectDestroyed.desk := by
  have hclear : ∀ v : TcpLoop, v.cancelIdleTimer.clearRetrans.removeChannel.desk = v.desk :=
    fun v => desk_clear (w := v)
  rw [connectDestroyed, hclear]
  split
  · rename_i hstate
    exact .destroy htodo hstate
  · exact .handle (.same rfl)

/-- What a functor does to the files. -/
theorem turns_run {env : Env} {f : Functor} (htodo : w.todo = some f) (henv : w.EnvOk env) :
    Turns w (.run env) (w.clearTodo.run env f).desk := by
  cases f with
  | connectEstablelished => exact .handle (handles_connectEstablelished (w := w.clearTodo) env)
  | connectDestroyed => exact turns_connectDestroyed htodo
  | sendInLoop data =>
    rw [run, desk_sendInLoop]
    exact .handle (.same rfl)
  | sendFileInLoop filePath => exact turns_sendFileInLoop htodo henv.file
  | shutdownInLoop => exact .handle (handles_shutdownInLoop (w := w.clearTodo))
  | forceCloseInLoop => exact .handle (handles_forceCloseInLoop (w := w.clearTodo))
  | sendFunc data seq =>
    rw [run, sendFunc, desk_send]
    exact .handle (.same rfl)
  | ackReceived seq =>
    obtain ⟨queue, pendingRetrans, hack⟩ := w.clearTodo.ackReceived_frame seq
    rw [run, hack]
    exact .handle (.same rfl)
  | onIdleTimeout => exact .handle (handles_forceCloseInLoop (w := w.clearTodo))
  | onRetransmitTimeout seq => exact .handle (handles_onRetransmitTimeout (w := w.clearTodo) seq)
  | user => exact .handle (.same rfl)

/-- Every step takes one of these turns. -/
theorem turns_of_step {a : Action} (hstep : w.step a = some w') : Turns w a w'.desk := by
  cases stepped_of_step hstep with
  | run htodo henv => exact turns_run htodo henv
  | @resume env frame rest _ htodo hstack henv hframe =>
    exact .handle (handles_resumeFrame (w := { w with stack := rest }) hframe)
  | call huser => exact .handle (handles_call true _)
  | callElsewhere => exact .handle (handles_call false _)
  | poll hidle hfunc hready hsame =>
    obtain rfl | rfl := hsame
    · exact .handle (.same rfl)
    · exact .handle (.same rfl)
  | _ => exact .handle (.same rfl)

/-- A step that opens a file to be sent runs `sendFileInLoop`. -/
theorem opensFile_cases {a : Action} (h : w.opensFile a = true) :
    ∃ env fd filePath, a = .run env ∧ w.todo = some (.sendFileInLoop filePath) ∧
      env.opened = .opened fd ∧ w.conn.state ≠ .kDisConnected := by
  cases a with
  | run env =>
    simp only [opensFile] at h
    split at h
    · rename_i filePath fd htodo hopened
      exact ⟨env, fd, filePath, rfl, htodo, hopened, of_decide_eq_true h⟩
    · contradiction
  | _ => contradiction

/-- The step destroys a connection that is connected. -/
def destroysOpen (w : TcpLoop) : Action → Bool
  | .run _ => w.todo = some .connectDestroyed ∧ w.conn.state = .kConnected
  | _ => false

/-- A file is opened, and a connected connection destroyed, only when `fileFd_` stores none. -/
def FileDone (w : TcpLoop) (a : Action) : Prop :=
  w.opensFile a = true ∨ w.destroysOpen a = true → w.conn.fileFd = none

instance (w : TcpLoop) (a : Action) : Decidable (w.FileDone a) :=
  inferInstanceAs (Decidable (_ → _))

end TcpLoop

/-! ## The books -/

namespace Desk

/-- The open file is the one that `fileFd_` stores, none has been closed twice, and a closed
connection stores none. -/
structure Owned (d : Desk) : Prop where
  stored : ∀ {fd file}, d.files.get? fd = some file → d.fileFd = some fd
  held : ∀ {fd}, d.fileFd = some fd → ∃ file, d.files.get? fd = some file
  faults : d.files.faults = []
  closed : d.state = .kDisConnected → d.fileFd = none

variable {d e : Desk}

/-- The books are kept while files and `fileFd_` are left alone. -/
theorem Owned.same (h : d.Owned) (hlive : ∀ fd, e.files.get? fd = d.files.get? fd)
    (hfaults : e.files.faults = d.files.faults) (hfd : e.fileFd = d.fileFd)
    (hclosed : e.state = .kDisConnected → d.state = .kDisConnected ∨ d.fileFd = none) :
    e.Owned where
  stored hfile := by
    rw [hfd]
    exact h.stored ((hlive _).symm.trans hfile)
  held hstored := by
    obtain ⟨file, hfile⟩ := h.held (hfd ▸ hstored)
    exact ⟨file, (hlive _).trans hfile⟩
  faults := by rw [hfaults, h.faults]
  closed hs := by
    rw [hfd]
    exact (hclosed hs).elim h.closed id

/-- Dropping the stored file closes it once. -/
theorem Owned.drop (h : d.Owned) : d.drop.Owned := by
  cases hfd : d.fileFd with
  | none =>
    rw [Desk.drop, hfd]
    exact h.same (fun _ => rfl) rfl hfd.symm .inl
  | some fd =>
    obtain ⟨file, hfile⟩ := h.held hfd
    rw [Desk.drop, hfd]
    refine ⟨fun {a x} ha => ?_, nofun, ?_, fun _ => rfl⟩
    · rw [Arena.get?_free] at ha
      split at ha
      · contradiction
      · rename_i hne
        have hstored := h.stored ha
        rw [hfd] at hstored
        exact absurd (Option.some.inj hstored) hne
    · rw [← h.faults]
      exact Arena.faults_free hfile

/-- `handleClose` leaves no file behind. -/
theorem Owned.ends (h : d.Owned) (he : d.Ends e) : e.Owned := by
  cases he with
  | already hs => exact h
  | closed hs => exact h.drop.same (fun _ => rfl) rfl rfl fun _ => .inr fileFd_drop
  | aborted hs => exact h.same (fun _ => rfl) rfl rfl .inl

/-- Whatever is done to a file in progress, it stays the stored one until it is closed. -/
theorem Owned.handles (h : d.Owned) (hd : d.Handles e) : e.Owned := by
  cases hd with
  | keep hs => exact h.same (fun _ => rfl) rfl rfl fun hc => .inl (hs hc)
  | @peek files e hlive hfaults hfreed he =>
    have hpeeked : ({ d with files } : Desk).Owned := h.same hlive hfaults rfl .inl
    rcases he with rfl | he
    · exact hpeeked
    · exact hpeeked.ends he
  | close he => exact h.ends he
  | fail he => exact h.drop.ends he
  | @send fd file k hsending hfd hfile hpos hk =>
    have hsent : ({ d with fileSentOffset := d.fileSentOffset + k } : Desk).Owned :=
      h.same (fun _ => rfl) rfl rfl .inl
    rw [advance]
    dsimp only
    split
    · exact hsent.drop
    · exact hsent

end Desk

namespace TcpLoop

variable {w w' : TcpLoop}

abbrev Owned (w : TcpLoop) : Prop := w.desk.Owned

/-- The books are kept by every step that meets the condition. -/
theorem Owned.step {a : Action} (h : w.Owned) (hg : w.FileDone a) (hstep : w.step a = some w') :
    w'.Owned := by
  have hturns := turns_of_step hstep
  rw [TcpLoop.Owned]
  generalize w'.desk = d at hturns ⊢
  cases hturns with
  | handle hd => exact h.handles hd
  | @openFile env fd filePath htodo hopened hfd hstate =>
    have hnone : w.conn.fileFd = none := by
      refine hg (.inl ?_)
      simp only [opensFile, htodo, hopened]
      exact decide_eq_true hstate
    refine ⟨fun {a x} ha => ?_, fun {a} ha => ?_, h.faults, fun hs => absurd hs hstate⟩
    · rw [Arena.get?_alloc] at ha
      split at ha
      · rename_i heq
        exact congrArg some heq
      · have hstored := h.stored ha
        exact absurd (hnone.symm.trans hstored) (by simp)
    · obtain rfl := Option.some.inj ha
      exact ⟨_, by rw [Arena.get?_alloc, if_pos rfl]⟩
  | destroy htodo hstate =>
    refine h.same (fun _ => rfl) rfl rfl fun _ => .inr (hg (.inr ?_))
    exact decide_eq_true ⟨htodo, hstate⟩

/-- A file that is opened over another one, and one that a destroyed connection stores, is lost. -/
theorem not_owned_of_step {a : Action} (h : w.Owned) (hg : ¬w.FileDone a)
    (hstep : w.step a = some w') : ¬w'.Owned := by
  simp only [FileDone, Classical.not_imp] at hg
  obtain ⟨hdoes, hstored⟩ := hg
  obtain ⟨old, hold⟩ := Option.ne_none_iff_exists'.mp hstored
  obtain ⟨file, hfile⟩ := h.held hold
  have hfile : w.files.get? old = some file := hfile
  cases stepped_of_step hstep with
  | @run env f htodo henv =>
    rcases hdoes with hopens | hdestroys
    · obtain ⟨_, fd, filePath, ⟨⟩, hf, hopened, hopen⟩ := opensFile_cases hopens
      obtain rfl := Option.some.inj (htodo.symm.trans hf)
      have hfd : w.files.get? fd = none := henv.file fd (by rw [hopened]; rfl)
      have hopen : w.clearTodo.conn.state ≠ .kDisConnected := hopen
      intro h'
      rw [TcpLoop.run, TcpLoop.sendFileInLoop, if_neg hopen, TcpLoop.Owned] at h'
      simp only [hopened] at h'
      rw [desk_setFile (w := w.clearTodo.note _) filePath hfd] at h'
      have hne : fd ≠ old := by
        rintro rfl
        rw [hfd] at hfile
        contradiction
      have hlive : (w.files.alloc fd ⟨w.files.born, w.disk filePath⟩ hfd rfl).get? old =
          some file := by
        rw [Arena.get?_alloc, if_neg hne]
        exact hfile
      exact hne (Option.some.inj (h'.stored hlive))
    · obtain ⟨hf, hstate⟩ := of_decide_eq_true hdestroys
      have hstate : w.clearTodo.conn.state = .kConnected := hstate
      obtain rfl := Option.some.inj (htodo.symm.trans hf)
      intro h'
      have hclear := desk_clear (w := w.clearTodo.setState .kDisConnected)
      have hdesk : (w.clearTodo.run env .connectDestroyed).desk =
          { w.desk with state := .kDisConnected } := by
        rw [TcpLoop.run, TcpLoop.connectDestroyed, if_pos hstate]
        exact hclear
      rw [TcpLoop.Owned, hdesk] at h'
      exact hstored (h'.closed rfl)
  | _ => simp [opensFile, destroysOpen] at hdoes

/-! ## Runs -/

/-- The open descriptors are the one in `fileFd_`, none was closed that was not open, and each that
was ever opened has been closed once when the connection is closed. -/
structure Conserved (w : TcpLoop) : Prop where
  only : ∀ fd, (w.files.get? fd).isSome ↔ w.conn.fileFd = some fd
  once : w.files.faults = []
  closed : w.conn.state = .kDisConnected → ∀ n < w.files.born, w.files.freed.count n = 1

/-- The books that are kept say that no descriptor is lost, and none is closed twice. -/
theorem conserved_iff : w.Conserved ↔ w.Owned := by
  constructor
  · intro h
    refine ⟨fun {fd file} hfile => ?_, fun {fd} hfd => ?_, h.once, fun hs => ?_⟩
    · exact (h.only fd).mp (Option.isSome_iff_exists.mpr ⟨file, hfile⟩)
    · exact Option.isSome_iff_exists.mp ((h.only fd).mpr hfd)
    · by_contra hstored
      obtain ⟨fd, hfd⟩ := Option.ne_none_iff_exists'.mp hstored
      obtain ⟨file, hfile⟩ := Option.isSome_iff_exists.mp ((h.only fd).mpr hfd)
      have hborn := w.files.serial_lt hfile
      rcases w.files.count_freed hborn with ⟨hzero, -⟩ | ⟨-, hdead⟩
      · have hone := h.closed hs _ hborn
        omega
      · exact hdead fd file hfile rfl
  · intro h
    refine ⟨fun fd => ⟨fun hsome => ?_, fun hfd => ?_⟩, h.faults, fun hs n hn => ?_⟩
    · obtain ⟨file, hfile⟩ := Option.isSome_iff_exists.mp hsome
      exact h.stored hfile
    · exact Option.isSome_iff_exists.mpr (h.held hfd)
    · rcases w.files.count_freed hn with ⟨-, fd, file, hfile, -⟩ | ⟨hone, -⟩
      · have hstored := h.stored hfile
        rw [h.closed hs] at hstored
        contradiction
      · exact hone

/-- Without an open file there is nothing to keep. -/
theorem owned_start (fd : Nat) (callbacks : Callback → Bool) (disk : Bytes → Bytes) :
    (start fd callbacks disk).Owned where
  stored hfile := by simp [desk, start, Arena.empty, Arena.get?] at hfile
  held := nofun
  faults := rfl
  closed _ := rfl

/-- All along a run the descriptors are conserved exactly if no step opens a file, and none destroys
a connected connection, while `fileFd_` stores a descriptor. -/
theorem conserved_iff_of_run {fd : Nat} {callbacks : Callback → Bool} {disk : Bytes → Bytes}
    {as : List Action} (h : Run step anyStep (start fd callbacks disk) as w) :
    Always step (start fd callbacks disk) as Conserved ↔
      Run step FileDone (start fd callbacks disk) as w := by
  refine h.always_iff (conserved_iff.mpr (owned_start fd callbacks disk)) fun bs t a u _ ht hs => ?_
  rw [conserved_iff] at ht ⊢
  refine ⟨fun hu => ?_, fun hg => ht.step hg hs⟩
  by_contra hg
  exact not_owned_of_step ht hg hs hu

/-- Two files are sent one after the other, each in one piece, and the peer closes. -/
def fileAfterFile : List Action :=
  establishing ++ [.call (.sendFile [20, 21]), .run { timer := 2, opened := .opened 5 }, .ret] ++
  writeable 2 .again (.done 9) ++
  [.call (.sendFile [30]), .run { timer := 1, opened := .opened 5 }, .call .forceClose,
    .run { timer := 1 }]

theorem conserved_iff_of_run_fileAfterFile :
    ∃ w, Run step anyStep (start 7 (fun _ => true) id) fileAfterFile w ∧
      w.conn.state = .kDisConnected ∧ w.files.freed = [0, 1] ∧
      (Always step (start 7 (fun _ => true) id) fileAfterFile Conserved ↔
        Run step FileDone (start 7 (fun _ => true) id) fileAfterFile w) := by
  have hreplay : (replay step anyStep (start 7 (fun _ => true) id) fileAfterFile).map
      (fun w => (w.conn.state, w.files.freed)) = some (.kDisConnected, [0, 1]) := by
    decide +kernel
  obtain ⟨w, hw, he⟩ := Option.map_eq_some_iff.mp hreplay
  obtain ⟨hstate, hfreed⟩ := Prod.mk.inj he
  exact ⟨w, .of_replay hw, hstate, hfreed, conserved_iff_of_run (.of_replay hw)⟩

/-- A connection is destroyed while it sends a file. -/
def destroyedWhileSending : List Action :=
  establishing ++ [.call (.sendFile [20, 21, 22]), .run { timer := 2, opened := .opened 5 },
    .connectDestroyed, .run { timer := 2 }]

/-- The first of two files is never closed, nor is the file of a connection that is destroyed. -/
theorem descriptor_lost :
    (∃ w, Run step anyStep (start 7 (fun _ => true) id) fileThenFile w ∧
      (w.files.get? 5).isSome = true ∧ w.conn.fileFd ≠ some 5) ∧
    ∃ w, Run step anyStep (start 7 (fun _ => true) id) destroyedWhileSending w ∧
      w.conn.state = .kDisConnected ∧ ¬∀ n < w.files.born, w.files.freed.count n = 1 := by
  constructor
  · have hreplay : (replay step anyStep (start 7 (fun _ => true) id) fileThenFile).map
        (fun w => ((w.files.get? 5).isSome, decide (w.conn.fileFd = some 5))) =
          some (true, false) := by
      decide +kernel
    obtain ⟨w, hw, he⟩ := Option.map_eq_some_iff.mp hreplay
    obtain ⟨hopen, hstored⟩ := Prod.mk.inj he
    exact ⟨w, .of_replay hw, hopen, of_decide_eq_false hstored⟩
  · have hreplay : (replay step anyStep (start 7 (fun _ => true) id) destroyedWhileSending).map
        (fun w => (w.conn.state, w.files.born, w.files.freed)) = some (.kDisConnected, 1, []) := by
      decide +kernel
    obtain ⟨w, hw, he⟩ := Option.map_eq_some_iff.mp hreplay
    obtain ⟨hstate, hrest⟩ := Prod.mk.inj he
    obtain ⟨hborn, hfreed⟩ := Prod.mk.inj hrest
    refine ⟨w, .of_replay hw, hstate, fun hall => ?_⟩
    have hone := hall 0 (by rw [hborn]; exact Nat.one_pos)
    rw [hfreed] at hone
    contradiction

end TcpLoop

end ClearMoon.Tcp

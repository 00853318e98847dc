import ClearMoon.Tcp.Machine

/-!
# What the output of a connection depends on

A `View` gathers the members that the output passes through and the functors that carry it. The
operations on channels, timers and retransmission entries leave the view alone; `Closes` and `Flow`
say what closing a connection and its event handlers do to it.
-/

namespace ClearMoon.Tcp

open ClearMoon.Net ClearMoon.Timer

/-- The output that a functor carries into the loop. -/
def Functor.output? : Functor → Option Output
  | .sendInLoop data => some (.message data)
  | .sendFileInLoop filePath => some (.file filePath)
  | _ => none

/-- The functor was queued by `shutdown` or `forceClose`. -/
def Functor.closes : Functor → Bool
  | .shutdownInLoop | .forceCloseInLoop => true
  | _ => false

/-! ## Reading a trace -/

/-- All events but the callbacks. -/
def Event.isOutput : Event → Bool
  | .invoked _ => false
  | _ => true

def Event.accepted? : Event → Option Output
  | .accepted o => some o
  | _ => none

def Event.taken? : Event → Option Output
  | .taken o => some o
  | _ => none

def Event.wroteBytes : Event → Bytes
  | .wrote data => data
  | _ => []

def Event.sentBytes : Event → Bytes
  | .sentFile data => data
  | _ => []

/-- The outputs that were accepted, in call order. -/
def accepted (trace : List Event) : List Output := trace.filterMap Event.accepted?

/-- The outputs that the loop has begun to work on. -/
def taken (trace : List Event) : List Output := trace.filterMap Event.taken?

/-- The bytes handed over by `::write`. -/
def wrote (trace : List Event) : Bytes := trace.flatMap Event.wroteBytes

/-- The bytes handed over by `::sendfile`. -/
def sentFile (trace : List Event) : Bytes := trace.flatMap Event.sentBytes

/-- The bytes handed to the kernel. -/
def handed (trace : List Event) : Bytes := trace.flatMap fun e => e.wroteBytes ++ e.sentBytes

/-- An event accepts one output at most. -/
theorem accepted_concat (trace : List Event) (e : Event) :
    accepted (trace ++ [e]) = accepted trace ++ e.accepted?.toList := by
  rw [accepted, List.filterMap_append]
  cases h : e.accepted? <;> simp [accepted, h]

/-- An event takes one output at most into the loop. -/
theorem taken_concat (trace : List Event) (e : Event) :
    taken (trace ++ [e]) = taken trace ++ e.taken?.toList := by
  rw [taken, List.filterMap_append]
  cases h : e.taken? <;> simp [taken, h]

/-- The bytes written grow at their end. -/
theorem wrote_concat (trace : List Event) (e : Event) :
    wrote (trace ++ [e]) = wrote trace ++ e.wroteBytes := by
  rw [wrote, List.flatMap_append, List.flatMap_singleton]
  rfl

/-- So do the bytes sent from files. -/
theorem sentFile_concat (trace : List Event) (e : Event) :
    sentFile (trace ++ [e]) = sentFile trace ++ e.sentBytes := by
  rw [sentFile, List.flatMap_append, List.flatMap_singleton]
  rfl

/-- So do the bytes handed over. -/
theorem handed_concat (trace : List Event) (e : Event) :
    handed (trace ++ [e]) = handed trace ++ (e.wroteBytes ++ e.sentBytes) := by
  rw [handed, List.flatMap_append, List.flatMap_singleton]
  rfl

/-- Dropping elements that stand for nothing does not change what a list stands for. -/
private theorem flatMap_filter {α β : Type} {p : α → Bool} {f : α → List β}
    (h : ∀ x, p x = false → f x = []) (l : List α) : (l.filter p).flatMap f = l.flatMap f := by
  induction l with
  | nil => rfl
  | cons x l ih =>
    cases hx : p x with
    | false => rw [List.filter_cons_of_neg (by simp [hx]), List.flatMap_cons, h x hx, ih]; rfl
    | true => rw [List.filter_cons_of_pos hx, List.flatMap_cons, List.flatMap_cons, ih]

/-- A callback is no output. -/
theorem Event.of_isOutput {e : Event} (h : e.isOutput = false) :
    e.accepted? = none ∧ e.wroteBytes = [] ∧ e.sentBytes = [] := by
  cases e with
  | invoked cb => exact ⟨rfl, rfl, rfl⟩
  | _ => contradiction

/-! Callbacks play no part in what has been accepted and handed over. -/

/-- What was accepted does not depend on the callbacks in the trace. -/
theorem accepted_filter (trace : List Event) :
    accepted (trace.filter Event.isOutput) = accepted trace := by
  rw [accepted, List.filterMap_filter]
  refine congrArg (List.filterMap · trace) (funext fun e => ?_)
  cases e <;> rfl

/-- Nor does what was taken. -/
theorem taken_filter (trace : List Event) :
    taken (trace.filter Event.isOutput) = taken trace := by
  rw [taken, List.filterMap_filter]
  refine congrArg (List.filterMap · trace) (funext fun e => ?_)
  cases e <;> rfl

theorem wrote_filter (trace : List Event) :
    wrote (trace.filter Event.isOutput) = wrote trace :=
  flatMap_filter (fun _ he => (Event.of_isOutput he).2.1) trace

theorem sentFile_filter (trace : List Event) :
    sentFile (trace.filter Event.isOutput) = sentFile trace :=
  flatMap_filter (fun _ he => (Event.of_isOutput he).2.2) trace

/-- Nor what was handed over. -/
theorem handed_filter (trace : List Event) :
    handed (trace.filter Event.isOutput) = handed trace := by
  refine flatMap_filter (fun e he => ?_) trace
  obtain ⟨-, hwrote, hsent⟩ := Event.of_isOutput he
  rw [hwrote, hsent, List.append_nil]

/-- The bytes of the outputs, one after the other. -/
def contents (disk : Bytes → Bytes) (os : List Output) : Bytes := os.flatMap (Output.content disk)

/-! ## The view -/

/-- What the output of a connection depends on. -/
structure View where
  state : StateE
  aborted : Bool
  /-- The content of the files. -/
  disk : Bytes → Bytes
  /-- `channel_.isWriting()`. -/
  writing : Bool
  /-- The readable bytes of `writeBuffer_`. -/
  buffered : Bytes
  /-- What is left of the file in progress. -/
  unsent : Bytes
  /-- `fileTotalSize_` is the size of the open file. -/
  sized : Bool
  todo : Option Functor
  func : List Functor
  pendingFunc : List Functor
  /-- The events that are no callbacks. -/
  trace : List Event

/-- The states that a connection does not come back from. -/
def Forward (s t : StateE) : Prop :=
  (s = .kDisConnected → t = .kDisConnected) ∧
    (s = .kDisConnecting → t = .kDisConnecting ∨ t = .kDisConnected)

/-- Staying is going forward. -/
theorem forward_rfl (s : StateE) : Forward s s := ⟨id, .inl⟩

/-- What `handleClose` does: nothing twice, and an assertion fails before the connection is
established. A file in progress is dropped, the buffered bytes are kept. -/
inductive Closes (v : View) : View → Prop
  | already (h : v.state = .kDisConnected) : Closes v v
  | closed (h : v.state = .kConnected ∨ v.state = .kDisConnecting) :
      Closes v { v with state := .kDisConnected, unsent := [], sized := true }
  | aborted (h : v.state = .kConnecting) : Closes v { v with aborted := true }

/-- What `handleRead` and `handleWrite` do to the view, up to the next callback. -/
inductive Flow (v : View) : View → Prop
  | quiet : Flow v v
  /-- Buffered bytes are written. -/
  | drain {hd tl b} (hbuffered : v.buffered = hd ++ tl)
      (hb : b = v.writing ∨ (b = false ∧ tl = [] ∧ v.unsent = [])) :
      Flow v { v with buffered := tl, writing := b, trace := v.trace ++ [.wrote hd] }
  /-- Bytes of the file are sent. -/
  | transfer {hd tl b} (hbuffered : v.buffered = []) (hunsent : v.unsent = hd ++ tl)
      (hb : b = v.writing ∨ (b = false ∧ tl = [])) :
      Flow v { v with unsent := tl, writing := b, trace := v.trace ++ [.sentFile hd] }
  | close {u b v'} (hu : u = [] ∨ u = v.unsent)
      (h : Closes { v with unsent := u, writing := b, sized := true } v') : Flow v v'

/-- `handleClose` as an event handler. -/
theorem Flow.ofCloses {v v' : View} (hsized : v.sized = true) (h : Closes v v') : Flow v v' := by
  refine .close (u := v.unsent) (b := v.writing) (.inr rfl) ?_
  rwa [← hsized]

namespace TcpLoop

/-- The file in progress has the size that `fstat` has returned. -/
def sized (w : TcpLoop) : Bool :=
  w.conn.fileFd.isNone || w.file?.any fun file => file.content.length = w.conn.fileTotalSize

def view (w : TcpLoop) : View where
  state := w.conn.state
  aborted := w.aborted
  disk := w.disk
  writing := w.conn.channel.isWriting
  buffered := w.conn.writeBuffer.readable
  unsent := w.unsent
  sized := w.sized
  todo := w.todo
  func := w.func
  pendingFunc := w.pendingFunc
  trace := w.trace.filter Event.isOutput

variable {w : TcpLoop}

/-! ### Operations outside the view -/

@[simp] theorem view_clearTodo : w.clearTodo.view = { w.view with todo := none } := rfl

/-- In the loop thread a functor is run next. -/
theorem view_runInLoop_true (f : Functor) :
    (w.runInLoop true f).view = { w.view with todo := some f } := rfl

/-- From another thread it goes behind the queued ones. -/
theorem view_runInLoop_false (f : Functor) :
    (w.runInLoop false f).view = { w.view with pendingFunc := w.pendingFunc ++ [f] } := rfl

@[simp] theorem view_push (frame : Frame) : (w.push frame).view = w.view := rfl

@[simp] theorem view_note {e : Event} (he : e.isOutput = true) :
    (w.note e).view = { w.view with trace := w.view.trace ++ [e] } := by
  have hfilter : (w.trace ++ [e]).filter Event.isOutput = w.view.trace ++ [e] := by
    rw [List.filter_append, List.filter_cons_of_pos he, List.filter_nil]
    rfl
  exact congrArg (fun trace => { w.view with trace }) hfilter

@[simp] theorem view_invoke (cb : Callback) : (w.invoke cb).view = w.view := by
  have hfilter : (w.trace ++ [Event.invoked cb]).filter Event.isOutput = w.view.trace := by
    rw [List.filter_append, List.filter_cons_of_neg (by simp [Event.isOutput]), List.filter_nil,
      List.append_nil]
    rfl
  rw [invoke]
  split
  · exact congrArg (fun trace => { w.view with trace }) hfilter
  · rfl

@[simp] theorem view_enableReading : w.enableReading.view = w.view :=
  congrArg (fun writing => { w.view with writing }) (Channel.isWriting_enableReading ..)

@[simp] theorem view_enableWriting : w.enableWriting.view = { w.view with writing := true } :=
  congrArg (fun writing => { w.view with writing }) (Channel.isWriting_enableWriting ..)

@[simp] theorem view_disableWriting :
    w.disableWriting.view = { w.view with writing := false } :=
  congrArg (fun writing => { w.view with writing }) (Channel.isWriting_disableWriting ..)

@[simp] theorem view_removeChannel : w.removeChannel.view = w.view :=
  congrArg (fun events => { w.view with writing := events.epollout }) (Channel.events_remove ..)

/-- Cancelling a timer works on the timer queue. -/
theorem cancel_frame (w : TcpLoop) (id : Option TimerId) :
    ∃ queue, w.cancel id = { w with timers.queue := queue } := by
  cases id with
  | none => exact ⟨_, rfl⟩
  | some id => exact ⟨_, rfl⟩

/-- Adding a timer works on the timer queue. -/
theorem runAfter_frame (w : TcpLoop) (micros : Int) (cb : Task) (timer : Addr) :
    ∃ queue, (w.runAfter micros cb timer).2 = { w with timers.queue := queue } := by
  rw [runAfter]
  split
  · exact ⟨_, rfl⟩
  · exact ⟨_, rfl⟩

/-- Cancelling the timers of the entries touches the timer queue alone. -/
theorem foldl_cancel_frame (nodes : List (Nat × RetransmitNode)) (w : TcpLoop) :
    ∃ queue, nodes.foldl (fun w kv => w.cancel kv.2.entry.timerId) w =
      { w with timers.queue := queue } := by
  induction nodes generalizing w with
  | nil => exact ⟨_, rfl⟩
  | cons kv nodes ih =>
    obtain ⟨queue, hcancel⟩ := w.cancel_frame kv.2.entry.timerId
    obtain ⟨queue', hrest⟩ := ih (w.cancel kv.2.entry.timerId)
    exact ⟨queue', by rw [List.foldl_cons, hrest, hcancel]⟩

@[simp] theorem view_cancelIdleTimer : w.cancelIdleTimer.view = w.view := by
  obtain ⟨queue, h⟩ := w.cancel_frame w.conn.idleTimerId
  rw [cancelIdleTimer, h]
  rfl

@[simp] theorem view_clearRetrans : w.clearRetrans.view = w.view := by
  obtain ⟨queue, h⟩ := foldl_cancel_frame w.conn.pendingRetrans.toList w
  rw [clearRetrans, h]
  rfl

/-- Restarting the idle timer works on the timer queue and the timer's id. -/
theorem resetIdleTimer_frame (w : TcpLoop) (env : Env) :
    ∃ queue id, w.resetIdleTimer env =
      { w with timers.queue := queue, conn.idleTimerId := id } := by
  obtain ⟨queue, hcancel⟩ := w.cancel_frame w.conn.idleTimerId
  have hidle : w.cancelIdleTimer =
      { w with timers.queue := queue, conn.idleTimerId := none } := by
    rw [cancelIdleTimer, hcancel]
  obtain ⟨queue', h⟩ := w.cancelIdleTimer.runAfter_frame kTimeoutMicros .onIdleTimeout env.timer
  refine ⟨queue', (w.cancelIdleTimer.runAfter kTimeoutMicros .onIdleTimeout env.timer).1, ?_⟩
  rw [resetIdleTimer]
  dsimp only
  rw [h, hidle]

@[simp] theorem view_resetIdleTimer (env : Env) : (w.resetIdleTimer env).view = w.view := by
  obtain ⟨queue, id, h⟩ := w.resetIdleTimer_frame env
  rw [h]
  rfl

/-- Restarting a retransmit timer works on the timer queue and the entries. -/
theorem resetRetransmitTimer_frame (w : TcpLoop) (node : RetransmitNode) (env : Env) :
    ∃ queue pendingRetrans, w.resetRetransmitTimer node env =
      { w with timers.queue := queue, conn.pendingRetrans := pendingRetrans } := by
  obtain ⟨queue, hcancel⟩ := w.cancel_frame node.entry.timerId
  simp only [resetRetransmitTimer, hcancel]
  generalize (↑(caculate_backoff_jitter _ _ _ _) * 1000 : Int) = micros
  obtain ⟨queue', h⟩ := runAfter_frame { w with timers.queue := queue } micros
    (.onRetransmitTimeout node.entry.seq) env.timer
  rw [h]
  exact ⟨_, _, rfl⟩

/-- So does `sendWithRetransmit` behind `send`, which may make a node. -/
theorem sendFuncEnd_frame (w : TcpLoop) (data : Bytes) (seq : Nat) (env : Env) :
    ∃ queue pendingRetrans nextNode, w.sendFuncEnd data seq env =
      { w with timers.queue := queue, nextNode, conn.pendingRetrans := pendingRetrans } := by
  rw [sendFuncEnd]
  split
  · rename_i node _
    obtain ⟨queue, pendingRetrans, h⟩ :=
      w.resetRetransmitTimer_frame { node with entry := { seq, data } } env
    exact ⟨queue, pendingRetrans, w.nextNode, h⟩
  · obtain ⟨queue, pendingRetrans, h⟩ := resetRetransmitTimer_frame
      { w with nextNode := w.nextNode + 1 } ⟨w.nextNode, { seq, data }⟩ env
    exact ⟨queue, pendingRetrans, w.nextNode + 1, h⟩

/-- An ack touches the entries and the timer queue alone. -/
theorem ackReceived_frame (w : TcpLoop) (seq : Nat) :
    ∃ queue pendingRetrans, w.ackReceived seq =
      { w with timers.queue := queue, conn.pendingRetrans := pendingRetrans } := by
  rw [ackReceived]
  split
  · exact ⟨w.timers.queue, w.conn.pendingRetrans, rfl⟩
  · rename_i node _
    obtain ⟨queue, h⟩ := w.cancel_frame node.entry.timerId
    rw [h]
    exact ⟨_, _, rfl⟩

/-- What is done through a dangling reference stays in the entries and the timer queue. -/
theorem followErased_frame (w : TcpLoop) (node : Nat) (env : Env) :
    ∃ queue pendingRetrans, w.followErased node env =
      { w with
        timers.queue := queue
        dangling := w.dangling ++ [node]
        conn.pendingRetrans := pendingRetrans } := by
  rw [followErased]
  dsimp only
  split
  · rename_i n _
    exact resetRetransmitTimer_frame _ { n with entry.retries := n.entry.retries + 1 } env
  · obtain ⟨queue, h⟩ := runAfter_frame { w with dangling := w.dangling ++ [node] }
      (caculate_backoff_jitter kBaseTimeout (env.stale.retries + 1) kMaxTimeout env.draw * 1000)
      (.onRetransmitTimeout env.stale.seq) env.timer
    exact ⟨queue, w.conn.pendingRetrans, h⟩

/-- `onRetransmitTimeout` behind `sendInLoop` may follow a dangling reference besides. -/
theorem onRetransmitTimeoutEnd_frame (w : TcpLoop) (seq node : Nat) (env : Env) :
    ∃ queue pendingRetrans dangling, w.onRetransmitTimeoutEnd seq node env =
      { w with timers.queue := queue, dangling, conn.pendingRetrans := pendingRetrans } := by
  obtain ⟨queue, pendingRetrans, herased⟩ := w.followErased_frame node env
  rw [onRetransmitTimeoutEnd]
  split
  · exact ⟨queue, pendingRetrans, _, herased⟩
  · rename_i n _
    split
    · exact ⟨queue, pendingRetrans, _, herased⟩
    · obtain ⟨queue, pendingRetrans, h⟩ :=
        w.resetRetransmitTimer_frame { n with entry.retries := n.entry.retries + 1 } env
      exact ⟨queue, pendingRetrans, w.dangling, h⟩

@[simp] theorem view_sendFuncEnd (data : Bytes) (seq : Nat) (env : Env) :
    (w.sendFuncEnd data seq env).view = w.view := by
  obtain ⟨queue, pendingRetrans, nextNode, h⟩ := w.sendFuncEnd_frame data seq env
  rw [h]
  rfl

@[simp] theorem view_ackReceived (seq : Nat) : (w.ackReceived seq).view = w.view := by
  obtain ⟨queue, pendingRetrans, h⟩ := w.ackReceived_frame seq
  rw [h]
  rfl

@[simp] theorem view_onRetransmitTimeoutEnd (seq node : Nat) (env : Env) :
    (w.onRetransmitTimeoutEnd seq node env).view = w.view := by
  obtain ⟨queue, pendingRetrans, dangling, h⟩ := w.onRetransmitTimeoutEnd_frame seq node env
  rw [h]
  rfl

/-! ### Closing -/

/-- Closing the file touches the open files, and `fileFd_`. -/
theorem closeFile_frame (w : TcpLoop) :
    ∃ files, w.closeFile = { w with files, conn.fileFd := none } := by
  rw [closeFile]
  split
  · rename_i hfd
    exact ⟨w.files, by rw [← hfd]⟩
  · exact ⟨_, rfl⟩

/-- Without a file nothing of it is unsent, and no size can be wrong. -/
theorem view_dropFile : w.dropFile.view = { w.view with unsent := [], sized := true } := by
  obtain ⟨files, h⟩ := w.closeFile_frame
  rw [dropFile, h]
  rfl

/-- `handleClose` of an open connection drops the file and keeps the buffered bytes. -/
theorem view_handleClose (h : w.conn.state = .kConnected ∨ w.conn.state = .kDisConnecting) :
    w.handleClose.view = { w.view with state := .kDisConnected, unsent := [], sized := true } := by
  have hreset : ∀ v : TcpLoop,
      { v.dropFile with conn.fileSentOffset := 0, conn.fileTotalSize := 0 }.view =
        { v.view with unsent := [], sized := true } := by
    intro v
    obtain ⟨files, h⟩ := v.closeFile_frame
    rw [dropFile, h]
    rfl
  rw [handleClose]
  rcases h with h | h
  · simp only [h, view_invoke, view_clearRetrans, view_cancelIdleTimer, hreset,
      view_removeChannel]
    rfl
  · simp only [h, view_invoke, view_clearRetrans, view_cancelIdleTimer, hreset,
      view_removeChannel]
    rfl

/-- Whatever the state, `handleClose` is a close. -/
theorem closes_handleClose : Closes w.view w.handleClose.view := by
  cases h : w.conn.state with
  | kConnecting =>
    simp only [handleClose, h]
    exact .aborted h
  | kConnected =>
    rw [view_handleClose (.inl h)]
    exact .closed (.inl h)
  | kDisConnecting =>
    rw [view_handleClose (.inr h)]
    exact .closed (.inr h)
  | kDisConnected =>
    simp only [handleClose, h]
    exact .already h

/-- `forceCloseInLoop` closes an open connection and leaves every other one alone. -/
theorem forceCloseInLoop_cases :
    Closes w.view w.forceCloseInLoop.view ∨
      (w.conn.state = .kConnecting ∧ w.forceCloseInLoop = w) := by
  rw [forceCloseInLoop]
  split
  · exact .inl closes_handleClose
  · cases h : w.conn.state with
    | kConnecting => exact .inr ⟨rfl, rfl⟩
    | kConnected => simp_all
    | kDisConnecting => simp_all
    | kDisConnected => exact .inl (.already h)

/-! ### Sending -/

/-- What is appended goes behind the buffered bytes, and is watched for. -/
theorem view_appendOutput (rest : Bytes) :
    (w.appendOutput rest).view = { w.view with
      buffered := w.view.buffered ++ rest
      writing := w.view.writing || rest ≠ [] } := by
  have happend : { w with conn.writeBuffer := w.conn.writeBuffer.append rest }.view =
      { w.view with buffered := w.view.buffered ++ rest } :=
    congrArg (fun buffered => { w.view with buffered }) (Buffer.readable_append ..)
  rw [appendOutput]
  split
  · rename_i hrest
    simp [hrest]
  · rename_i hrest
    dsimp only
    split
    · rw [view_enableWriting, happend]
      simp [hrest]
    · rename_i hwriting
      have hwriting : w.view.writing = true := by
        change w.conn.channel.isWriting = true
        simpa using hwriting
      rw [happend, hwriting, Bool.true_or, ← hwriting]

/-- The rest of a message is appended, and the channel watches for `EPOLLOUT`. -/
theorem view_sendRest (rest : Bytes) :
    ∃ todo, (todo = w.todo ∨ todo = some .shutdownInLoop) ∧
      (w.sendRest rest).view = { w.view with
        buffered := w.view.buffered ++ rest
        writing := w.view.writing || rest ≠ []
        todo } := by
  have hview := view_appendOutput (w := w) rest
  rw [sendRest]
  generalize w.appendOutput rest = v at hview ⊢
  dsimp only
  split
  · exact ⟨_, .inr rfl, congrArg (fun v : View => { v with todo := some .shutdownInLoop }) hview⟩
  · exact ⟨_, .inl rfl, hview⟩

/-- The view depends on the open files only by what can be looked up. -/
theorem view_files {files : Arena OpenFile OpenFile.serial}
    (h : ∀ fd, files.get? fd = w.files.get? fd) : { w with files }.view = w.view := by
  have hfile : { w with files }.file? = w.file? := by
    rw [file?, file?]
    cases w.conn.fileFd with
    | none => rfl
    | some fd => exact h fd
  have hunsent : { w with files }.unsent = w.unsent := by rw [unsent, unsent, hfile]
  have hsized : { w with files }.sized = w.sized := by rw [sized, sized, hfile]
  rw [view, view, hunsent, hsized]

/-- A file that is opened and closed at once leaves no trace. -/
theorem view_openFile_free (filePath : Bytes) {fd : Addr} (hfd : w.files.get? fd = none) :
    { w.openFile filePath fd with files := (w.openFile filePath fd).files.free fd }.view =
      w.view := by
  simp only [openFile, hfd, dite_true]
  refine view_files fun a => ?_
  rw [Arena.get?_free, Arena.get?_alloc]
  split
  · rename_i ha
    rw [← ha, hfd]
  · rfl

/-- A file that has been opened to be sent is unsent as a whole. -/
theorem view_setFile (filePath : Bytes) {fd : Addr} (hfd : w.files.get? fd = none) :
    ((w.openFile filePath fd).setFile fd (w.disk filePath).length).view =
      { w.view with unsent := w.disk filePath, sized := true } := by
  have hfile : ((w.openFile filePath fd).setFile fd (w.disk filePath).length).file? =
      some ⟨w.files.born, w.disk filePath⟩ := by
    simp [openFile, hfd, setFile, file?]
  have hunsent : ((w.openFile filePath fd).setFile fd (w.disk filePath).length).unsent =
      w.disk filePath := by
    rw [unsent, hfile]
    simp [setFile]
  have hsized : ((w.openFile filePath fd).setFile fd (w.disk filePath).length).sized = true := by
    rw [sized, hfile]
    simp [setFile]
  rw [view, hunsent, hsized]
  simp only [openFile, hfd, dite_true]
  rfl

/-- What `::write` takes of the buffer. -/
theorem view_writeFd (n : Nat) :
    (w.writeFd n).view = { w.view with
      buffered := w.view.buffered.drop n
      trace := w.view.trace ++ [.wrote (w.view.buffered.take n)] } := by
  have hbuffer : { w with conn.writeBuffer := w.conn.writeBuffer.retrieve n }.view =
      { w.view with buffered := w.view.buffered.drop n } :=
    congrArg (fun buffered => { w.view with buffered }) (Buffer.readable_retrieve ..)
  simp only [writeFd, Buffer.writeFd]
  rw [view_note rfl, hbuffer]
  rfl

/-! ## What the event handlers do -/

/-- A read has nothing to do with the output, unless it closes the connection. -/
theorem flow_handleRead (env : Env) (hsized : w.view.sized = true) :
    Flow w.view (w.handleRead env).view := by
  rw [handleRead]
  split
  · exact .ofCloses hsized closes_handleClose
  · rw [view_invoke, view_resetIdleTimer]
    exact .quiet
  · exact .quiet
  · exact .ofCloses hsized closes_handleClose

@[simp] theorem sendingFile_writeFd (n : Nat) :
    (w.writeFd n).conn.sendingFile = w.conn.sendingFile := rfl

/-- Nothing is buffered exactly if `readableBytes()` is 0. -/
theorem buffered_eq_nil : w.view.buffered = [] ↔ w.conn.writeBuffer.readableBytes = 0 := by
  rw [← Buffer.length_readable, List.length_eq_zero_iff]
  rfl

/-- Nothing is unsent while no file is in progress. -/
theorem unsent_idle (h : w.conn.sendingFile = false) : w.unsent = [] := by
  rw [unsent]
  split
  · rfl
  · rw [h, if_neg Bool.false_ne_true]

/-- Advancing the offset takes bytes off what is unsent. -/
theorem unsent_advance (k : Nat) :
    { w with conn.fileSentOffset := w.conn.fileSentOffset + k }.unsent = w.unsent.drop k := by
  have hfile : { w with conn.fileSentOffset := w.conn.fileSentOffset + k }.file? = w.file? := rfl
  rw [unsent, unsent, hfile]
  cases w.file? with
  | none => rw [List.drop_nil]
  | some file =>
    dsimp only
    split
    · rw [List.drop_drop]
    · rw [List.drop_nil]

/-- When the offset reaches the size that `fstat` returned, nothing is left of the file. -/
theorem drop_unsent (hsized : w.view.sized = true) {k : Nat}
    (hk : w.conn.fileTotalSize ≤ w.conn.fileSentOffset + k) : w.unsent.drop k = [] := by
  change (w.conn.fileFd.isNone || w.file?.any _) = true at hsized
  rw [unsent]
  cases hfile : w.file? with
  | none => rw [List.drop_nil]
  | some file =>
    have hsize : file.content.length = w.conn.fileTotalSize := by
      cases hfd : w.conn.fileFd with
      | none => simp [file?, hfd] at hfile
      | some fd => simpa [hfd, hfile] using hsized
    dsimp only
    split
    · rw [List.drop_drop, List.drop_eq_nil_of_le (by omega)]
    · rw [List.drop_nil]

/-- With the buffer empty the unsent bytes of the file go to the kernel from their front. -/
theorem flow_sendfile (n : Nat) (hsized : w.view.sized = true)
    (hbuffered : w.view.buffered = []) : Flow w.view (w.sendfile n).view := by
  have hsplit : w.unsent = _ := (List.prefix_iff_eq_append.mp
    (List.take_prefix (min n chunkSize) w.unsent)).symm
  rw [sendfile]
  generalize w.unsent.take (min n chunkSize) = sent at hsplit ⊢
  dsimp only
  split
  · exact .quiet
  · have hview : ({ w with conn.fileSentOffset := w.conn.fileSentOffset + sent.length }.note
        (Event.sentFile sent)).view = { w.view with
          unsent := w.unsent.drop sent.length
          trace := w.view.trace ++ [.sentFile sent] } := by
      rw [view_note rfl]
      exact congrArg (fun unsent => { w.view with
        unsent, trace := w.view.trace ++ [Event.sentFile sent] }) (unsent_advance sent.length)
    split
    · rename_i htotal
      have htl := drop_unsent hsized htotal
      rw [htl] at hsplit
      rw [view_invoke, view_disableWriting, view_dropFile, hview]
      dsimp only
      rw [← hsized]
      exact .transfer hbuffered hsplit (.inr ⟨rfl, rfl⟩)
    · rw [hview]
      exact .transfer hbuffered hsplit (.inl rfl)

/-- With no file in progress the buffered bytes go to the kernel from their front. -/
theorem flow_handleWriteBuffer (env : Env) (hsized : w.view.sized = true)
    (hunsent : w.unsent = []) : Flow w.view (w.handleWriteBuffer env).view := by
  rw [handleWriteBuffer]
  split
  · split
    · rename_i n _
      dsimp only
      rw [view_invoke]
      have hview := view_writeFd (w := w.push .handleWriteEnd) (n + 1)
      rw [view_push] at hview
      have hsplit := (List.take_append_drop (n + 1) w.view.buffered).symm
      generalize (w.push .handleWriteEnd).writeFd (n + 1) = v at hview ⊢
      split
      · rename_i hempty
        rw [← buffered_eq_nil, hview] at hempty
        rw [view_disableWriting, hview]
        exact .drain hsplit (.inr ⟨rfl, hempty, hunsent⟩)
      · rw [hview]
        exact .drain hsplit (.inl rfl)
    · exact .quiet
    · exact .ofCloses hsized closes_handleClose
    · exact .ofCloses hsized closes_handleClose
  · exact .quiet

/-- With the buffer empty the file goes on, or fails and is dropped with the connection. -/
theorem flow_handleWriteFile (env : Env) (hsized : w.view.sized = true)
    (hbuffered : w.view.buffered = []) : Flow w.view (w.handleWriteFile env).view := by
  rw [handleWriteFile]
  split
  · split
    · exact flow_sendfile _ hsized hbuffered
    · exact .quiet
    · refine .close (u := []) (b := false) (.inl rfl) ?_
      have h := closes_handleClose (w := w.dropFile.disableWriting)
      rwa [view_disableWriting, view_dropFile] at h
  · rename_i hfile
    refine flow_handleWriteBuffer env hsized ?_
    rw [unsent]
    split
    · rfl
    · rename_i file hopen
      rw [if_neg]
      intro hsending
      refine hfile ⟨hsending, ?_⟩
      cases hfd : w.conn.fileFd with
      | none => simp [file?, hfd] at hopen
      | some fd => rfl

/-- Behind its first callback `handleWrite` transfers the file, if nothing is buffered again. -/
theorem flow_handleWriteRest (env : Env) (hsized : w.view.sized = true) :
    Flow w.view (w.handleWriteRest env).view := by
  rw [handleWriteRest]
  split
  · exact .quiet
  · rename_i hbuffered
    exact flow_handleWriteFile env hsized (buffered_eq_nil.mpr (by omega))

/-- The first block of `handleWrite` drains the buffer, and its second one transfers the file. -/
theorem flow_handleWrite (env : Env) (hsized : w.view.sized = true) :
    Flow w.view (w.handleWrite env).view := by
  rw [handleWrite]
  split
  · exact .quiet
  · have hidle := view_resetIdleTimer (w := w) env
    generalize w.resetIdleTimer env = v at hidle ⊢
    rw [← hidle] at hsized ⊢
    dsimp only
    split
    · have hpush : (v.push .handleWrite).view = v.view := view_push _
      rw [← hpush] at hsized ⊢
      generalize v.push .handleWrite = v at hsized ⊢
      split
      · rename_i n _
        rw [view_invoke]
        have hsplit := (List.take_append_drop (n + 1) v.view.buffered).symm
        have hview := view_writeFd (w := v) (n + 1)
        split
        · rename_i hempty
          rw [← buffered_eq_nil, hview] at hempty
          rw [view_disableWriting, hview]
          exact .drain hsplit (.inr ⟨rfl, hempty.1, unsent_idle (by simpa using hempty.2)⟩)
        · rw [hview]
          exact .drain hsplit (.inl rfl)
      · exact .quiet
      · exact .ofCloses hsized closes_handleClose
      · exact .ofCloses hsized closes_handleClose
    · rename_i hbuffered
      exact flow_handleWriteFile env hsized (buffered_eq_nil.mpr (by omega))

/-- One test of `Channel::handleEvent`. -/
theorem flow_handleEvent (env : Env) (stage : EventStage) (hsized : w.view.sized = true) :
    Flow w.view (w.handleEvent env stage).view := by
  cases stage with
  | error =>
    simp only [handleEvent]
    split
    · exact .ofCloses hsized (closes_handleClose (w := w.push _))
    · exact .quiet
  | read =>
    simp only [handleEvent]
    split
    · exact flow_handleRead (w := w.push _) env hsized
    · exact .quiet
  | hup =>
    simp only [handleEvent]
    split
    · exact .ofCloses hsized (closes_handleClose (w := w.push _))
    · exact .quiet
  | write =>
    simp only [handleEvent]
    split
    · exact flow_handleWrite env hsized
    · exact .quiet

/-! ### Reading the view -/

@[simp] theorem view_state : w.view.state = w.conn.state := rfl

@[simp] theorem view_aborted : w.view.aborted = w.aborted := rfl

@[simp] theorem view_disk : w.view.disk = w.disk := rfl

@[simp] theorem view_unsent : w.view.unsent = w.unsent := rfl

@[simp] theorem view_todo : w.view.todo = w.todo := rfl

@[simp] theorem view_func : w.view.func = w.func := rfl

@[simp] theorem view_pendingFunc : w.view.pendingFunc = w.pendingFunc := rfl

end TcpLoop

end ClearMoon.Tcp

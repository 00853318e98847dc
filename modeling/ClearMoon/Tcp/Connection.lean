import ClearMoon.Net.Buffer
import ClearMoon.Net.Channel
import ClearMoon.Timer.Machine

/-!
# Connections

The members of a `TcpConnection`, the functors and timers that hold it, and the event loop thread
it lives in. The loop thread is a machine with a stack: where the source invokes a user callback,
a frame for the user's code is pushed, on top of a frame for what the source does after it.
-/

namespace ClearMoon.Tcp

open ClearMoon.Net ClearMoon.Timer

/-- What a user of a connection may call. -/
inductive ConnCall where
  | send (data : Bytes)
  | sendFile (filePath : Bytes)
  | shutdown
  | forceClose
  | sendWithRetransmit (data : Bytes) (seq : Nat)
  | ackReceived (seq : Nat)
  deriving DecidableEq, Repr

/-- `TcpConnection::StateE`. -/
inductive StateE where
  | kConnecting
  | kConnected
  | kDisConnecting
  | kDisConnected
  deriving DecidableEq, Repr

/-- The callbacks that the owner of a connection may install. -/
inductive Callback where
  | connection
  | message
  | writeComplete
  | close
  deriving DecidableEq, Repr

/-- `TcpConnection::RetransmitEntry`; `TimerId()` is `none`. -/
structure RetransmitEntry where
  seq : Nat
  data : Bytes
  retries : Nat := 0
  timerId : Option TimerId := none
  deriving DecidableEq, Repr

/-- `RetransmitEntry::kMaxRetries`. -/
def kMaxRetries : Nat := 5

/-- `RetransmitEntry::kBaseTimeout`. -/
def kBaseTimeout : Nat := 1

/-- `RetransmitEntry::kMaxTimeout`. -/
def kMaxTimeout : Nat := 10

/-- The loop of `caculate_backoff_jitter`, which doubles up to the maximum. -/
def backoffLoop (max_delay_ms : Nat) : Nat → Nat → Nat
  | 0, cap_ms => cap_ms
  | retries + 1, cap_ms =>
    if cap_ms > max_delay_ms / 2 then max_delay_ms
    else backoffLoop max_delay_ms retries (cap_ms * 2)

/-- `caculate_backoff_jitter`: `draw` stands for the state of the generator. -/
def caculate_backoff_jitter (base_delay_ms retries max_delay_ms draw : Nat) : Nat :=
  let cap_ms := min (backoffLoop max_delay_ms retries base_delay_ms) max_delay_ms
  draw % (cap_ms + 1)

/-- A node of the map `pendingRetrans_`, with its own identity: a reference to an entry does not
survive the erasure of the node, even when the key is inserted again. -/
structure RetransmitNode where
  id : Nat
  entry : RetransmitEntry
  deriving DecidableEq, Repr

/-- An open file description. -/
structure OpenFile where
  serial : Nat
  content : Bytes
  deriving DecidableEq, Repr

/-- `net/TcpConnection.h`. -/
structure TcpConnection where
  state : StateE := .kConnecting
  channel : Channel
  writeBuffer : Buffer := .new
  readBuffer : Buffer := .new
  /-- Which callbacks are installed. -/
  callbacks : Callback → Bool
  /-- `fileFd_`; -1 is `none`. -/
  fileFd : Option Addr := none
  fileSentOffset : Nat := 0
  fileTotalSize : Nat := 0
  sendingFile : Bool := false
  idleTimerId : Option TimerId := none
  pendingRetrans : Std.ExtTreeMap Nat RetransmitNode := ∅

/-- `kTimeoutSeconds_`, in microseconds. -/
def kTimeoutMicros : Int := 60000000

/-- The callbacks of the timers in the loop. -/
inductive Task where
  | onIdleTimeout
  | onRetransmitTimeout (seq : Nat)
  /-- A timer that does not belong to the connection. -/
  | user
  deriving DecidableEq, Repr

/-- Code that a functor, a timer or the loop thread itself is to run. -/
inductive Functor where
  | connectEstablelished
  | connectDestroyed
  | sendInLoop (data : Bytes)
  | sendFileInLoop (filePath : Bytes)
  | shutdownInLoop
  | forceCloseInLoop
  /-- The lambda of `sendWithRetransmit`. -/
  | sendFunc (data : Bytes) (seq : Nat)
  | ackReceived (seq : Nat)
  | onIdleTimeout
  | onRetransmitTimeout (seq : Nat)
  /-- Code that does not belong to the connection. -/
  | user
  deriving DecidableEq, Repr

/-- What the loop thread runs when a timer has expired. -/
def Task.functor : Task → Functor
  | .onIdleTimeout => .onIdleTimeout
  | .onRetransmitTimeout seq => .onRetransmitTimeout seq
  | .user => .user

/-- The four tests of `Channel::handleEvent`. -/
inductive EventStage where
  | error
  | read
  | hup
  | write
  deriving DecidableEq, Repr

/-- What is left to do when the code above has returned. -/
inductive Frame where
  /-- User code, a callback of the connection or anything else that runs in the loop. -/
  | user (cb : Option Callback)
  /-- `Channel::handleEvent` from this test on. -/
  | handleEvent (stage : EventStage)
  /-- `handleWrite` behind the first `WriteFd`. -/
  | handleWrite
  /-- `handleWrite` behind the last `WriteFd`. -/
  | handleWriteEnd
  /-- `SendFunc` behind `send`. -/
  | sendFunc (data : Bytes) (seq : Nat)
  /-- `onRetransmitTimeout` behind `sendInLoop`, with its reference to a map node. -/
  | onRetransmitTimeout (seq node : Nat)
  /-- The loop of `TimerQueue::handleRead`. -/
  | timerQueue
  deriving DecidableEq, Repr

/-- What `epoll_wait` reports: the connection's channel, the timer queue's, or another one. -/
inductive Source where
  | conn
  | timerQueue
  | other (key : Nat)
  deriving DecidableEq, Repr

/-! ## Output, and what is observed of it -/

/-- What a user hands to a connection. -/
inductive Output where
  | message (data : Bytes)
  | file (filePath : Bytes)
  deriving DecidableEq, Repr

/-- The bytes of an output, given the files. -/
def Output.content (disk : Bytes → Bytes) : Output → Bytes
  | message data => data
  | file filePath => disk filePath

inductive Event where
  /-- An output has been handed to the connection, which was in a state to accept it. -/
  | accepted (o : Output)
  /-- `sendInLoop` or `sendFileInLoop` has begun to work on an output. -/
  | taken (o : Output)
  /-- `::write` has taken bytes. -/
  | wrote (data : Bytes)
  /-- `::sendfile` has taken bytes. -/
  | sentFile (data : Bytes)
  /-- `shutdown` was called while connected. -/
  | shutdown
  /-- `socket_.shutdownWrite()` has executed. -/
  | shutdownWrite
  | invoked (cb : Callback)
  deriving DecidableEq, Repr

/-! ## What the system answers -/

/-- Result of `::write` or `::sendfile`: how much the kernel is ready to take, or `errno`. -/
inductive IoResult where
  | done (n : Nat)
  | again
  | error
  deriving DecidableEq, Repr

/-- Result of `readv`; no bytes at all is the end of the stream. -/
inductive ReadResult where
  | done (data : Bytes)
  | again
  | error
  deriving DecidableEq, Repr

/-- Result of `::open` and `::fstat`. -/
inductive OpenResult where
  | failed
  | fstatFailed (fd : Addr)
  | opened (fd : Addr)
  deriving DecidableEq, Repr

/-- The descriptor that `::open` has returned. -/
def OpenResult.fd? : OpenResult → Option Addr
  | .failed => none
  | .fstatFailed fd | .opened fd => some fd

/-- The answers to the calls that one step makes. -/
structure Env where
  write : IoResult := .again
  sendfile : IoResult := .again
  read : ReadResult := .again
  opened : OpenResult := .failed
  /-- Where the allocator places a `Timer`. -/
  timer : Addr := 1
  /-- The random number generator. -/
  draw : Nat := 0
  /-- The number whose node the allocator has put where an erased node was. -/
  reused : Option Nat := none
  /-- What is read where an erased node was, when no other node is there. -/
  stale : RetransmitEntry := { seq := 0, data := [] }
  deriving DecidableEq

/-! ## The loop thread -/

/-- A connection and the event loop it lives in. -/
structure TcpLoop where
  conn : TcpConnection
  /-- The files of the host, which do not change. -/
  disk : Bytes → Bytes
  poller : Epoller Source := {}
  /-- The timer queue of the loop, its clock, and its batch in progress. -/
  timers : TimerLoop Task := {}
  activeChannels : List Source := []
  /-- The loop is between `poll` and `doPendingFuncs`. -/
  eventHanding : Bool := false
  pendingFunc : List Functor
  /-- The batch that `doPendingFuncs` has swapped out, as far as it has not run. -/
  func : List Functor := []
  /-- Open files by descriptor. -/
  files : Arena OpenFile OpenFile.serial := .empty
  /-- The write side of the socket has been shut down. -/
  writeShut : Bool := false
  /-- The next identity of a map node. -/
  nextNode : Nat := 0
  /-- References to erased map nodes that were followed. -/
  dangling : List Nat := []
  /-- What the loop thread runs next, before it returns to the stack. -/
  todo : Option Functor := none
  stack : List Frame := []
  /-- An assertion has failed. -/
  aborted : Bool := false
  trace : List Event := []

namespace TcpLoop

def note (w : TcpLoop) (e : Event) : TcpLoop := { w with trace := w.trace ++ [e] }

def push (w : TcpLoop) (frame : Frame) : TcpLoop := { w with stack := frame :: w.stack }

def setState (w : TcpLoop) (s : StateE) : TcpLoop := { w with conn.state := s }

def abort (w : TcpLoop) : TcpLoop := { w with aborted := true }

/-- Call a callback, if one is installed. -/
def invoke (w : TcpLoop) (cb : Callback) : TcpLoop :=
  if w.conn.callbacks cb then (w.note (.invoked cb)).push (.user (some cb)) else w

/-- `EventLoop::runInLoop`, in the loop thread or in another one. -/
def runInLoop (w : TcpLoop) (inThread : Bool) (cb : Functor) : TcpLoop :=
  if inThread then { w with todo := some cb }
  else { w with pendingFunc := w.pendingFunc ++ [cb] }

/-- The connection's channel after an operation on it. -/
def setChannel (w : TcpLoop) (cp : Channel × Epoller Source) : TcpLoop :=
  { w with conn.channel := cp.1, poller := cp.2 }

def enableReading (w : TcpLoop) : TcpLoop :=
  w.setChannel (w.conn.channel.enableReading w.poller .conn)

def enableWriting (w : TcpLoop) : TcpLoop :=
  w.setChannel (w.conn.channel.enableWriting w.poller .conn)

def disableWriting (w : TcpLoop) : TcpLoop :=
  w.setChannel (w.conn.channel.disableWriting w.poller .conn)

def removeChannel (w : TcpLoop) : TcpLoop := w.setChannel (w.conn.channel.remove w.poller)

/-! ### Timers -/

/-- `EventLoop::runAfter`. -/
def runAfter (w : TcpLoop) (micros : Int) (cb : Task) (timer : Addr) :
    Option TimerId × TcpLoop :=
  if h : w.timers.queue.heap.get? timer = none then
    let (id, queue) := w.timers.queue.addTimer cb (w.timers.clock + micros) .zero timer h
    (some id, { w with timers.queue := queue.addTimerInLoop timer w.timers.clock })
  else (none, w)

/-- `EventLoop::cancel` of an id, if it is valid. -/
def cancel (w : TcpLoop) (id : Option TimerId) : TcpLoop :=
  match id with
  | none => w
  | some id => { w with timers.queue := w.timers.queue.cancelInLoop id }

def cancelIdleTimer (w : TcpLoop) : TcpLoop :=
  { w.cancel w.conn.idleTimerId with conn.idleTimerId := none }

/-- Cancel the timers of all pending entries, and forget the entries. -/
def clearRetrans (w : TcpLoop) : TcpLoop :=
  { w.conn.pendingRetrans.toList.foldl (fun w kv => w.cancel kv.2.entry.timerId) w with
    conn.pendingRetrans := ∅ }

/-- `TcpConnection::resetIdleTimer`. -/
def resetIdleTimer (w : TcpLoop) (env : Env) : TcpLoop :=
  let (id, w) := w.cancelIdleTimer.runAfter kTimeoutMicros .onIdleTimeout env.timer
  { w with conn.idleTimerId := id }

/-- `TcpConnection::resetRetransmitTimer`, for the entry of `node`. -/
def resetRetransmitTimer (w : TcpLoop) (node : RetransmitNode) (env : Env) : TcpLoop :=
  let entry := node.entry
  let w := w.cancel entry.timerId
  let timeout := caculate_backoff_jitter kBaseTimeout entry.retries kMaxTimeout env.draw
  let (id, w) := w.runAfter (timeout * 1000) (.onRetransmitTimeout entry.seq) env.timer
  { w with conn.pendingRetrans :=
      w.conn.pendingRetrans.insert entry.seq { node with entry := { entry with timerId := id } } }

/-! ### Files -/

/-- `::open`, with the content the file has. -/
def openFile (w : TcpLoop) (filePath : Bytes) (fd : Addr) : TcpLoop :=
  if h : w.files.get? fd = none then
    { w with files := w.files.alloc fd ⟨w.files.born, w.disk filePath⟩ h rfl }
  else w

/-- `::close(fileFd_)` and `fileFd_ = -1`. -/
def closeFile (w : TcpLoop) : TcpLoop :=
  match w.conn.fileFd with
  | none => w
  | some fd => { w with files := w.files.free fd, conn.fileFd := none }

/-- `closeFile` and `sendingFile_ = false`. -/
def dropFile (w : TcpLoop) : TcpLoop := { w.closeFile with conn.sendingFile := false }

/-- A file has been opened to be sent. -/
def setFile (w : TcpLoop) (fd : Addr) (fileTotalSize : Nat) : TcpLoop :=
  { w with
    conn.fileFd := some fd
    conn.fileSentOffset := 0
    conn.fileTotalSize := fileTotalSize
    conn.sendingFile := true }

/-- The file behind `fileFd_`. -/
def file? (w : TcpLoop) : Option OpenFile :=
  match w.conn.fileFd with
  | none => none
  | some fd => w.files.get? fd

/-- What stands in the file behind `fileSentOffset_`. -/
def unsent (w : TcpLoop) : Bytes :=
  match w.file? with
  | none => []
  | some file => if w.conn.sendingFile then file.content.drop w.conn.fileSentOffset else []

/-! ### Closing -/

/-- `TcpConnection::handleClose`. -/
def handleClose (w : TcpLoop) : TcpLoop :=
  match w.conn.state with
  | .kDisConnected => w
  | .kConnecting => w.abort
  | .kConnected | .kDisConnecting =>
    let w := (w.setState .kDisConnected).removeChannel.dropFile
    let w := { w with conn.fileSentOffset := 0, conn.fileTotalSize := 0 }
    w.cancelIdleTimer.clearRetrans.invoke .close

/-- `TcpConnection::handleError`. -/
def handleError (w : TcpLoop) : TcpLoop := w.handleClose

/-- `socket_.shutdownWrite()`. -/
def shutdownWrite (w : TcpLoop) : TcpLoop := { w with writeShut := true }.note .shutdownWrite

/-- `TcpConnection::shutdownInLoop`. -/
def shutdownInLoop (w : TcpLoop) : TcpLoop :=
  if !w.conn.channel.isWriting then w.shutdownWrite.handleClose
  else w.shutdownWrite

/-- `TcpConnection::forceCloseInLoop`. -/
def forceCloseInLoop (w : TcpLoop) : TcpLoop :=
  if w.conn.state = .kConnected ∨ w.conn.state = .kDisConnecting then w.handleClose else w

/-- `TcpConnection::connectEstablelished`. -/
def connectEstablelished (w : TcpLoop) (env : Env) : TcpLoop :=
  if w.conn.state ≠ .kConnecting then w.abort
  else ((w.enableReading.setState .kConnected).resetIdleTimer env).invoke .connection

/-- `TcpConnection::connectDestroyed`. -/
def connectDestroyed (w : TcpLoop) : TcpLoop :=
  let w := if w.conn.state = .kConnected then w.setState .kDisConnected else w
  w.cancelIdleTimer.clearRetrans.removeChannel

/-! ### Sending -/

/-- A write after `shutdownWrite` fails. -/
def ioResult (w : TcpLoop) (r : IoResult) : IoResult := if w.writeShut then .error else r

/-- Append what is left of a message, and watch for `EPOLLOUT`. -/
def appendOutput (w : TcpLoop) (rest : Bytes) : TcpLoop :=
  if rest = [] then w
  else
    let w := { w with conn.writeBuffer := w.conn.writeBuffer.append rest }
    if !w.conn.channel.isWriting then w.enableWriting else w

/-- `sendInLoop` behind the direct `::write`, with the bytes that are left. -/
def sendRest (w : TcpLoop) (rest : Bytes) : TcpLoop :=
  let w := w.appendOutput rest
  if w.conn.state = .kDisConnecting ∧ w.conn.writeBuffer.readableBytes = 0 then
    w.runInLoop true .shutdownInLoop
  else w

/-- `TcpConnection::sendInLoop`. -/
def sendInLoop (w : TcpLoop) (data : Bytes) (env : Env) : TcpLoop :=
  if w.conn.state = .kDisConnected then w
  else
    let w := w.note (.taken (.message data))
    if !w.conn.channel.isWriting && w.conn.writeBuffer.readableBytes == 0 then
      match w.ioResult env.write with
      | .done n =>
        let w := w.note (.wrote (data.take n))
        if data.length ≤ n then w.invoke .writeComplete else w.sendRest (data.drop n)
      | .again | .error => w.sendRest data
    else w.sendRest data

/-- `TcpConnection::sendFileInLoop`. -/
def sendFileInLoop (w : TcpLoop) (filePath : Bytes) (env : Env) : TcpLoop :=
  if w.conn.state = .kDisConnected then w
  else
    let w := w.note (.taken (.file filePath))
    match env.opened with
    | .failed => w.forceCloseInLoop
    | .fstatFailed fd =>
      let w := w.openFile filePath fd
      { w with files := w.files.free fd }.forceCloseInLoop
    | .opened fd =>
      ((w.openFile filePath fd).setFile fd (w.disk filePath).length).enableWriting

/-- `TcpConnection::send`. -/
def send (w : TcpLoop) (inThread : Bool) (data : Bytes) : TcpLoop :=
  if w.conn.state ≠ .kConnected then w
  else (w.note (.accepted (.message data))).runInLoop inThread (.sendInLoop data)

/-- `TcpConnection::sendFile`. -/
def sendFile (w : TcpLoop) (inThread : Bool) (filePath : Bytes) : TcpLoop :=
  if w.conn.state ≠ .kConnected then w
  else (w.note (.accepted (.file filePath))).runInLoop inThread (.sendFileInLoop filePath)

/-- `TcpConnection::shutdown`. -/
def shutdown (w : TcpLoop) (inThread : Bool) : TcpLoop :=
  if w.conn.state = .kConnected then
    ((w.setState .kDisConnecting).note .shutdown).runInLoop inThread .shutdownInLoop
  else w

/-- `TcpConnection::forceClose`. -/
def forceClose (w : TcpLoop) (inThread : Bool) : TcpLoop :=
  if w.conn.state = .kConnected ∨ w.conn.state = .kDisConnecting then
    (w.setState .kDisConnecting).runInLoop inThread .forceCloseInLoop
  else w

/-- A call of the connection's interface. -/
def call (w : TcpLoop) (inThread : Bool) : ConnCall → TcpLoop
  | .send data => w.send inThread data
  | .sendFile filePath => w.sendFile inThread filePath
  | .shutdown => w.shutdown inThread
  | .forceClose => w.forceClose inThread
  | .sendWithRetransmit data seq => w.runInLoop inThread (.sendFunc data seq)
  | .ackReceived seq => w.runInLoop inThread (.ackReceived seq)

/-! ### Retransmission -/

/-- The lambda of `sendWithRetransmit`, up to `send`. -/
def sendFunc (w : TcpLoop) (data : Bytes) (seq : Nat) : TcpLoop :=
  (w.push (.sendFunc data seq)).send true data

/-- The lambda of `sendWithRetransmit` behind `send`. An entry under the same number is
overwritten in its node, its timer id with it. -/
def sendFuncEnd (w : TcpLoop) (data : Bytes) (seq : Nat) (env : Env) : TcpLoop :=
  let entry : RetransmitEntry := { seq, data }
  match w.conn.pendingRetrans[seq]? with
  | some node => w.resetRetransmitTimer { node with entry } env
  | none => { w with nextNode := w.nextNode + 1 }.resetRetransmitTimer ⟨w.nextNode, entry⟩ env

/-- `TcpConnection::ackReceived` in the loop. -/
def ackReceived (w : TcpLoop) (seq : Nat) : TcpLoop :=
  match w.conn.pendingRetrans[seq]? with
  | none => w
  | some node =>
    { w.cancel node.entry.timerId with
      conn.pendingRetrans := w.conn.pendingRetrans.erase seq }

/-- `TcpConnection::onRetransmitTimeout`, up to `sendInLoop`. -/
def onRetransmitTimeout (w : TcpLoop) (seq : Nat) : TcpLoop :=
  match w.conn.pendingRetrans[seq]? with
  | none => w
  | some node =>
    if kMaxRetries ≤ node.entry.retries then
      { w with conn.pendingRetrans := w.conn.pendingRetrans.erase seq }.forceCloseInLoop
    else
      let w := w.push (.onRetransmitTimeout seq node.id)
      let w :=
        if w.conn.state = .kDisConnected then w else w.note (.accepted (.message node.entry.data))
      { w with todo := some (.sendInLoop node.entry.data) }

/-- `entry.retries++` and `resetRetransmitTimer(entry)` through a reference to an erased node. The
entry of another node may be in its place. Otherwise the timer of what is left there has expired or
is cancelled, a new one is armed, and its id is stored in no entry. -/
def followErased (w : TcpLoop) (node : Nat) (env : Env) : TcpLoop :=
  let w := { w with dangling := w.dangling ++ [node] }
  match env.reused.bind (w.conn.pendingRetrans[·]?) with
  | some n => w.resetRetransmitTimer { n with entry.retries := n.entry.retries + 1 } env
  | none =>
    let retries := env.stale.retries + 1
    let timeout := caculate_backoff_jitter kBaseTimeout retries kMaxTimeout env.draw
    (w.runAfter (timeout * 1000) (.onRetransmitTimeout env.stale.seq) env.timer).2

/-- `TcpConnection::onRetransmitTimeout` behind `sendInLoop`: the reference to the entry is
followed, whether or not its node is still in the map. -/
def onRetransmitTimeoutEnd (w : TcpLoop) (seq node : Nat) (env : Env) : TcpLoop :=
  match w.conn.pendingRetrans[seq]? with
  | none => w.followErased node env
  | some n =>
    if n.id ≠ node then w.followErased node env
    else w.resetRetransmitTimer { n with entry.retries := n.entry.retries + 1 } env

/-! ### Events -/

/-- `TcpConnection::handleRead`. -/
def handleRead (w : TcpLoop) (env : Env) : TcpLoop :=
  match env.read with
  | .done [] => w.handleClose
  | .done data =>
    let w := { w with conn.readBuffer := w.conn.readBuffer.readFd data }
    (w.resetIdleTimer env).invoke .message
  | .again => w
  | .error => w.handleError

/-- `writeBuffer_.WriteFd` when the kernel is ready to take `n` bytes. -/
def writeFd (w : TcpLoop) (n : Nat) : TcpLoop :=
  let (data, writeBuffer) := w.conn.writeBuffer.writeFd n
  { w with conn.writeBuffer := writeBuffer }.note (.wrote data)

/-- The last block of `handleWrite`. -/
def handleWriteBuffer (w : TcpLoop) (env : Env) : TcpLoop :=
  if 0 < w.conn.writeBuffer.readableBytes then
    match w.ioResult env.write with
    | .done (n + 1) =>
      let w := (w.push .handleWriteEnd).writeFd (n + 1)
      let w := if w.conn.writeBuffer.readableBytes = 0 then w.disableWriting else w
      w.invoke .writeComplete
    | .again => w
    | .done 0 | .error => w.handleError
  else w

/-- The test that ends `handleWrite`. -/
def handleWriteEnd (w : TcpLoop) : TcpLoop :=
  if w.conn.state = .kDisConnecting then w.runInLoop true .shutdownInLoop else w

/-- `chunkSize`. -/
def chunkSize : Nat := 64 * 1024

/-- The `::sendfile` of `handleWrite`, when it can take `n` bytes, and what follows it. -/
def sendfile (w : TcpLoop) (n : Nat) : TcpLoop :=
  let sent := w.unsent.take (min n chunkSize)
  if sent = [] then w
  else
    let w := { w with conn.fileSentOffset := w.conn.fileSentOffset + sent.length }.note
      (.sentFile sent)
    if w.conn.fileTotalSize ≤ w.conn.fileSentOffset then
      w.dropFile.disableWriting.invoke .writeComplete
    else w

/-- `handleWrite` from the file transfer on. -/
def handleWriteFile (w : TcpLoop) (env : Env) : TcpLoop :=
  if w.conn.sendingFile ∧ w.conn.fileFd.isSome then
    match w.ioResult env.sendfile with
    | .done n => w.sendfile n
    | .again => w
    | .error => w.dropFile.disableWriting.handleError
  else w.handleWriteBuffer env

/-- `TcpConnection::handleWrite`, up to the first callback. -/
def handleWrite (w : TcpLoop) (env : Env) : TcpLoop :=
  if !w.conn.channel.isWriting then w
  else
    let w := w.resetIdleTimer env
    if 0 < w.conn.writeBuffer.readableBytes then
      let w := w.push .handleWrite
      match w.ioResult env.write with
      | .done (n + 1) =>
        let w := w.writeFd (n + 1)
        let w :=
          if w.conn.writeBuffer.readableBytes = 0 ∧ !w.conn.sendingFile then w.disableWriting
          else w
        w.invoke .writeComplete
      | .again => w
      | .done 0 | .error => w.handleError
    else w.handleWriteFile env

/-- `handleWrite` behind its first block. -/
def handleWriteRest (w : TcpLoop) (env : Env) : TcpLoop :=
  if 0 < w.conn.writeBuffer.readableBytes then w else w.handleWriteFile env

/-- `Channel::handleEvent`, one of its tests. -/
def handleEvent (w : TcpLoop) (env : Env) : EventStage → TcpLoop
  | .error =>
    let w := w.push (.handleEvent .read)
    if w.conn.channel.revents.epollerr then w.handleError else w
  | .read =>
    let r := w.conn.channel.revents
    let w := w.push (.handleEvent .hup)
    if r.epollin || r.epollrdhup || r.epollpri then w.handleRead env else w
  | .hup =>
    let r := w.conn.channel.revents
    let w := w.push (.handleEvent .write)
    if r.epollhup && !r.epollin then w.handleError else w
  | .write => if w.conn.channel.revents.epollout then w.handleWrite env else w

/-- Run a functor or the callback of a timer. -/
def run (w : TcpLoop) (env : Env) : Functor → TcpLoop
  | .connectEstablelished => w.connectEstablelished env
  | .connectDestroyed => w.connectDestroyed
  | .sendInLoop data => w.sendInLoop data env
  | .sendFileInLoop filePath => w.sendFileInLoop filePath env
  | .shutdownInLoop => w.shutdownInLoop
  | .forceCloseInLoop => w.forceCloseInLoop
  | .sendFunc data seq => w.sendFunc data seq
  | .ackReceived seq => w.ackReceived seq
  | .onIdleTimeout => w.forceCloseInLoop
  | .onRetransmitTimeout seq => w.onRetransmitTimeout seq
  | .user => w.push (.user none)

end TcpLoop

end ClearMoon.Tcp

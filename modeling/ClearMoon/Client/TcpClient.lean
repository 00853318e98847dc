import ClearMoon.Core.Machine
import ClearMoon.Tcp.Connection

/-!
# The client and its connection

A `TcpClient` lives in one loop thread, with its connector and the connections it has made. A
connection is held by `connection_`, by the callbacks on the stack that it has been handed to, and
by the functors that user code has queued; the channel and the timers hold only its address. When
its last reference goes, it is destroyed on the spot. Of the bytes in a connection the machine
keeps the number, and the tests of `Channel::handleEvent` are steps of their own.
-/

namespace ClearMoon.Client

open ClearMoon.Tcp
open ClearMoon.Tcp.TcpLoop (chunkSize)

/-- What a connection of a client keeps of its members. -/
structure ClientConn where
  state : StateE := .kConnecting
  /-- `channel_.isWriting()`. -/
  writing : Bool := false
  /-- `writeBuffer_.readableBytes()`. -/
  buffered : Nat := 0
  /-- While `sendingFile_`, what stands in the file behind `fileSentOffset_`. -/
  file : Option Nat := none
  /-- The write side of the socket has been shut down. -/
  writeShut : Bool := false
  /-- `closeCallback_` calls `removeConnection`; otherwise it does nothing. -/
  closeCallback : Bool := true
  deriving DecidableEq, Repr

/-- `Connector::States`. -/
inductive ConnectorState where
  | kDisconnected
  | kConnecting
  | kConnected
  deriving DecidableEq, Repr

/-- `net/Connector.h`, less its timer: a timeout may be tried at any time. -/
structure Connector where
  state : ConnectorState := .kDisconnected
  /-- `channel_` is not null. -/
  channel : Bool := false
  deriving DecidableEq, Repr

/-- Result of `::connect`. -/
inductive ConnectResult where
  | connected
  | inProgress
  | failed
  deriving DecidableEq, Repr

/-- The answers to the calls that one step makes. -/
structure Answers where
  write : IoResult := .again
  sendfile : IoResult := .again
  /-- `::open` and `::fstat`, with the size of the file. -/
  opened : Option Nat := none
  deriving DecidableEq, Repr

/-- What is left to do when the code above has returned. -/
inductive Frame where
  /-- User code; a callback has a connection for its argument. -/
  | user (conn : Option Nat)
  /-- `TcpClient::newConnection` behind `connectEstablelished`, with its own pointer. -/
  | newConnection (conn : Nat)
  /-- `handleWrite` behind the first `WriteFd`. -/
  | handleWrite (conn : Nat)
  /-- `handleWrite` behind the last `WriteFd`. -/
  | handleWriteEnd (conn : Nat)
  deriving DecidableEq, Repr

/-- The connection that a frame holds. -/
def Frame.holds : Frame → Option Nat
  | user conn => conn
  | newConnection conn => some conn
  | handleWrite _ | handleWriteEnd _ => none

/-- The callbacks that the user has installed. -/
structure UserCallbacks where
  connection : Bool := true
  message : Bool := true
  writeComplete : Bool := false
  deriving DecidableEq, Repr

/-- `net/TcpClient.h`, with the loop thread it lives in. A connection is named by its number. -/
structure TcpClient where
  callbacks : UserCallbacks
  connector : Connector := {}
  /-- `connection_`. -/
  connection : Option Nat := none
  nextConn : Nat := 1
  /-- The connections that have been made and not been destroyed. -/
  conn : Nat → Option ClientConn := fun _ => none
  stack : List Frame := []
  /-- The connections held by the functors in `pendingFunc_`. -/
  pendingFunc : List Nat := []
  /-- The connections held by the batch that `doPendingFuncs` has swapped out, which is destroyed
  when all of it has run. -/
  func : List Nat := []
  /-- How many functors of the batch have not run. -/
  funcLeft : Nat := 0
  /-- The client has been destroyed. -/
  destroyed : Bool := false
  /-- An assertion has failed, or a destroyed client has been used. -/
  aborted : Bool := false
  /-- The connections that have been destroyed, with the state that the destructor has found. -/
  destructed : List (Nat × StateE) := []

inductive Action where
  /-- User code that belongs to no connection begins. -/
  | enter
  /-- User code returns. -/
  | ret
  /-- The code on top of the stack goes on. -/
  | resume (env : Answers)
  | connect (r : ConnectResult)
  | disconnect
  /-- The owner destroys the client. -/
  | destroy
  /-- User code calls a connection. -/
  | call (conn : Nat) (c : ConnCall) (env : Answers)
  /-- User code queues a functor that holds a connection. -/
  | queueInLoop (conn : Nat)
  /-- `Connector::handleWrite`, with the error of the socket. -/
  | connectorWrite (err : Bool)
  | connectorError
  | connectorTimeout
  | handleRead (conn : Nat) (r : ReadResult)
  | handleWrite (conn : Nat) (env : Answers)
  | handleError (conn : Nat)
  | onIdleTimeout (conn : Nat)
  /-- `onRetransmitTimeout` gives up, or sends a message of this length again. -/
  | onRetransmitTimeout (conn : Nat) (len : Option Nat) (env : Answers)
  | doPendingFuncs
  | nextFunc
  /-- `doPendingFuncs` returns, and destroys the next functor of its batch. -/
  | dropFunc
  deriving DecidableEq, Repr

namespace Connector

/-- `Connector::stop`. -/
def stop (k : Connector) : Connector :=
  if k.state = .kConnecting then { state := .kDisconnected, channel := false } else k

/-- `Connector::handleError`. -/
def handleError (k : Connector) : Connector :=
  if k.state = .kConnecting then { state := .kDisconnected, channel := false } else k

/-- `Connector::handleTimeout`. -/
def handleTimeout (k : Connector) : Connector :=
  if k.state ≠ .kConnecting then k else { state := .kDisconnected, channel := false }

end Connector

/-- A write after `shutdownWrite` fails. -/
def ClientConn.ioResult (x : ClientConn) (r : IoResult) : IoResult :=
  if x.writeShut then .error else r

namespace TcpClient

def setConn (s : TcpClient) (c : Nat) (x : ClientConn) : TcpClient :=
  { s with conn := Function.update s.conn c (some x) }

def push (s : TcpClient) (frame : Frame) : TcpClient := { s with stack := frame :: s.stack }

def abort (s : TcpClient) : TcpClient := { s with aborted := true }

/-- Call a callback of a connection, if it is installed. -/
def invoke (s : TcpClient) (installed : Bool) (c : Nat) : TcpClient :=
  if installed then s.push (.user (some c)) else s

/-! ### References -/

/-- The holders of references, each by the connection it holds. -/
def holders (s : TcpClient) : List Nat :=
  s.connection.toList ++ s.stack.filterMap Frame.holds ++ s.pendingFunc ++ s.func

/-- `use_count()`. -/
def refs (s : TcpClient) (c : Nat) : Nat := s.holders.count c

/-- `~TcpConnection`, with its assertion. -/
def destruct (s : TcpClient) (c : Nat) (x : ClientConn) : TcpClient :=
  { s with
    conn := Function.update s.conn c none
    destructed := s.destructed ++ [(c, x.state)]
    aborted := s.aborted || x.state ≠ .kDisConnected }

/-- References to a connection have been dropped, which may have been the last ones. -/
def release (s : TcpClient) (c : Nat) : TcpClient :=
  match s.conn c with
  | none => s
  | some x => if s.refs c ≠ 0 then s else s.destruct c x

/-- The reference of a pointer that may be null has been dropped. -/
def drop (s : TcpClient) : Option Nat → TcpClient
  | none => s
  | some c => s.release c

/-- `connection_.reset()`; the reference it has held is still to be released. -/
def reset (s : TcpClient) : TcpClient := { s with connection := none }

/-! ### Closing -/

/-- `TcpConnection::connectDestroyed`. -/
def connectDestroyed (s : TcpClient) (c : Nat) (x : ClientConn) : TcpClient :=
  if x.state = .kConnected then s.setConn c { x with state := .kDisConnected } else s

/-- `TcpClient::removeConnection`. -/
def removeConnection (s : TcpClient) (c : Nat) (x : ClientConn) : TcpClient :=
  if s.destroyed then s.abort
  else if s.connection = some c then s.reset.connectDestroyed c x
  else s

/-- `TcpConnection::handleClose`. -/
def handleClose (s : TcpClient) (c : Nat) (x : ClientConn) : TcpClient :=
  match x.state with
  | .kDisConnected => s
  | .kConnecting => s.abort
  | .kConnected | .kDisConnecting =>
    let x := { x with state := .kDisConnected, file := none }
    let s := s.setConn c x
    if x.closeCallback then s.removeConnection c x else s

/-- `TcpConnection::shutdownInLoop`. -/
def shutdownInLoop (s : TcpClient) (c : Nat) (x : ClientConn) : TcpClient :=
  let writing := x.writing
  let x := { x with writeShut := true }
  let s := s.setConn c x
  if writing then s else s.handleClose c x

/-- `TcpConnection::forceCloseInLoop`. -/
def forceCloseInLoop (s : TcpClient) (c : Nat) (x : ClientConn) : TcpClient :=
  if x.state = .kConnected ∨ x.state = .kDisConnecting then s.handleClose c x else s

/-- `TcpConnection::shutdown`. -/
def shutdown (s : TcpClient) (c : Nat) (x : ClientConn) : TcpClient :=
  if x.state = .kConnected then
    let x := { x with state := .kDisConnecting }
    (s.setConn c x).shutdownInLoop c x
  else s

/-- `TcpConnection::forceClose`. -/
def forceClose (s : TcpClient) (c : Nat) (x : ClientConn) : TcpClient :=
  if x.state = .kConnected ∨ x.state = .kDisConnecting then
    let x := { x with state := .kDisConnecting }
    (s.setConn c x).forceCloseInLoop c x
  else s

/-! ### Sending -/

/-- `sendInLoop` behind the direct `::write`, with the number of bytes that are left. -/
def sendRest (s : TcpClient) (c : Nat) (x : ClientConn) (rest : Nat) : TcpClient :=
  let x := if rest = 0 then x else { x with buffered := x.buffered + rest, writing := true }
  let s := s.setConn c x
  if x.state = .kDisConnecting ∧ x.buffered = 0 then s.shutdownInLoop c x else s

/-- `TcpConnection::sendInLoop`. -/
def sendInLoop (s : TcpClient) (c : Nat) (x : ClientConn) (len : Nat) (env : Answers) :
    TcpClient :=
  if x.state = .kDisConnected then s
  else if !x.writing && x.buffered == 0 then
    match x.ioResult env.write with
    | .done n =>
      if len ≤ n then s.invoke s.callbacks.writeComplete c else s.sendRest c x (len - n)
    | .again | .error => s.sendRest c x len
  else s.sendRest c x len

/-- `TcpConnection::sendFileInLoop`. -/
def sendFileInLoop (s : TcpClient) (c : Nat) (x : ClientConn) (env : Answers) : TcpClient :=
  if x.state = .kDisConnected then s
  else
    match env.opened with
    | none => s.forceCloseInLoop c x
    | some fileTotalSize => s.setConn c { x with file := some fileTotalSize, writing := true }

/-- `TcpConnection::send`. -/
def send (s : TcpClient) (c : Nat) (x : ClientConn) (len : Nat) (env : Answers) : TcpClient :=
  if x.state ≠ .kConnected then s else s.sendInLoop c x len env

/-- `TcpConnection::sendFile`. -/
def sendFile (s : TcpClient) (c : Nat) (x : ClientConn) (env : Answers) : TcpClient :=
  if x.state ≠ .kConnected then s else s.sendFileInLoop c x env

/-- A call of the connection's interface. Entries for retransmission are left out. -/
def call (s : TcpClient) (c : Nat) (x : ClientConn) (env : Answers) : ConnCall → TcpClient
  | .send data => s.send c x data.length env
  | .sendFile _ => s.sendFile c x env
  | .shutdown => s.shutdown c x
  | .forceClose => s.forceClose c x
  | .sendWithRetransmit data _ => s.send c x data.length env
  | .ackReceived _ => s

/-! ### Events and timers -/

/-- `TcpConnection::handleRead`. -/
def handleRead (s : TcpClient) (c : Nat) (x : ClientConn) : ReadResult → TcpClient
  | .done [] => s.handleClose c x
  | .done (_ :: _) => s.invoke s.callbacks.message c
  | .again => s
  | .error => s.handleClose c x

/-- The last block of `handleWrite`. -/
def handleWriteBuffer (s : TcpClient) (c : Nat) (x : ClientConn) (env : Answers) : TcpClient :=
  if 0 < x.buffered then
    match x.ioResult env.write with
    | .done (n + 1) =>
      let buffered := x.buffered - (n + 1)
      let x := { x with buffered, writing := if buffered = 0 then false else x.writing }
      ((s.setConn c x).push (.handleWriteEnd c)).invoke s.callbacks.writeComplete c
    | .again => s
    | .done 0 | .error => s.handleClose c x
  else s

/-- The test that ends `handleWrite`. -/
def handleWriteEnd (s : TcpClient) (c : Nat) (x : ClientConn) : TcpClient :=
  if x.state = .kDisConnecting then s.shutdownInLoop c x else s

/-- The `::sendfile` of `handleWrite`, when it can take `n` bytes, and what follows it. -/
def sendfile (s : TcpClient) (c : Nat) (x : ClientConn) (left n : Nat) : TcpClient :=
  let sent := min left (min n chunkSize)
  if sent = 0 then s
  else if left ≤ sent then
    (s.setConn c { x with file := none, writing := false }).invoke s.callbacks.writeComplete c
  else s.setConn c { x with file := some (left - sent) }

/-- `handleWrite` from the file transfer on. -/
def handleWriteFile (s : TcpClient) (c : Nat) (x : ClientConn) (env : Answers) : TcpClient :=
  match x.file with
  | some left =>
    match x.ioResult env.sendfile with
    | .done n => s.sendfile c x left n
    | .again => s
    | .error =>
      let x := { x with file := none, writing := false }
      (s.setConn c x).handleClose c x
  | none => s.handleWriteBuffer c x env

/-- `TcpConnection::handleWrite`, up to the first callback. -/
def handleWrite (s : TcpClient) (c : Nat) (x : ClientConn) (env : Answers) : TcpClient :=
  if !x.writing then s
  else if 0 < x.buffered then
    let s := s.push (.handleWrite c)
    match x.ioResult env.write with
    | .done (n + 1) =>
      let buffered := x.buffered - (n + 1)
      let writing := if buffered = 0 ∧ x.file = none then false else x.writing
      (s.setConn c { x with buffered, writing }).invoke s.callbacks.writeComplete c
    | .again => s
    | .done 0 | .error => s.handleClose c x
  else s.handleWriteFile c x env

/-- `handleWrite` behind its first block. -/
def handleWriteRest (s : TcpClient) (c : Nat) (x : ClientConn) (env : Answers) : TcpClient :=
  if 0 < x.buffered then s else s.handleWriteFile c x env

/-- `TcpConnection::onRetransmitTimeout`, for an entry that is there. -/
def onRetransmitTimeout (s : TcpClient) (c : Nat) (x : ClientConn) (env : Answers) :
    Option Nat → TcpClient
  | none => s.forceCloseInLoop c x
  | some len => s.sendInLoop c x len env

/-! ### The client -/

/-- `TcpConnection::connectEstablelished`. -/
def connectEstablelished (s : TcpClient) (c : Nat) (x : ClientConn) : TcpClient :=
  if x.state ≠ .kConnecting then s.abort
  else (s.setConn c { x with state := .kConnected }).invoke s.callbacks.connection c

/-- `connection_ = conn`, for a connection that has just been made; the reference that
`connection_` has held is still to be released. -/
def assign (s : TcpClient) : TcpClient :=
  { s.setConn s.nextConn {} with nextConn := s.nextConn + 1, connection := some s.nextConn }

/-- `TcpClient::newConnection`, up to its return. -/
def newConnection (s : TcpClient) : TcpClient :=
  let c := s.nextConn
  let s := s.assign.drop s.connection
  if s.aborted then s else (s.push (.newConnection c)).connectEstablelished c {}

/-- `TcpClient::connect` and `Connector::connect`. -/
def connect (s : TcpClient) : ConnectResult → TcpClient
  | .connected => { s with connector.state := .kConnected }.newConnection
  | .inProgress => { s with connector := { state := .kConnecting, channel := true } }
  | .failed => s

/-- `Connector::handleWrite`. -/
def connectorWrite (s : TcpClient) (err : Bool) : TcpClient :=
  if s.connector.state ≠ .kConnecting then s
  else if err then { s with connector := { state := .kDisconnected, channel := false } }
  else { s with connector := { state := .kConnected, channel := false } }.newConnection

/-- `TcpClient::disconnect`. -/
def disconnect (s : TcpClient) : TcpClient :=
  let s := { s with connector := s.connector.stop }
  match s.connection with
  | none => s
  | some c =>
    match s.conn c with
    | none => s
    | some x => (s.shutdown c x).reset.release c

/-- `~TcpClient`, with the destruction of its members. -/
def destroy (s : TcpClient) : TcpClient :=
  let s := match s.connection with
    | none => s
    | some c =>
      match s.conn c with
      | none => s
      | some x =>
        let x := { x with closeCallback := false }
        ((s.setConn c x).forceClose c x).reset.release c
  -- the connector asserts that its channel is watched for nothing
  { s with destroyed := true, aborted := s.aborted || s.connector.channel }

/-! ### Steps -/

/-- A client as its owner has made it. -/
def init (callbacks : UserCallbacks) : TcpClient where
  callbacks := callbacks

/-- User code runs. -/
def inUserCode (s : TcpClient) : Bool :=
  match s.stack with
  | .user _ :: _ => true
  | _ => false

/-- The loop thread is in the body of `loop`. -/
def idle (s : TcpClient) : Bool := s.stack.isEmpty && s.func.isEmpty

/-- Something is done to a connection that has not been destroyed. The references that are held
meanwhile, by `self` or as the argument of the close callback, end with it. -/
def onConn (s : TcpClient) (c : Nat) (f : ClientConn → TcpClient) : Option TcpClient :=
  (s.conn c).map fun x => (f x).release c

/-- Code on the stack that has only the address of a connection is not run after its end. -/
def resumeConn (s : TcpClient) (c : Nat) (f : ClientConn → TcpClient) : TcpClient :=
  match s.conn c with
  | none => s
  | some x => (f x).release c

/-- The code of a frame that has been taken off the stack. -/
def resumeFrame (s : TcpClient) (env : Answers) : Frame → Option TcpClient
  | .user _ => none
  | .newConnection c => some (s.release c)
  | .handleWrite c => some (s.resumeConn c fun x => s.handleWriteRest c x env)
  | .handleWriteEnd c => some (s.resumeConn c fun x => s.handleWriteEnd c x)

def step (s : TcpClient) (a : Action) : Option TcpClient :=
  if s.aborted then none
  else match a with
  | .enter => if s.idle then some (s.push (.user none)) else none
  | .ret =>
    match s.stack with
    | .user conn :: rest => some ({ s with stack := rest }.drop conn)
    | _ => none
  | .resume env =>
    match s.stack with
    | frame :: rest => { s with stack := rest }.resumeFrame env frame
    | [] => none
  | .connect r => if s.inUserCode ∧ !s.destroyed then some (s.connect r) else none
  | .disconnect => if s.inUserCode ∧ !s.destroyed then some s.disconnect else none
  | .destroy => if s.inUserCode ∧ !s.destroyed then some s.destroy else none
  | .call c call env => if s.inUserCode then s.onConn c fun x => s.call c x env call else none
  | .queueInLoop c =>
    if s.inUserCode ∧ (s.conn c).isSome then some { s with pendingFunc := s.pendingFunc ++ [c] }
    else none
  | .connectorWrite err =>
    if s.idle ∧ !s.destroyed ∧ s.connector.channel then some (s.connectorWrite err) else none
  | .connectorError =>
    if s.idle ∧ !s.destroyed ∧ s.connector.channel then
      some { s with connector := s.connector.handleError }
    else none
  | .connectorTimeout =>
    if s.idle ∧ !s.destroyed then some { s with connector := s.connector.handleTimeout } else none
  | .handleRead c r => if s.idle then s.onConn c fun x => s.handleRead c x r else none
  | .handleWrite c env => if s.idle then s.onConn c fun x => s.handleWrite c x env else none
  | .handleError c => if s.idle then s.onConn c fun x => s.handleClose c x else none
  | .onIdleTimeout c => if s.idle then s.onConn c fun x => s.forceCloseInLoop c x else none
  | .onRetransmitTimeout c len env =>
    if s.idle then s.onConn c fun x => s.onRetransmitTimeout c x env len else none
  | .doPendingFuncs =>
    if s.idle then
      some { s with pendingFunc := [], func := s.pendingFunc, funcLeft := s.pendingFunc.length }
    else none
  | .nextFunc =>
    if s.stack = [] ∧ 0 < s.funcLeft then
      some ({ s with funcLeft := s.funcLeft - 1 }.push (.user none))
    else none
  | .dropFunc =>
    match s.func with
    | [] => none
    | c :: rest =>
      if s.stack = [] ∧ s.funcLeft = 0 then some ({ s with func := rest }.release c) else none

end TcpClient

end ClearMoon.Client

import ClearMoon.Core.Machine
import ClearMoon.Http.Message
import ClearMoon.Tcp.Life

/-!
# The server and its connections

A `TcpServer` accepts connections in the base loop and gives each of them to one of the io loops.
A connection is established, closed and removed by functors that the loops queue for each other.
Of a connection the machine keeps the state; the callbacks, events and timers that may close it
are steps of the environment.
-/

namespace ClearMoon.Server

open ClearMoon.Http (decimal)
open ClearMoon.Net
open ClearMoon.Tcp (StateE)

/-- A functor that holds a connection, in the queue of the connection's io loop. -/
inductive IoFunctor where
  | connectEstablelished (conn : Nat)
  | connectDestroyed (conn : Nat)
  | shutdownInLoop (conn : Nat)
  | forceCloseInLoop (conn : Nat)
  deriving DecidableEq, Repr

def IoFunctor.conn : IoFunctor → Nat
  | connectEstablelished conn | connectDestroyed conn | shutdownInLoop conn
  | forceCloseInLoop conn => conn

/-- The functor was queued by `shutdown` or `forceClose`. -/
def IoFunctor.closes (c : Nat) : IoFunctor → Bool
  | shutdownInLoop conn | forceCloseInLoop conn => conn = c
  | _ => false

/-- A functor in the queue of the base loop. -/
inductive BaseFunctor where
  | removeConnectionInLoop (conn : Nat)
  deriving DecidableEq, Repr

/-- The calls of a connection that can close it. -/
inductive CloseCall where
  | shutdown
  | forceClose
  deriving DecidableEq, Repr

inductive Event where
  | newConnection (conn : Nat)
  /-- `connectEstablelished` has run, and has found the connection in this state. -/
  | connectEstablelished (conn : Nat) (state : StateE)
  /-- `connectionCallback_` has been invoked, and has found the connection in this state. -/
  | connectionCallback (conn : Nat) (state : StateE)
  | closeCallback (conn : Nat)
  /-- `removeConnectionInLoop` has run, and this is what `erase` has returned. -/
  | removeConnectionInLoop (conn n : Nat)
  /-- `connectDestroyed` has run, and has found the connection in this state. -/
  | connectDestroyed (conn : Nat) (state : StateE)
  deriving DecidableEq, Repr

/-- What the server knows of a connection that it has accepted. -/
structure ServerConn where
  ioLoop : Nat
  state : StateE := .kConnecting
  deriving DecidableEq, Repr

/-- `net/TcpServer.h`, with the queues of its loops. A connection is named by its number. -/
structure TcpServer where
  /-- `eventThreadPool_.threadNum_`. -/
  threadNum : Nat
  /-- `eventThreadPool_.loops_.size()`. -/
  loops : Nat := 0
  nextIdx : Nat := 0
  /-- `acceptor_.listening_`. -/
  listening : Bool := false
  started : Bool := false
  nextConnId : Nat := 1
  connections : Std.ExtTreeMap Bytes Nat := ∅
  /-- The connections that have been accepted. -/
  conn : Nat → Option ServerConn := fun _ => none
  /-- `pendingFunc_` of the base loop. -/
  base : List BaseFunctor := []
  /-- `pendingFunc_` of each io loop. -/
  io : Nat → List IoFunctor := fun _ => []
  /-- The connection whose `connectionCallback_` an io loop has come to. -/
  callback : Nat → Option Nat := fun _ => none
  /-- The connections that the loop of `stop` has not come to. -/
  stopping : List Nat := []
  /-- An assertion has failed. -/
  aborted : Bool := false
  trace : List Event := []

/-- A server as its owner has made it; `maxNum` is 0 in the source, and the machine may not tell
its number of processors. -/
def TcpServer.init (maxNum hardware_concurrency : Nat) : TcpServer :=
  let threadNum := if 0 < maxNum then maxNum else hardware_concurrency
  { threadNum := if threadNum = 0 then 1 else threadNum }

/-- `threadName_ + "#" + std::to_string(nextConnId_)`. -/
def connName (connId : Nat) : Bytes := ascii "ClearMoon#" ++ decimal connId

/-- `nextConnId_` is an `int`. -/
def intLimit : Nat := 2 ^ 31

inductive Action where
  | start
  /-- The acceptor has a new connection. -/
  | newConnection
  /-- `stop`, up to its loop; `order` is the order of the copied map. -/
  | stop (order : List Nat)
  /-- `stop` closes its next connection. -/
  | stopNext
  /-- The base loop runs its next functor. -/
  | baseFunc
  /-- An io loop runs its next functor; `writing` is what `channel_.isWriting()` returns. -/
  | ioFunc (ioLoop : Nat) (writing : Bool)
  /-- `connectEstablelished` invokes the connection callback, if there is one. -/
  | connectionCallback (ioLoop : Nat)
  /-- An event or a timer closes a connection. -/
  | handleClose (conn : Nat)
  /-- A user calls a connection, in its io loop or in another thread. -/
  | call (conn : Nat) (c : CloseCall) (inThread writing : Bool)
  deriving DecidableEq, Repr

namespace TcpServer

def note (s : TcpServer) (e : Event) : TcpServer := { s with trace := s.trace ++ [e] }

def setState (s : TcpServer) (c : Nat) (x : ServerConn) (state : StateE) : TcpServer :=
  { s with conn := Function.update s.conn c (some { x with state }) }

def queueInIo (s : TcpServer) (ioLoop : Nat) (f : IoFunctor) : TcpServer :=
  { s with io := Function.update s.io ioLoop (s.io ioLoop ++ [f]) }

def setCallback (s : TcpServer) (ioLoop : Nat) (o : Option Nat) : TcpServer :=
  { s with callback := Function.update s.callback ioLoop o }

def queueInBase (s : TcpServer) (f : BaseFunctor) : TcpServer :=
  { s with base := s.base ++ [f] }

/-- `eventThreadPool_.start()` and `acceptor_.listen()`. -/
def start (s : TcpServer) : TcpServer :=
  if s.started then s
  else { s with loops := s.threadNum, listening := true, started := true }

/-- `EventLoopThreadPool::getNextLoop`, the index it returns. -/
def getNextLoop (s : TcpServer) : Nat := if s.loops ≤ s.nextIdx then 0 else s.nextIdx

/-- `TcpServer::newConnection`. -/
def newConnection (s : TcpServer) : TcpServer :=
  if s.loops = 0 then { s with aborted := true }
  else
    let c := s.nextConnId
    let ioLoop := s.getNextLoop
    ({ s with
      nextIdx := ioLoop + 1
      nextConnId := c + 1
      connections := s.connections.insert (connName c) c
      conn := Function.update s.conn c (some { ioLoop }) }.queueInIo ioLoop
        (.connectEstablelished c)).note (.newConnection c)

/-- The connections in `connections_`. -/
def listed (s : TcpServer) : List Nat := s.connections.toList.map Prod.snd

/-- `TcpServer::stop`, up to its loop over a copy of `connections_`. -/
def stop (s : TcpServer) (order : List Nat) : TcpServer :=
  if s.started then { s with started := false, listening := false, stopping := order } else s

/-- `TcpConnection::handleClose`, up to `removeConnection`. -/
def handleClose (s : TcpServer) (c : Nat) (x : ServerConn) : TcpServer :=
  match x.state with
  | .kDisConnected => s
  | .kConnecting => { s with aborted := true }
  | .kConnected | .kDisConnecting =>
    ((s.setState c x .kDisConnected).note (.closeCallback c)).queueInBase
      (.removeConnectionInLoop c)

/-- `TcpConnection::shutdownInLoop`. -/
def shutdownInLoop (s : TcpServer) (c : Nat) (x : ServerConn) (writing : Bool) : TcpServer :=
  if writing then s else s.handleClose c x

/-- `TcpConnection::forceCloseInLoop`. -/
def forceCloseInLoop (s : TcpServer) (c : Nat) (x : ServerConn) : TcpServer :=
  if x.state = .kConnected ∨ x.state = .kDisConnecting then s.handleClose c x else s

/-- `TcpConnection::shutdown`. -/
def shutdown (s : TcpServer) (c : Nat) (x : ServerConn) (inThread writing : Bool) : TcpServer :=
  if x.state = .kConnected then
    let s := s.setState c x .kDisConnecting
    if inThread then s.shutdownInLoop c { x with state := .kDisConnecting } writing
    else s.queueInIo x.ioLoop (.shutdownInLoop c)
  else s

/-- `TcpConnection::forceClose`. -/
def forceClose (s : TcpServer) (c : Nat) (x : ServerConn) (inThread : Bool) : TcpServer :=
  if x.state = .kConnected ∨ x.state = .kDisConnecting then
    let s := s.setState c x .kDisConnecting
    if inThread then s.forceCloseInLoop c { x with state := .kDisConnecting }
    else s.queueInIo x.ioLoop (.forceCloseInLoop c)
  else s

def call (s : TcpServer) (c : Nat) (x : ServerConn) (inThread writing : Bool) :
    CloseCall → TcpServer
  | .shutdown => s.shutdown c x inThread writing
  | .forceClose => s.forceClose c x inThread

/-- `TcpConnection::connectEstablelished`, up to the connection callback. -/
def connectEstablelished (s : TcpServer) (c : Nat) (x : ServerConn) : TcpServer :=
  if x.state ≠ .kConnecting then { s with aborted := true }.note (.connectEstablelished c x.state)
  else
    ((s.setState c x .kConnected).note (.connectEstablelished c x.state)).setCallback x.ioLoop
      (some c)

/-- `TcpConnection::connectDestroyed`. -/
def connectDestroyed (s : TcpServer) (c : Nat) (x : ServerConn) : TcpServer :=
  (if x.state = .kConnected then s.setState c x .kDisConnected else s).note
    (.connectDestroyed c x.state)

/-- `TcpServer::removeConnectionInLoop`. -/
def removeConnectionInLoop (s : TcpServer) (c : Nat) (x : ServerConn) : TcpServer :=
  let n := if connName c ∈ s.connections then 1 else 0
  let s := { s with connections := s.connections.erase (connName c) }.note
    (.removeConnectionInLoop c n)
  if n ≠ 1 then s else s.queueInIo x.ioLoop (.connectDestroyed c)

/-- A functor of an io loop. -/
def runIo (s : TcpServer) (x : ServerConn) (writing : Bool) : IoFunctor → TcpServer
  | .connectEstablelished c => s.connectEstablelished c x
  | .connectDestroyed c => s.connectDestroyed c x
  | .shutdownInLoop c => s.shutdownInLoop c x writing
  | .forceCloseInLoop c => s.forceCloseInLoop c x

/-- The connection has been handed to its user, by the connection callback. -/
def handedOut (s : TcpServer) (c : Nat) : Bool :=
  s.trace.any fun
    | .connectionCallback d _ => d = c
    | _ => false

def step (s : TcpServer) (a : Action) : Option TcpServer :=
  if s.aborted then none
  else match a with
  | .start => if s.stopping = [] then some s.start else none
  | .newConnection =>
    if s.stopping = [] ∧ s.listening ∧ s.nextConnId < intLimit then some s.newConnection else none
  | .stop order =>
    if s.stopping = [] ∧ order.Perm s.listed then some (s.stop order) else none
  | .stopNext =>
    match s.stopping with
    | [] => none
    | c :: rest => (s.conn c).map fun x => { s with stopping := rest }.forceClose c x false
  | .baseFunc =>
    match s.stopping, s.base with
    | [], .removeConnectionInLoop c :: rest =>
      (s.conn c).map fun x => { s with base := rest }.removeConnectionInLoop c x
    | _, _ => none
  | .ioFunc i writing =>
    match s.callback i, s.io i with
    | none, f :: rest =>
      (s.conn f.conn).map fun x =>
        { s with io := Function.update s.io i rest }.runIo x writing f
    | _, _ => none
  | .connectionCallback i =>
    match s.callback i with
    | none => none
    | some c =>
      (s.conn c).map fun x => (s.setCallback i none).note (.connectionCallback c x.state)
  | .handleClose c =>
    -- a connection has events and timers only when it has been established
    match s.conn c with
    | none => none
    | some x =>
      if x.state ≠ .kConnecting ∧ s.callback x.ioLoop = none then some (s.handleClose c x) else none
  | .call c call inThread writing =>
    match s.conn c with
    | none => none
    | some x =>
      if s.handedOut c ∧ (inThread → s.callback x.ioLoop = none) then
        some (s.call c x inThread writing call)
      else none

/-- What a step does: an operation of the server or of a connection, on the state behind what the
step has taken from a queue. -/
inductive Steps (s : TcpServer) : Action → TcpServer → Prop
  | start : Steps s .start s.start
  | newConnection (hlistening : s.listening = true) : Steps s .newConnection s.newConnection
  | stop {order} (hstopping : s.stopping = []) (horder : order.Perm s.listed) :
      Steps s (.stop order) (s.stop order)
  | stopNext {c rest x} (hstopping : s.stopping = c :: rest) (hx : s.conn c = some x) :
      Steps s .stopNext ({ s with stopping := rest }.forceClose c x false)
  | baseFunc {c rest x} (hbase : s.base = .removeConnectionInLoop c :: rest)
      (hx : s.conn c = some x) :
      Steps s .baseFunc ({ s with base := rest }.removeConnectionInLoop c x)
  | ioFunc {i writing f rest x} (hcallback : s.callback i = none) (hio : s.io i = f :: rest)
      (hx : s.conn f.conn = some x) :
      Steps s (.ioFunc i writing)
        ({ s with io := Function.update s.io i rest }.runIo x writing f)
  | connectionCallback {i c x} (hcallback : s.callback i = some c) (hx : s.conn c = some x) :
      Steps s (.connectionCallback i)
        ((s.setCallback i none).note (.connectionCallback c x.state))
  | handleClose {c x} (hx : s.conn c = some x) (hstate : x.state ≠ .kConnecting)
      (hcallback : s.callback x.ioLoop = none) : Steps s (.handleClose c) (s.handleClose c x)
  | call {c call inThread writing x} (hx : s.conn c = some x) (hhanded : s.handedOut c = true)
      (hcallback : inThread = true → s.callback x.ioLoop = none) :
      Steps s (.call c call inThread writing) (s.call c x inThread writing call)

/-- A step is one of the cases, with all that it asks of the state before it. -/
theorem steps_of_step {s t : TcpServer} {a : Action} (h : s.step a = some t) :
    s.aborted = false ∧ Steps s a t := by
  simp only [step] at h
  split at h
  · contradiction
  · rename_i haborted
    refine ⟨by simpa using haborted, ?_⟩
    cases a with
    | start =>
      dsimp only at h
      split at h
      · obtain rfl := Option.some.inj h
        exact .start
      · contradiction
    | newConnection =>
      dsimp only at h
      split at h
      · rename_i hready
        obtain rfl := Option.some.inj h
        exact .newConnection hready.2.1
      · contradiction
    | stop order =>
      dsimp only at h
      split at h
      · rename_i hready
        obtain rfl := Option.some.inj h
        exact .stop hready.1 hready.2
      · contradiction
    | stopNext =>
      dsimp only at h
      split at h
      · contradiction
      · rename_i c rest hstopping
        obtain ⟨x, hx, rfl⟩ := Option.map_eq_some_iff.mp h
        exact .stopNext hstopping hx
    | baseFunc =>
      dsimp only at h
      split at h
      · rename_i c rest _ hbase
        obtain ⟨x, hx, rfl⟩ := Option.map_eq_some_iff.mp h
        exact .baseFunc hbase hx
      · contradiction
    | ioFunc i writing =>
      dsimp only at h
      split at h
      · rename_i f rest hcallback hio
        obtain ⟨x, hx, rfl⟩ := Option.map_eq_some_iff.mp h
        exact .ioFunc hcallback hio hx
      · contradiction
    | connectionCallback i =>
      dsimp only at h
      split at h
      · contradiction
      · rename_i c hcallback
        obtain ⟨x, hx, rfl⟩ := Option.map_eq_some_iff.mp h
        exact .connectionCallback hcallback hx
    | handleClose c =>
      dsimp only at h
      split at h
      · contradiction
      · rename_i x hx
        split at h
        · rename_i hready
          obtain rfl := Option.some.inj h
          exact .handleClose hx hready.1 hready.2
        · contradiction
    | call c call inThread writing =>
      dsimp only at h
      split at h
      · contradiction
      · rename_i x hx
        split at h
        · rename_i hready
          obtain rfl := Option.some.inj h
          exact .call hx hready.1 hready.2
        · contradiction

end TcpServer

end ClearMoon.Server

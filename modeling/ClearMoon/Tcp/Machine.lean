import ClearMoon.Core.Machine
import ClearMoon.Tcp.Connection

/-!
# Runs of a connection

The steps of the loop thread, in the order in which `EventLoop::loop` takes them, the steps of user
code that the loop thread runs, the calls of other threads, and time. A call of another thread is
one step here; `ClearMoon.Tcp.Threads` takes `shutdown` and `forceClose` apart. The kernel and the
allocator answer every step as they like, but hand out no descriptor and no address that is in use.
-/

namespace ClearMoon.Tcp

open ClearMoon.Net ClearMoon.Timer

inductive Action where
  /-- `epoll_wait` returns, with the events of the connection's channel. -/
  | poll (ready : List Source) (revents : Revents)
  /-- The loop comes to the next active channel. -/
  | dispatch
  /-- `doPendingFuncs` swaps the queue out. -/
  | doPendingFuncs
  /-- `doPendingFuncs` comes to its next functor. -/
  | nextFunc
  /-- The loop thread runs what it is to run next. -/
  | run (env : Env)
  /-- The code on top of the stack goes on. -/
  | resume (env : Env)
  /-- User code in the loop thread calls the connection. -/
  | call (c : ConnCall)
  /-- The owner destroys the connection, in the loop thread. -/
  | connectDestroyed
  /-- A message callback takes bytes out of the input buffer. -/
  | retrieve (len : Nat)
  /-- User code adds a timer of its own. -/
  | addTimer (when_ : Int) (interval : Interval) (timer : Addr)
  /-- User code cancels a timer of its own. -/
  | cancelTimer (id : TimerId)
  /-- User code returns. -/
  | ret
  /-- Another thread calls the connection. -/
  | callElsewhere (c : ConnCall)
  /-- The owner destroys the connection, in another thread. -/
  | connectDestroyedElsewhere
  /-- Another thread queues a functor that does not belong to the connection. -/
  | runElsewhere
  | tick (micros : Nat)

namespace TcpLoop

/-- A connection as its owner has made it, with `connectEstablelished` queued. -/
def start (fd : Nat) (callbacks : Callback → Bool) (disk : Bytes → Bytes) : TcpLoop where
  conn := { channel := { fd }, callbacks }
  disk := disk
  pendingFunc := [.connectEstablelished]

/-- What the allocator and `::open` may answer. -/
structure EnvOk (w : TcpLoop) (env : Env) : Prop where
  timer : w.timers.AddressOk env.timer
  file : ∀ fd ∈ env.opened.fd?, w.files.get? fd = none

instance (w : TcpLoop) (env : Env) : Decidable (w.EnvOk env) :=
  decidable_of_iff
    (w.timers.AddressOk env.timer ∧ env.opened.fd?.all (fun fd => (w.files.get? fd).isNone) = true)
    ⟨fun h => ⟨h.1, by simpa [Option.all_eq_true] using h.2⟩,
      fun h => ⟨h.timer, by simpa [Option.all_eq_true] using h.file⟩⟩

/-- The loop thread is in the body of `loop` or of `doPendingFuncs`. -/
def idle (w : TcpLoop) : Bool := w.todo.isNone && w.stack.isEmpty

/-- The loop thread runs user code. -/
def inUserCode (w : TcpLoop) : Bool :=
  w.todo.isNone && match w.stack with
    | .user _ :: _ => true
    | _ => false

/-- What `epoll_wait` may report: each channel once, and only what is registered. -/
def reportable (w : TcpLoop) (ready : List Source) : Bool :=
  ready.Nodup && (!ready.contains .conn || match w.poller.interest[w.conn.channel.fd]? with
    | some (_, .conn) => true
    | _ => false)

/-- No timer of the connection has this id. -/
def isUserTimer (w : TcpLoop) (id : TimerId) : Bool :=
  match w.timers.queue.heap.get? id.timer with
  | some t => t.sequence ≠ id.sequence || t.callback = .user
  | none => true

/-- The loop of `TimerQueue::handleRead`: a callback returns, the next one is run, or the batch
is over. -/
def handleTimers (w : TcpLoop) : Option TcpLoop :=
  match w.timers.batch with
  | none => none
  | some ⟨_, _, _, true⟩ =>
    (w.timers.step .callbackReturns).map fun timers => { w with timers }.push .timerQueue
  | some ⟨_, _, e :: _, false⟩ =>
    (w.timers.step .nextEntry).map fun timers =>
      { w with timers, todo := (w.timers.queue.runEntry e).1.map Task.functor }.push .timerQueue
  | some ⟨_, _, [], false⟩ => (w.timers.step .endBatch).map fun timers => { w with timers }

/-- The code of a frame that has been taken off the stack. -/
def resumeFrame (w : TcpLoop) (env : Env) : Frame → Option TcpLoop
  | .user _ => none
  | .handleEvent stage => some (w.handleEvent env stage)
  | .handleWrite => some (w.handleWriteRest env)
  | .handleWriteEnd => some w.handleWriteEnd
  | .sendFunc data seq => some (w.sendFuncEnd data seq env)
  | .onRetransmitTimeout seq node => some (w.onRetransmitTimeoutEnd seq node env)
  | .timerQueue => w.handleTimers

/-- The loop thread begins with what it was to run next. -/
def clearTodo (w : TcpLoop) : TcpLoop := { w with todo := none }

/-- The loop comes to an active channel. -/
def dispatch (w : TcpLoop) : Source → Option TcpLoop
  | .conn => some (w.push (.handleEvent .error))
  | .timerQueue =>
    (w.timers.step .handleRead).map fun timers => { w with timers }.push .timerQueue
  | .other _ => some (w.push (.user none))

def step (w : TcpLoop) (a : Action) : Option TcpLoop :=
  if w.aborted then none
  else match a with
  | .poll ready revents =>
    if w.idle ∧ !w.eventHanding ∧ w.func = [] ∧ w.reportable ready then
      let w := { w with activeChannels := ready, eventHanding := true }
      some (if Source.conn ∈ ready then { w with conn.channel.revents := revents } else w)
    else none
  | .dispatch =>
    match w.idle && w.eventHanding, w.activeChannels with
    | true, s :: rest => { w with activeChannels := rest }.dispatch s
    | _, _ => none
  | .doPendingFuncs =>
    if w.idle ∧ w.eventHanding ∧ w.activeChannels = [] ∧ w.func = [] then
      some { w with eventHanding := false, func := w.pendingFunc, pendingFunc := [] }
    else none
  | .nextFunc =>
    match w.idle && !w.eventHanding, w.func with
    | true, f :: fs => some { w with todo := some f, func := fs }
    | _, _ => none
  | .run env =>
    match w.todo with
    | some f => if w.EnvOk env then some (w.clearTodo.run env f) else none
    | none => none
  | .resume env =>
    match w.todo, w.stack with
    | none, frame :: rest =>
      if w.EnvOk env then { w with stack := rest }.resumeFrame env frame else none
    | _, _ => none
  | .call c => if w.inUserCode then some (w.call true c) else none
  | .connectDestroyed =>
    if w.inUserCode then some (w.runInLoop true .connectDestroyed) else none
  | .retrieve len =>
    match w.todo, w.stack with
    | none, .user (some .message) :: _ =>
      some { w with conn.readBuffer := w.conn.readBuffer.retrieve len }
    | _, _ => none
  | .addTimer when_ interval timer =>
    if w.inUserCode then
      (w.timers.step (.addTimer .user when_ interval timer)).map fun timers => { w with timers }
    else none
  | .cancelTimer id =>
    if w.inUserCode ∧ w.isUserTimer id then
      (w.timers.step (.cancel id)).map fun timers => { w with timers }
    else none
  | .ret =>
    match w.todo, w.stack with
    | none, .user _ :: rest => some { w with stack := rest }
    | _, _ => none
  | .callElsewhere c => some (w.call false c)
  | .connectDestroyedElsewhere => some (w.runInLoop false .connectDestroyed)
  | .runElsewhere => some (w.runInLoop false .user)
  | .tick micros => (w.timers.step (.tick micros)).map fun timers => { w with timers }

/-! ## What a step is -/

/-- The steps of a connection that has not been aborted, with what they require. -/
inductive Stepped (w : TcpLoop) : Action → TcpLoop → Prop
  | poll {ready revents w'} (hidle : w.idle = true) (hfunc : w.func = [])
      (hready : w.reportable ready = true)
      (h : w' = { w with activeChannels := ready, eventHanding := true } ∨
        w' = { w with
          activeChannels := ready
          eventHanding := true
          conn.channel.revents := revents }) : Stepped w (.poll ready revents) w'
  | event {rest} (hidle : w.idle = true) (hactive : w.activeChannels = .conn :: rest) :
      Stepped w .dispatch ({ w with activeChannels := rest }.push (.handleEvent .error))
  | timerEvent {rest timers} (hidle : w.idle = true)
      (hactive : w.activeChannels = .timerQueue :: rest)
      (h : w.timers.step .handleRead = some timers) :
      Stepped w .dispatch ({ w with activeChannels := rest, timers }.push .timerQueue)
  | otherEvent {key rest} (hidle : w.idle = true)
      (hactive : w.activeChannels = .other key :: rest) :
      Stepped w .dispatch ({ w with activeChannels := rest }.push (.user none))
  | doPendingFuncs (hidle : w.idle = true) (hfunc : w.func = []) :
      Stepped w .doPendingFuncs { w with
        eventHanding := false
        func := w.pendingFunc
        pendingFunc := [] }
  | nextFunc {f fs} (hidle : w.idle = true) (hfunc : w.func = f :: fs) :
      Stepped w .nextFunc { w with todo := some f, func := fs }
  | run {env f} (htodo : w.todo = some f) (henv : w.EnvOk env) :
      Stepped w (.run env) (w.clearTodo.run env f)
  | resume {env frame rest w'} (htodo : w.todo = none) (hstack : w.stack = frame :: rest)
      (henv : w.EnvOk env) (h : { w with stack := rest }.resumeFrame env frame = some w') :
      Stepped w (.resume env) w'
  | call {c} (huser : w.inUserCode = true) : Stepped w (.call c) (w.call true c)
  | connectDestroyed (huser : w.inUserCode = true) :
      Stepped w .connectDestroyed (w.runInLoop true .connectDestroyed)
  | retrieve {len rest} (htodo : w.todo = none) (hstack : w.stack = .user (some .message) :: rest) :
      Stepped w (.retrieve len) { w with conn.readBuffer := w.conn.readBuffer.retrieve len }
  | addTimer {when_ interval timer timers} (huser : w.inUserCode = true)
      (h : w.timers.step (.addTimer .user when_ interval timer) = some timers) :
      Stepped w (.addTimer when_ interval timer) { w with timers }
  | cancelTimer {id timers} (huser : w.inUserCode = true) (hid : w.isUserTimer id = true)
      (h : w.timers.step (.cancel id) = some timers) : Stepped w (.cancelTimer id) { w with timers }
  | ret {cb rest} (htodo : w.todo = none) (hstack : w.stack = .user cb :: rest) :
      Stepped w .ret { w with stack := rest }
  | callElsewhere {c} : Stepped w (.callElsewhere c) (w.call false c)
  | connectDestroyedElsewhere :
      Stepped w .connectDestroyedElsewhere (w.runInLoop false .connectDestroyed)
  | runElsewhere : Stepped w .runElsewhere (w.runInLoop false .user)
  | tick {micros timers} (h : w.timers.step (.tick micros) = some timers) :
      Stepped w (.tick micros) { w with timers }

variable {w w' : TcpLoop}

/-- A step is one of the cases, with all that it asks of the state before it. -/
theorem stepped_of_step {a : Action} (h : w.step a = some w') : Stepped w a w' := by
  simp only [step] at h
  split at h
  · contradiction
  · cases a with
    | poll ready revents =>
      obtain ⟨⟨hidle, -, hfunc, hready⟩, h⟩ := Option.ite_none_right_eq_some.mp h
      refine .poll hidle hfunc hready ?_
      split at h
      · exact .inr (Option.some.inj h).symm
      · exact .inl (Option.some.inj h).symm
    | dispatch =>
      dsimp only at h
      split at h
      · rename_i s rest hidle hactive
        have hidle : w.idle = true := (Bool.and_eq_true_iff.mp hidle).1
        cases s with
        | conn =>
          obtain rfl := Option.some.inj h
          exact .event hidle hactive
        | timerQueue =>
          obtain ⟨timers, htimers, rfl⟩ := Option.map_eq_some_iff.mp h
          exact .timerEvent hidle hactive htimers
        | other key =>
          obtain rfl := Option.some.inj h
          exact .otherEvent hidle hactive
      · contradiction
    | doPendingFuncs =>
      obtain ⟨⟨hidle, -, -, hfunc⟩, h⟩ := Option.ite_none_right_eq_some.mp h
      obtain rfl := Option.some.inj h
      exact .doPendingFuncs hidle hfunc
    | nextFunc =>
      dsimp only at h
      split at h
      · rename_i f fs hidle hfunc
        obtain rfl := Option.some.inj h
        exact .nextFunc (Bool.and_eq_true_iff.mp hidle).1 hfunc
      · contradiction
    | run env =>
      dsimp only at h
      split at h
      · rename_i f htodo
        obtain ⟨henv, h⟩ := Option.ite_none_right_eq_some.mp h
        obtain rfl := Option.some.inj h
        exact .run htodo henv
      · contradiction
    | resume env =>
      dsimp only at h
      split at h
      · rename_i frame rest htodo hstack
        obtain ⟨henv, h⟩ := Option.ite_none_right_eq_some.mp h
        exact .resume htodo hstack henv h
      · contradiction
    | call c =>
      obtain ⟨huser, h⟩ := Option.ite_none_right_eq_some.mp h
      obtain rfl := Option.some.inj h
      exact .call huser
    | connectDestroyed =>
      obtain ⟨huser, h⟩ := Option.ite_none_right_eq_some.mp h
      obtain rfl := Option.some.inj h
      exact .connectDestroyed huser
    | retrieve len =>
      dsimp only at h
      split at h
      · rename_i rest htodo hstack
        obtain rfl := Option.some.inj h
        exact .retrieve htodo hstack
      · contradiction
    | addTimer when_ interval timer =>
      obtain ⟨huser, h⟩ := Option.ite_none_right_eq_some.mp h
      obtain ⟨timers, htimers, rfl⟩ := Option.map_eq_some_iff.mp h
      exact .addTimer huser htimers
    | cancelTimer id =>
      obtain ⟨⟨huser, hid⟩, h⟩ := Option.ite_none_right_eq_some.mp h
      obtain ⟨timers, htimers, rfl⟩ := Option.map_eq_some_iff.mp h
      exact .cancelTimer huser hid htimers
    | ret =>
      dsimp only at h
      split at h
      · rename_i cb rest htodo hstack
        obtain rfl := Option.some.inj h
        exact .ret htodo hstack
      · contradiction
    | callElsewhere c =>
      obtain rfl := Option.some.inj h
      exact .callElsewhere
    | connectDestroyedElsewhere =>
      obtain rfl := Option.some.inj h
      exact .connectDestroyedElsewhere
    | runElsewhere =>
      obtain rfl := Option.some.inj h
      exact .runElsewhere
    | tick micros =>
      obtain ⟨timers, htimers, rfl⟩ := Option.map_eq_some_iff.mp h
      exact .tick htimers

end TcpLoop

end ClearMoon.Tcp

import ClearMoon.Core.Machine
import ClearMoon.Net.Channel
import ClearMoon.Timer.Armed

/-!
# Connecting

`net/Connector.cc` with all it sets and clears: its state, its channel, its socket and the timer
of an attempt, in the event loop that holds the timer. The loop's other timers run user code, which
may start and stop the connector in the middle of a batch. The dispatch of the channel's events is
given test by test, because the callbacks may destroy the channel that is being dispatched.
-/

namespace ClearMoon.Connect

open ClearMoon.Net ClearMoon.Timer

/-- `Connector::States`. -/
inductive States where
  | kDisconnected
  | kConnecting
  | kConnected
  deriving DecidableEq, Repr

/-- The callbacks of the timers in the loop. -/
inductive Task where
  | handleTimeout
  /-- A timer that does not belong to the connector. -/
  | user
  deriving DecidableEq, Repr

/-- Result of `::socket` and of `::connect` on its descriptor. -/
inductive ConnectResult where
  | noSocket
  | connected (fd : Nat)
  | inProgress (fd : Nat)
  | failed (fd : Nat)
  deriving DecidableEq, Repr

/-- The attempt does not fail at once. -/
def ConnectResult.proceeds : ConnectResult → Bool
  | .connected _ | .inProgress _ => true
  | .noSocket | .failed _ => false

/-- `net/Connector.h`. -/
structure Connector where
  state : States := .kDisconnected
  /-- `channel_`, with a name of its own for every channel that was made. -/
  channel : Option (Nat × Channel) := none
  sock : Option Nat := none
  /-- `newConnCallback_` is installed. -/
  newConnCallback : Bool
  connectTimeoutId : Option TimerId := none

/-- `connectTimeout_`, in microseconds. -/
def connectTimeout : Int := 1000000

/-- A connector and its event loop. -/
structure ConnectorLoop where
  connector : Connector
  poller : Epoller Nat := {}
  /-- The name of the next channel. -/
  nextChannel : Nat := 0
  timers : TimerLoop Task := {}
  /-- The sockets that were passed to `newConnCallback_`. -/
  handedOut : List Nat := []
  /-- `channel_` was followed while it was null. -/
  crashed : Bool := false

namespace ConnectorLoop

def setState (w : ConnectorLoop) (s : States) : ConnectorLoop := { w with connector.state := s }

/-- Assign to `sock_`; the old descriptor is closed, and leaves the kernel's interest list. -/
def setSock (w : ConnectorLoop) (fd : Option Nat) : ConnectorLoop :=
  let poller := match w.connector.sock with
    | some old => w.poller.ctlDel old
    | none => w.poller
  { w with connector.sock := fd, poller }

/-- `channel_->remove()` and `channel_.reset()`; the destructor removes the channel again. -/
def dropChannel (w : ConnectorLoop) : ConnectorLoop :=
  match w.connector.channel with
  | none => { w with crashed := true }
  | some (_, c) =>
    let (c, poller) := c.remove w.poller
    let (_, poller) := c.remove poller
    { w with poller, connector.channel := none }

/-- Assign a new channel for `fd` to `channel_`, which destroys the old one, and enable it. -/
def makeChannel (w : ConnectorLoop) (fd : Nat) : ConnectorLoop :=
  let poller := match w.connector.channel with
    | some (_, c) => (c.remove w.poller).2
    | none => w.poller
  let (c, poller) := Channel.enableWriting { fd } poller w.nextChannel
  { w with connector.channel := some (w.nextChannel, c), poller, nextChannel := w.nextChannel + 1 }

/-- `loop_->runAfter` for `handleTimeout`; the id is kept. -/
def armTimeout (w : ConnectorLoop) (timer : Addr) : ConnectorLoop :=
  if h : w.timers.queue.heap.get? timer = none then
    { w with
      connector.connectTimeoutId := some ⟨timer, w.timers.queue.heap.born⟩
      timers.queue := w.timers.queue.add .handleTimeout (w.timers.clock + connectTimeout) .zero
        timer h w.timers.clock }
  else w

/-- Cancel the timer of the attempt, if the id is valid, and forget the id. -/
def cancelTimeout (w : ConnectorLoop) : ConnectorLoop :=
  match w.connector.connectTimeoutId with
  | none => w
  | some id => { w with
      connector.connectTimeoutId := none
      timers.queue := w.timers.queue.cancelInLoop id }

/-- Call `newConnCallback_` with the socket, if one is installed. -/
def newConnection (w : ConnectorLoop) : ConnectorLoop :=
  if w.connector.newConnCallback then
    { w with connector.sock := none, handedOut := w.handedOut ++ w.connector.sock.toList }
  else w

/-- `Connector::connect`. -/
def connect (w : ConnectorLoop) (r : ConnectResult) (timer : Addr) : ConnectorLoop :=
  match r with
  | .noSocket => w.setSock none
  | .connected fd => ((w.setSock (some fd)).setState .kConnected).newConnection
  | .inProgress fd =>
    (((w.setSock (some fd)).setState .kConnecting).makeChannel fd).armTimeout timer
  | .failed fd => (w.setSock (some fd)).setSock none

/-- `Connector::stop`, in the loop. -/
def stop (w : ConnectorLoop) : ConnectorLoop :=
  let w :=
    if w.connector.state = .kConnecting then
      let w := w.setState .kDisconnected
      let w := if w.connector.channel.isSome then w.dropChannel else w
      w.setSock none
    else w
  w.cancelTimeout

/-- `Connector::handleWrite`; `err` is whether `SO_ERROR` is set. -/
def handleWrite (w : ConnectorLoop) (err : Bool) : ConnectorLoop :=
  if w.connector.state ≠ .kConnecting then w
  else if err then (w.dropChannel.setSock none).setState .kDisconnected
  else (w.cancelTimeout.setState .kConnected).dropChannel.newConnection

/-- `Connector::handleError`. -/
def handleError (w : ConnectorLoop) : ConnectorLoop :=
  if w.connector.state = .kConnecting then
    ((w.dropChannel.setSock none).setState .kDisconnected).cancelTimeout
  else w

/-- `Connector::handleTimeout`. -/
def handleTimeout (w : ConnectorLoop) : ConnectorLoop :=
  if w.connector.state ≠ .kConnecting then w
  else
    let w := (w.dropChannel.setSock none).setState .kDisconnected
    { w with connector.connectTimeoutId := none }

end ConnectorLoop

/-! ## Dispatching the channel's events -/

/-- The four tests of `Channel::handleEvent`. -/
inductive EventTest where
  | error
  | read
  | hup
  | write
  deriving DecidableEq, Repr

/-- `handleEvent` of a channel in progress: the loop, and the tests it has made of `revents_`,
each with whether the channel was there. -/
structure Dispatch where
  loop : ConnectorLoop
  tests : List (EventTest × Bool) := []

namespace ConnectorLoop

/-- `channel_` is this channel. -/
def hasChannel (w : ConnectorLoop) (k : Nat) : Bool := w.connector.channel.any (·.1 = k)

/-- What a test does whose callback is the error callback. -/
def onError (w : ConnectorLoop) (set : Bool) : ConnectorLoop := if set then w.handleError else w

/-- The write test; `user` is what the new connection callback goes on to do. -/
def onWrite (w : ConnectorLoop) (set err : Bool) (user : ConnectorLoop → ConnectorLoop) :
    ConnectorLoop :=
  if set then user (w.handleWrite err) else w

end ConnectorLoop

namespace Dispatch

/-- Read `revents_` of the channel `k`. -/
def test (d : Dispatch) (k : Nat) (t : EventTest) : Dispatch :=
  { d with tests := d.tests ++ [(t, d.loop.hasChannel k)] }

/-- The four tests in their order. The connector installs no read callback. -/
def handleEvent (d : Dispatch) (k : Nat) (revents : Revents) (err : Bool)
    (user : ConnectorLoop → ConnectorLoop) : Dispatch :=
  let d := d.test k .error
  let d := { d with loop := d.loop.onError revents.epollerr }
  let d := d.test k .read
  let d := d.test k .hup
  let d := { d with loop := d.loop.onError (revents.epollhup && !revents.epollin) }
  let d := d.test k .write
  { d with loop := d.loop.onWrite revents.epollout err user }

end Dispatch

namespace ConnectorLoop

/-- Dispatch events to the connector's channel, if there is one. -/
def dispatch (w : ConnectorLoop) (revents : Revents) (err : Bool)
    (user : ConnectorLoop → ConnectorLoop) : Dispatch :=
  match w.connector.channel with
  | none => { loop := w }
  | some (k, _) => Dispatch.handleEvent { loop := w } k revents err user

/-- No test is made on a channel that is gone. -/
def Untouched (d : Dispatch) : Prop := ∀ t ∈ d.tests, t.2 = true

instance (d : Dispatch) : Decidable (Untouched d) := by
  unfold Untouched
  infer_instance

variable {w : ConnectorLoop}

/-- The connector has no channel once its callbacks have dropped it. -/
theorem channel_dropChannel : w.dropChannel.connector.channel = none := by
  rw [dropChannel]
  cases h : w.connector.channel with
  | none => exact h
  | some kc => rfl

/-- The channel goes without a change of state. -/
@[simp] theorem state_dropChannel : w.dropChannel.connector.state = w.connector.state := by
  rw [dropChannel]
  split <;> rfl

/-- The timeout goes without a change of the channel. -/
@[simp] theorem channel_cancelTimeout :
    w.cancelTimeout.connector.channel = w.connector.channel := by
  rw [cancelTimeout]
  split <;> rfl

/-- Nor does the state change with it. -/
@[simp] theorem state_cancelTimeout : w.cancelTimeout.connector.state = w.connector.state := by
  rw [cancelTimeout]
  split <;> rfl

/-- The error callback ends an attempt in progress and destroys its channel. -/
theorem handleError_cases (w : ConnectorLoop) :
    (w.connector.state = .kConnecting ∧ w.handleError.connector.channel = none ∧
        w.handleError.connector.state = .kDisconnected) ∨
      (w.connector.state ≠ .kConnecting ∧ w.handleError = w) := by
  rw [handleError]
  by_cases h : w.connector.state = .kConnecting
  · rw [if_pos h, channel_cancelTimeout, state_cancelTimeout]
    exact .inl ⟨h, channel_dropChannel, rfl⟩
  · exact .inr ⟨h, if_neg h⟩

/-- An error takes the channel just where it was set and the attempt is under way. -/
theorem hasChannel_onError (w : ConnectorLoop) (set : Bool) (k : Nat) :
    (w.onError set).hasChannel k =
      (w.hasChannel k && !(set && w.connector.state = .kConnecting)) := by
  cases set with
  | false => simp [onError]
  | true =>
    rw [onError, if_pos rfl]
    rcases w.handleError_cases with ⟨h, hgone, -⟩ | ⟨h, hsame⟩
    · simp [hasChannel, hgone, h]
    · simp [hsame, h]

/-- The attempt stays under way when there was no error. -/
theorem state_onError (w : ConnectorLoop) (set : Bool) :
    (w.onError set).connector.state = .kConnecting ↔
      w.connector.state = .kConnecting ∧ set = false := by
  cases set with
  | false => simp [onError]
  | true =>
    rw [onError, if_pos rfl]
    rcases w.handleError_cases with ⟨h, -, hstate⟩ | ⟨h, hsame⟩
    · simp [hstate]
    · simp [hsame, h]

/-- The channel outlives its dispatch except when an attempt is in progress and an error is
reported: as an error, or as a hang-up without input. -/
theorem dispatch_untouched_iff (w : ConnectorLoop) (revents : Revents) (err : Bool)
    (user : ConnectorLoop → ConnectorLoop) :
    Untouched (w.dispatch revents err user) ↔
      ¬(w.connector.channel.isSome ∧ w.connector.state = .kConnecting ∧
        (revents.epollerr = true ∨ revents.epollhup = true ∧ revents.epollin = false)) := by
  rw [dispatch]
  cases hc : w.connector.channel with
  | none => simp [Untouched]
  | some kc =>
    obtain ⟨k, c⟩ := kc
    have hself : w.hasChannel k = true := by simp [hasChannel, hc]
    simp only [Untouched, Dispatch.handleEvent, Dispatch.test, List.nil_append,
      List.cons_append, List.mem_cons, List.not_mem_nil, or_false, forall_eq_or_imp, forall_eq,
      hasChannel_onError, state_onError, hself, Bool.true_and]
    by_cases hstate : w.connector.state = .kConnecting
    · cases revents.epollerr <;> cases revents.epollhup <;> cases revents.epollin <;>
        simp [hstate]
    · simp [hstate]

/-- A connector whose first attempt is in progress. -/
def connecting : ConnectorLoop :=
  ConnectorLoop.connect { connector := { newConnCallback := true } } (.inProgress 5) 1

/-- A refused connection: error, hang-up and writeable are reported together, and the channel is
tested three times after `handleError` has destroyed it. -/
theorem tested_when_destroyed :
    ¬Untouched (connecting.dispatch { epollerr := true, epollhup := true, epollout := true } true
      id) := by
  decide +kernel

end ConnectorLoop

end ClearMoon.Connect

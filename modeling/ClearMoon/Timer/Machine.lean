import ClearMoon.Core.Machine
import ClearMoon.Timer.TimerQueue

/-!
# Runs of a timer queue

The loop thread adds and cancels timers, runs functors that other threads queued, and handles
batches of expired timers; the callbacks of a batch add and cancel timers in the middle of it. The
clock moves between any two steps. The allocator may hand out any address that is not in use.
-/

namespace ClearMoon.Timer

variable {κ : Type}

/-- What other threads queue: `runInLoop` outside the loop thread. -/
inductive Functor where
  | addTimerInLoop (timer : Addr)
  | cancelInLoop (id : TimerId)
  deriving DecidableEq, Repr

/-- The timer that the functor is to insert. -/
def Functor.timer? : Functor → Option Addr
  | .addTimerInLoop timer => some timer
  | .cancelInLoop _ => none

/-- A call of `handleRead` in progress. -/
structure Batch where
  /-- The local `now`. -/
  now : Int
  /-- The local `expired`. -/
  expired : List Entry
  /-- The entries that the loop has not come to. -/
  rest : List Entry
  /-- A callback is on the stack. -/
  running : Bool

/-- The loop thread's view of the queue. -/
structure TimerLoop (κ : Type) where
  queue : TimerQueue κ := {}
  pendingFunc : List Functor := []
  batch : Option Batch := none
  clock : Int := 0

/-- The steps of the loop thread, of other threads, and of time. -/
inductive Action (κ : Type) where
  /-- `addTimer` in the loop thread, with the address of the new timer. -/
  | addTimer (cb : κ) (when_ : Int) (interval : Interval) (timer : Addr)
  /-- `cancel` in the loop thread. -/
  | cancel (id : TimerId)
  /-- `addTimer` in another thread. -/
  | addTimerElsewhere (cb : κ) (when_ : Int) (interval : Interval) (timer : Addr)
  /-- `cancel` in another thread. -/
  | cancelElsewhere (id : TimerId)
  /-- The loop runs the functor that was queued first. -/
  | runFunctor
  /-- `handleRead` begins. -/
  | handleRead
  /-- The loop of `handleRead` comes to its next entry. -/
  | nextEntry
  /-- The callback returns. -/
  | callbackReturns
  /-- The loop of `handleRead` is over. -/
  | endBatch
  | tick (micros : Nat)

namespace TimerLoop

/-- User code runs in the loop thread: between operations, or as a callback. -/
def inUserCode (s : TimerLoop κ) : Bool :=
  match s.batch with
  | none => true
  | some b => b.running

/-- Where an allocation may be placed: nowhere in use, not null, and not the sentry. -/
structure AddressOk (s : TimerLoop κ) (timer : Addr) : Prop where
  free : s.queue.heap.get? timer = none
  pos : 0 < timer
  lt : timer < uintptrMax

instance (s : TimerLoop κ) (timer : Addr) : Decidable (s.AddressOk timer) :=
  decidable_of_iff
    ((s.queue.heap.get? timer).isNone = true ∧ 0 < timer ∧ timer < uintptrMax)
    ⟨fun ⟨h, hpos, hlt⟩ => ⟨Option.isNone_iff_eq_none.mp h, hpos, hlt⟩,
      fun h => ⟨Option.isNone_iff_eq_none.mpr h.free, h.pos, h.lt⟩⟩

def runFunctor (q : TimerQueue κ) (now : Int) : Functor → TimerQueue κ
  | .addTimerInLoop timer => q.addTimerInLoop timer now
  | .cancelInLoop id => q.cancelInLoop id

def step (s : TimerLoop κ) : Action κ → Option (TimerLoop κ)
  | .addTimer cb when_ interval timer =>
    if h : s.AddressOk timer ∧ s.inUserCode then
      let (_, q) := s.queue.addTimer cb when_ interval timer h.1.free
      some { s with queue := q.addTimerInLoop timer s.clock }
    else none
  | .cancel id =>
    if s.inUserCode then some { s with queue := s.queue.cancelInLoop id } else none
  | .addTimerElsewhere cb when_ interval timer =>
    if h : s.AddressOk timer then
      let (_, q) := s.queue.addTimer cb when_ interval timer h.free
      some { s with queue := q, pendingFunc := s.pendingFunc ++ [.addTimerInLoop timer] }
    else none
  | .cancelElsewhere id => some { s with pendingFunc := s.pendingFunc ++ [.cancelInLoop id] }
  | .runFunctor =>
    match s.batch, s.pendingFunc with
    | none, f :: fs => some { s with queue := runFunctor s.queue s.clock f, pendingFunc := fs }
    | _, _ => none
  | .handleRead =>
    match s.batch with
    | none =>
      let (expired, q) := s.queue.beginBatch s.clock
      some { s with queue := q, batch := some ⟨s.clock, expired, expired, false⟩ }
    | some _ => none
  | .nextEntry =>
    match s.batch with
    | some ⟨now, expired, e :: rest, false⟩ =>
      let (callback, q) := s.queue.runEntry e
      some { s with queue := q, batch := some ⟨now, expired, rest, callback.isSome⟩ }
    | _ => none
  | .callbackReturns =>
    match s.batch with
    | some ⟨now, expired, rest, true⟩ => some { s with batch := some ⟨now, expired, rest, false⟩ }
    | _ => none
  | .endBatch =>
    match s.batch with
    | some ⟨now, expired, [], false⟩ =>
      some { s with queue := s.queue.endBatch expired now s.clock, batch := none }
    | _ => none
  | .tick micros =>
    let clock := s.clock + micros
    some { s with clock, queue.timerfd := s.queue.timerfd.elapse clock }

/-- The timers whose insertion is still queued. -/
def queued (s : TimerLoop κ) : List Addr := s.pendingFunc.filterMap Functor.timer?

/-- The expired vector of the batch in progress. -/
def expired (s : TimerLoop κ) : List Entry :=
  match s.batch with
  | none => []
  | some b => b.expired

/-- The entries of the batch in progress that the loop has not come to. -/
def rest (s : TimerLoop κ) : List Entry :=
  match s.batch with
  | none => []
  | some b => b.rest

/-- What each step does, with its guards. -/
inductive Moves (s : TimerLoop κ) : Action κ → TimerLoop κ → Prop
  | addTimer {cb when_ interval timer} (h : s.AddressOk timer) (hu : s.inUserCode = true) :
      Moves s (.addTimer cb when_ interval timer) { s with
        queue := (s.queue.addTimer cb when_ interval timer h.free).2.addTimerInLoop timer s.clock }
  | cancel {id} (hu : s.inUserCode = true) :
      Moves s (.cancel id) { s with queue := s.queue.cancelInLoop id }
  | addTimerElsewhere {cb when_ interval timer} (h : s.AddressOk timer) :
      Moves s (.addTimerElsewhere cb when_ interval timer) { s with
        queue := (s.queue.addTimer cb when_ interval timer h.free).2
        pendingFunc := s.pendingFunc ++ [.addTimerInLoop timer] }
  | cancelElsewhere {id} : Moves s (.cancelElsewhere id) { s with
      pendingFunc := s.pendingFunc ++ [.cancelInLoop id] }
  | runFunctor {f fs} (hb : s.batch = none) (hf : s.pendingFunc = f :: fs) :
      Moves s .runFunctor { s with
        queue := TimerLoop.runFunctor s.queue s.clock f
        pendingFunc := fs }
  | handleRead (hb : s.batch = none) : Moves s .handleRead { s with
      queue := (s.queue.beginBatch s.clock).2
      batch := some ⟨s.clock, (s.queue.beginBatch s.clock).1, (s.queue.beginBatch s.clock).1,
        false⟩ }
  | nextEntry {now expired e rest} (hb : s.batch = some ⟨now, expired, e :: rest, false⟩) :
      Moves s .nextEntry { s with
        queue := (s.queue.runEntry e).2
        batch := some ⟨now, expired, rest, (s.queue.runEntry e).1.isSome⟩ }
  | callbackReturns {now expired rest} (hb : s.batch = some ⟨now, expired, rest, true⟩) :
      Moves s .callbackReturns { s with batch := some ⟨now, expired, rest, false⟩ }
  | endBatch {now expired} (hb : s.batch = some ⟨now, expired, [], false⟩) :
      Moves s .endBatch { s with
        queue := s.queue.endBatch expired now s.clock
        batch := none }
  | tick {micros : Nat} : Moves s (.tick micros) { s with
      clock := s.clock + micros
      queue.timerfd := s.queue.timerfd.elapse (s.clock + micros) }

/-- A step is one of the moves, with all that it asks of the state before it. -/
theorem moves_of_step {s s' : TimerLoop κ} {a : Action κ} (h : s.step a = some s') :
    s.Moves a s' := by
  cases a with
  | addTimer cb when_ interval timer =>
    simp only [step] at h
    split at h
    · rename_i hok
      obtain rfl := Option.some.inj h
      exact .addTimer hok.1 hok.2
    · contradiction
  | cancel id =>
    simp only [step] at h
    split at h
    · rename_i hu
      obtain rfl := Option.some.inj h
      exact .cancel hu
    · contradiction
  | addTimerElsewhere cb when_ interval timer =>
    simp only [step] at h
    split at h
    · rename_i hok
      obtain rfl := Option.some.inj h
      exact .addTimerElsewhere hok
    · contradiction
  | cancelElsewhere id =>
    obtain rfl := Option.some.inj h
    exact .cancelElsewhere
  | runFunctor =>
    simp only [step] at h
    split at h
    · rename_i f fs hb hf
      obtain rfl := Option.some.inj h
      exact .runFunctor hb hf
    · contradiction
  | handleRead =>
    simp only [step] at h
    split at h
    · rename_i hb
      obtain rfl := Option.some.inj h
      exact .handleRead hb
    · contradiction
  | nextEntry =>
    simp only [step] at h
    split at h
    · rename_i hb
      obtain rfl := Option.some.inj h
      exact .nextEntry hb
    · contradiction
  | callbackReturns =>
    simp only [step] at h
    split at h
    · rename_i hb
      obtain rfl := Option.some.inj h
      exact .callbackReturns hb
    · contradiction
  | endBatch =>
    simp only [step] at h
    split at h
    · rename_i hb
      obtain rfl := Option.some.inj h
      exact .endBatch hb
    · contradiction
  | tick micros =>
    obtain rfl := Option.some.inj h
    exact .tick

end TimerLoop

end ClearMoon.Timer

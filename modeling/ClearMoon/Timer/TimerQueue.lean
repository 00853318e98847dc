import ClearMoon.Core.Arena

/-!
# The timer queue

`net/TimerQueue.cc` keeps the live timers in two ordered sets, one by expiration and one by
sequence number, and one timerfd that is to fire for the earliest of them. `Timer` objects are
owned through raw pointers: an address may be freed and reused, and a `TimerId` may outlive its
timer. Every operation takes the current time as an argument. The queue also carries a log of what
it did, which no operation reads.

Times are integers without bounds here and `int64_t` microseconds in the source, so what is said of
them is said of clocks and intervals whose sums stay below `2^63`. `s_numCreated_` is a plain static
counter in the source; here it counts atomically, so that no two timers share a serial.
-/

namespace ClearMoon.Timer

/-- The argument `interval` of `addTimer` and its product with a million, cut to an integer. -/
structure Interval where
  /-- `interval > 0.0`. -/
  positive : Bool
  /-- `static_cast<int64_t>(interval * 1000000)`. -/
  micros : Int
  micros_nonneg : positive = true → 0 ≤ micros

/-- `interval` as `runAt` and `runAfter` pass it. -/
def Interval.zero : Interval := ⟨false, 0, nofun⟩

/-- `net/Timer.h`. Times are microseconds. -/
structure Timer (κ : Type) where
  callback : κ
  expiration : Int
  interval : Interval
  repeat_ : Bool
  sequence : Nat
  cancelled : Bool := false

variable {κ : Type}

/-- The constructor of `Timer`; `sequence` is `s_numCreated_`. -/
def Timer.create (cb : κ) (when_ : Int) (interval : Interval) (sequence : Nat) : Timer κ where
  callback := cb
  expiration := when_
  interval := interval
  repeat_ := interval.positive
  sequence := sequence

/-- `Timestamp::invalid`. -/
def invalidTime : Int := -1

/-- `Timer::restart`. -/
def Timer.restart (t : Timer κ) (now : Int) : Timer κ :=
  if t.repeat_ then { t with expiration := now + t.interval.micros }
  else { t with expiration := invalidTime }

/-- A restart keeps the number. -/
@[simp] theorem Timer.sequence_restart (t : Timer κ) (now : Int) :
    (t.restart now).sequence = t.sequence := by
  rw [restart]
  split <;> rfl

/-- `net/TimerId.h`. -/
structure TimerId where
  timer : Addr
  sequence : Nat
  deriving DecidableEq, Repr

/-! ## The two sets -/

/-- `TimerQueue::Entry`. -/
structure Entry where
  expiration : Int
  timer : Addr
  deriving DecidableEq, Repr

/-- `TimerQueue::ActiveTimer`. -/
structure ActiveTimer where
  sequence : Nat
  timer : Addr
  deriving DecidableEq, Repr

/-- By expiration, then by address. -/
instance : Ord Entry := ⟨compareLex (compareOn Entry.expiration) (compareOn Entry.timer)⟩

instance : Std.TransOrd Entry :=
  inferInstanceAs (Std.TransCmp (compareLex (compareOn Entry.expiration) (compareOn Entry.timer)))

/-- Entries are ordered by their time, and then by their address. -/
theorem Entry.compare_eq (e f : Entry) :
    compare e f = (compare e.expiration f.expiration).then (compare e.timer f.timer) := rfl

instance : Std.LawfulEqOrd Entry where
  eq_of_compare {e f} h := by
    rw [Entry.compare_eq, Ordering.then_eq_eq] at h
    cases e
    cases f
    simpa using h

/-- The order of `std::pair`. -/
instance : Ord ActiveTimer :=
  ⟨compareLex (compareOn ActiveTimer.sequence) (compareOn ActiveTimer.timer)⟩

instance : Std.TransOrd ActiveTimer :=
  inferInstanceAs
    (Std.TransCmp (compareLex (compareOn ActiveTimer.sequence) (compareOn ActiveTimer.timer)))

/-- Active timers are ordered by their number, and then by their address. -/
theorem ActiveTimer.compare_eq (k l : ActiveTimer) :
    compare k l = (compare k.sequence l.sequence).then (compare k.timer l.timer) := rfl

instance : Std.LawfulEqOrd ActiveTimer where
  eq_of_compare {k l} h := by
    rw [ActiveTimer.compare_eq, Ordering.then_eq_eq] at h
    cases k
    cases l
    simpa using h

/-! ## The timerfd -/

/-- `struct timespec`. -/
structure Timespec where
  sec : Int
  nsec : Int
  deriving DecidableEq, Repr

/-- What `timerfd_settime` accepts. -/
def Timespec.valid (ts : Timespec) : Prop := 0 ≤ ts.sec ∧ 0 ≤ ts.nsec ∧ ts.nsec < 1000000000

instance (ts : Timespec) : Decidable ts.valid := by unfold Timespec.valid; infer_instance

def Timespec.micros (ts : Timespec) : Int := ts.sec * 1000000 + ts.nsec / 1000

/-- A timerfd without interval: the setting and the absolute time it runs until while it is
armed, and whether it has expired since it was set or read. -/
structure TimerFd where
  armed : Option (Timespec × Int) := none
  readable : Bool := false
  deriving DecidableEq

/-- `timerfd_settime` with a relative time: an invalid value changes nothing, a zero disarms. -/
def TimerFd.settime (fd : TimerFd) (value : Timespec) (now : Int) : TimerFd :=
  if ¬value.valid then fd
  else if value = ⟨0, 0⟩ then {}
  else { armed := some (value, now + value.micros) }

/-- `read`: forget the expirations. -/
def TimerFd.read (fd : TimerFd) : TimerFd := { fd with readable := false }

/-- The clock has reached `now`. -/
def TimerFd.elapse (fd : TimerFd) (now : Int) : TimerFd :=
  match fd.armed with
  | some (_, deadline) => if deadline ≤ now then { readable := true } else fd
  | none => fd

/-- `howMuchTimeFromNow`. -/
def howMuchTimeFromNow (when_ now : Int) : Timespec :=
  let micro := when_ - now
  let micro := if micro < 100 then 100 else micro
  ⟨micro / 1000000, (micro % 1000000) * 1000⟩

/-! ## The queue -/

/-- What the queue has done. -/
inductive TimerEvent where
  /-- `addTimer` has made a timer and returned its id. -/
  | created (id : TimerId)
  /-- `addTimerInLoop` has inserted the timer. -/
  | inserted (sequence : Nat)
  /-- `cancelInLoop` has executed. -/
  | cancelled (id : TimerId)
  /-- The callback of the timer is started. -/
  | started (sequence : Nat)
  /-- `resetTimerFd` was called at this time. -/
  | reset (now : Int)
  deriving DecidableEq, Repr

/-- `net/TimerQueue.h`, the `Timer` objects, `Timer::s_numCreated_` and the timerfd. -/
structure TimerQueue (κ : Type) where
  heap : Arena (Timer κ) Timer.sequence := .empty
  timers : Std.ExtTreeSet Entry := ∅
  activeTimers : Std.ExtTreeSet ActiveTimer := ∅
  cancelligTimer : Std.ExtTreeSet ActiveTimer := ∅
  handleTimer : Bool := false
  timerfd : TimerFd := {}
  log : List TimerEvent := []

/-- `UINTPTR_MAX`. -/
def uintptrMax : Nat := 2 ^ 64 - 1

namespace TimerQueue

def note (q : TimerQueue κ) (e : TimerEvent) : TimerQueue κ := { q with log := q.log ++ [e] }

/-- A pointer to a freed timer is followed. -/
def dangling (q : TimerQueue κ) (timer : Addr) : TimerQueue κ :=
  { q with heap := q.heap.fault timer }

/-- `delete timer`. -/
def delete (q : TimerQueue κ) (timer : Addr) : TimerQueue κ := { q with heap := q.heap.free timer }

/-- The first half of `addTimer`: `new Timer` at an address that the allocator picks, and the id.
The other half is to run `addTimerInLoop` in the loop. -/
def addTimer (q : TimerQueue κ) (cb : κ) (when_ : Int) (interval : Interval) (timer : Addr)
    (h : q.heap.get? timer = none) : TimerId × TimerQueue κ :=
  let id := ⟨timer, q.heap.born⟩
  (id, { q with heap := q.heap.alloc timer (.create cb when_ interval q.heap.born) h rfl }.note
    (.created id))

/-- `addTimer` makes the timer in its own cell. -/
theorem get?_addTimer (q : TimerQueue κ) (cb : κ) (when_ : Int) (interval : Interval)
    {timer : Addr} (h : q.heap.get? timer = none) (a : Addr) :
    (q.addTimer cb when_ interval timer h).2.heap.get? a =
      if timer = a then some (.create cb when_ interval q.heap.born) else q.heap.get? a :=
  Arena.get?_alloc h rfl

/-- `TimerQueue::resetTimerFd`. -/
def resetTimerFd (q : TimerQueue κ) (expiration now : Int) : TimerQueue κ :=
  { q with timerfd := q.timerfd.settime (howMuchTimeFromNow expiration now) now }.note (.reset now)

/-- `timers_.begin()`, unless `timers_` is empty. -/
def first? (q : TimerQueue κ) : Option Entry := q.timers.toList.head?

/-- `timers_.empty() || expiration < timers_.begin()->expiration_`. -/
def isEarliest (q : TimerQueue κ) (expiration : Int) : Bool :=
  match q.first? with
  | none => true
  | some first => expiration < first.expiration

/-- The two insertions that put a timer into the queue. -/
def insert (q : TimerQueue κ) (t : Timer κ) (timer : Addr) : TimerQueue κ :=
  { q with
    timers := q.timers.insert ⟨t.expiration, timer⟩
    activeTimers := q.activeTimers.insert ⟨t.sequence, timer⟩ }

/-- `TimerQueue::addTimerInLoop`. -/
def addTimerInLoop (q : TimerQueue κ) (timer : Addr) (now : Int) : TimerQueue κ :=
  match q.heap.get? timer with
  | none => q.dangling timer
  | some t =>
    let earliestChanged := q.isEarliest t.expiration
    let q := (q.insert t timer).note (.inserted t.sequence)
    if earliestChanged then q.resetTimerFd t.expiration now else q

/-- `TimerQueue::cancelInLoop`. -/
def cancelInLoop (q : TimerQueue κ) (id : TimerId) : TimerQueue κ :=
  let q := q.note (.cancelled id)
  let key : ActiveTimer := ⟨id.sequence, id.timer⟩
  if key ∈ q.activeTimers then
    match q.heap.get? id.timer with
    | none => q.dangling id.timer
    | some t =>
      { q with
        timers := q.timers.erase ⟨t.expiration, id.timer⟩
        activeTimers := q.activeTimers.erase ⟨t.sequence, id.timer⟩ }.delete id.timer
  else if q.handleTimer then { q with cancelligTimer := q.cancelligTimer.insert key }
  else q

/-- The entries before `timers_.lower_bound(sentry)`. -/
def expiredEntries (q : TimerQueue κ) (now : Int) : List Entry :=
  q.timers.toList.takeWhile fun e => compare e ⟨now, uintptrMax⟩ = .lt

/-- The loop of `getExpired`: take one entry out of `activeTimers_`. -/
def deactivate (q : TimerQueue κ) (e : Entry) : TimerQueue κ :=
  match q.heap.get? e.timer with
  | none => q.dangling e.timer
  | some t => { q with activeTimers := q.activeTimers.erase ⟨t.sequence, e.timer⟩ }

/-- `TimerQueue::getExpired`. -/
def getExpired (q : TimerQueue κ) (now : Int) : List Entry × TimerQueue κ :=
  let expired := q.expiredEntries now
  let q := expired.foldl deactivate q
  (expired, { q with timers := expired.foldl (fun s e => s.erase e) q.timers })

/-- `handleRead` up to its loop: read the timerfd and take out the expired timers. -/
def beginBatch (q : TimerQueue κ) (now : Int) : List Entry × TimerQueue κ :=
  { q with timerfd := q.timerfd.read, handleTimer := true }.getExpired now

/-- One pass of the loop of `handleRead`, up to the callback: which callback is run, if any. -/
def runEntry (q : TimerQueue κ) (e : Entry) : Option κ × TimerQueue κ :=
  match q.heap.get? e.timer with
  | none => (none, q.dangling e.timer)
  | some t => if t.cancelled then (none, q) else (some t.callback, q.note (.started t.sequence))

/-- Restart a timer and put it into both sets again. -/
def putBack (q : TimerQueue κ) (timer : Addr) (t : Timer κ) (h : q.heap.get? timer = some t)
    (now : Int) : TimerQueue κ :=
  { q with heap := q.heap.set timer t (t.restart now) h (t.sequence_restart now) }.insert
    (t.restart now) timer

/-- The loop of `reset`: one entry of the expired vector. -/
def resetEntry (now : Int) (q : TimerQueue κ) (e : Entry) : TimerQueue κ :=
  match h : q.heap.get? e.timer with
  | none => q.dangling e.timer
  | some t =>
    if ⟨t.sequence, e.timer⟩ ∈ q.cancelligTimer then q.delete e.timer
    else if t.cancelled then q.delete e.timer
    else if t.repeat_ then q.putBack e.timer t h now
    else q.delete e.timer

/-- `TimerQueue::reset`; the timerfd is set by the clock, not by the time of the batch. -/
def reset (q : TimerQueue κ) (expired : List Entry) (now clock : Int) : TimerQueue κ :=
  let q := expired.foldl (resetEntry now) q
  match q.first? with
  | none => q
  | some first => q.resetTimerFd first.expiration clock

/-- `handleRead` behind its loop. -/
def endBatch (q : TimerQueue κ) (expired : List Entry) (now clock : Int) : TimerQueue κ :=
  { { q with handleTimer := false }.reset expired now clock with cancelligTimer := ∅ }

/-! ## What the operations leave alone -/

/-- `getExpired` works on the heap's books and the sets. -/
theorem foldl_deactivate_frame (es : List Entry) (q : TimerQueue κ) :
    ∃ heap activeTimers, es.foldl deactivate q = { q with heap, activeTimers } := by
  induction es generalizing q with
  | nil => exact ⟨_, _, rfl⟩
  | cons e es ih =>
    obtain ⟨heap, activeTimers, he⟩ := ih (q.deactivate e)
    rw [List.foldl_cons, he, deactivate]
    split
    · exact ⟨_, _, rfl⟩
    · exact ⟨_, _, rfl⟩

/-- The loop of `reset` works on the heap and the sets. -/
theorem foldl_resetEntry_frame (es : List Entry) (now : Int) (q : TimerQueue κ) :
    ∃ heap timers activeTimers,
      es.foldl (resetEntry now) q = { q with heap, timers, activeTimers } := by
  induction es generalizing q with
  | nil => exact ⟨_, _, _, rfl⟩
  | cons e es ih =>
    obtain ⟨heap, timers, activeTimers, he⟩ := ih (resetEntry now q e)
    rw [List.foldl_cons, he, resetEntry]
    split
    · exact ⟨_, _, _, rfl⟩
    · split
      · exact ⟨_, _, _, rfl⟩
      · split
        · exact ⟨_, _, _, rfl⟩
        · split <;> exact ⟨_, _, _, rfl⟩

@[simp] theorem handleTimer_addTimer (q : TimerQueue κ) (cb : κ) (when_ : Int)
    (interval : Interval) (timer : Addr) (h : q.heap.get? timer = none) :
    (q.addTimer cb when_ interval timer h).2.handleTimer = q.handleTimer := rfl

@[simp] theorem handleTimer_addTimerInLoop (q : TimerQueue κ) (timer : Addr) (now : Int) :
    (q.addTimerInLoop timer now).handleTimer = q.handleTimer := by
  rw [addTimerInLoop]
  split
  · rfl
  · dsimp only
    split <;> rfl

@[simp] theorem handleTimer_cancelInLoop (q : TimerQueue κ) (id : TimerId) :
    (q.cancelInLoop id).handleTimer = q.handleTimer := by
  rw [cancelInLoop]
  split
  · split <;> rfl
  · split <;> rfl

@[simp] theorem handleTimer_beginBatch (q : TimerQueue κ) (now : Int) :
    (q.beginBatch now).2.handleTimer = true := by
  obtain ⟨heap, activeTimers, he⟩ := foldl_deactivate_frame
    ({ q with timerfd := q.timerfd.read, handleTimer := true }.expiredEntries now)
    { q with timerfd := q.timerfd.read, handleTimer := true }
  rw [beginBatch, getExpired, he]

@[simp] theorem handleTimer_runEntry (q : TimerQueue κ) (e : Entry) :
    (q.runEntry e).2.handleTimer = q.handleTimer := by
  rw [runEntry]
  split
  · rfl
  · split <;> rfl

@[simp] theorem handleTimer_endBatch (q : TimerQueue κ) (expired : List Entry) (now clock : Int) :
    (q.endBatch expired now clock).handleTimer = false := by
  obtain ⟨heap, timers, activeTimers, he⟩ :=
    foldl_resetEntry_frame expired now { q with handleTimer := false }
  rw [endBatch, reset, he]
  split <;> rfl

end TimerQueue

end ClearMoon.Timer

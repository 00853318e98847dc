import ClearMoon.Loop.EventLoop

/-!
# Quitting the loop of a thread

`threadFunc` publishes its loop before it calls `loop`, and `loop` begins by storing false to
`quit_`. The owner waits for the publication only. If its destructor calls `quit` before the loop
thread has got as far as that store, the request is overwritten; otherwise it stays.
-/

namespace ClearMoon.Loop

variable {F P : Type}

/-- Where `threadFunc` is. -/
inductive FuncPc where
  | notStarted
  /-- The loop is constructed. -/
  | constructed
  /-- Behind the store to `loop_`: in `loop`, or about to call it. -/
  | published
  /-- Behind the reset of `loop_`. -/
  | ended
  deriving DecidableEq

/-- Where the owner is, in `start` or in the destructor. -/
inductive OwnerPc where
  | outside
  /-- In `start`, waiting for `loop_`. -/
  | waiting
  /-- Behind `start`. -/
  | running
  /-- In the destructor, behind `exiting_ = true`. -/
  | exiting
  /-- In the destructor, holding `mutex_`, with a loop to quit. -/
  | locked
  /-- In the call of `quit`, or behind it, still holding `mutex_`. -/
  | quitting
  /-- In the destructor, behind the release of `mutex_`. -/
  | unlocked
  | joined
  deriving DecidableEq

/-- `net/EventLoopThread.h`. Among the threads that the loop knows, `none` is the owner. -/
structure EventLoopThread (F P : Type) where
  /-- The local of `threadFunc`. -/
  loop : EventLoop F (Option P) := {}
  /-- `loop_` is not null. -/
  published : Bool := false
  started : Bool := false
  exiting : Bool := false
  thread : FuncPc := .notStarted
  owner : OwnerPc := .outside

inductive ThreadAction (F P : Type) where
  /-- `start`, up to the wait. -/
  | start
  /-- `threadFunc` stores the pointer and notifies. -/
  | publish
  /-- The wait of `start` is over. -/
  | startReturns
  /-- The destructor begins. -/
  | exit
  /-- The destructor takes `mutex_` and tests `loop_`. -/
  | lock
  /-- The owner's `quit`: its test, its store, its write. -/
  | quitTest
  | quitStore
  | weakup
  /-- `quit` has returned, and the destructor releases `mutex_`. -/
  | unlock
  /-- `loop` has returned, and `threadFunc` resets `loop_`. -/
  | finish
  | join
  /-- A step of the loop thread in `loop`, or of a thread other than the owner. -/
  | loop (a : Action F (Option P))

namespace EventLoopThread

/-- The owner holds `mutex_`. -/
def ownerLocks (w : EventLoopThread F P) : Bool := w.owner = .locked ∨ w.owner = .quitting

variable [DecidableEq P]

def step (w : EventLoopThread F P) : ThreadAction F P → Option (EventLoopThread F P)
  | .start =>
    if w.owner = .outside ∧ w.thread = .notStarted then
      some { w with thread := .constructed, started := true, owner := .waiting }
    else none
  | .publish =>
    if w.thread = .constructed ∧ !w.ownerLocks then
      some { w with thread := .published, published := true }
    else none
  | .startReturns =>
    if w.owner = .waiting ∧ w.published then some { w with owner := .running } else none
  | .exit =>
    if w.owner = .running then some { w with exiting := true, owner := .exiting } else none
  | .lock =>
    if w.owner = .exiting then
      some { w with owner := if w.started && w.published then .locked else .unlocked }
    else none
  | .quitTest =>
    if w.owner = .locked then
      (w.loop.step (.quitTest none)).map fun loop => { w with loop, owner := .quitting }
    else none
  | .quitStore =>
    if w.owner = .quitting then
      (w.loop.step (.quitStore none)).map fun loop => { w with loop }
    else none
  | .weakup =>
    if w.owner = .quitting then
      (w.loop.step (.weakup none)).map fun loop => { w with loop }
    else none
  | .unlock =>
    if w.owner = .quitting ∧ w.loop.threads none = .outside then
      some { w with owner := .unlocked }
    else none
  | .finish =>
    match w.thread, w.loop.pc with
    | .published, .returned =>
      if !w.ownerLocks then some { w with thread := .ended, published := false } else none
    | _, _ => none
  | .join =>
    if w.owner = .unlocked ∧ w.thread = .ended then some { w with owner := .joined } else none
  | .loop a =>
    if w.thread = .published ∧ a.thread? ≠ some none then
      (w.loop.step a).map fun loop => { w with loop }
    else none

/-! ## Requests to quit -/

/-- The destructor is behind its call of `quit`. -/
def quitCompleted (w : EventLoopThread F P) : Prop :=
  (w.owner = .quitting ∧ w.loop.threads none = .outside) ∨ w.owner = .unlocked ∨ w.owner = .joined

/-- The loop thread is inside `loop`. -/
def insideLoop (w : EventLoopThread F P) : Prop :=
  match w.loop.pc with
  | .before | .returned => False
  | _ => True

/-- `quit` has completed, and the loop goes on as if it had not been called. -/
def LostQuit (w : EventLoopThread F P) : Prop :=
  w.quitCompleted ∧ w.insideLoop ∧ w.loop.quit = false

/-- The condition for a request to quit to arrive: `loop` has initialised `quit_` when the owner's
`quit` finds the flag set, and when it sets it. -/
def quitsBegunLoop (w : EventLoopThread F P) : ThreadAction F P → Bool
  | .quitTest => !w.loop.quit || w.loop.pc.begun
  | .quitStore => w.loop.pc.begun
  | _ => true

def QuitsBegunLoop (w : EventLoopThread F P) (a : ThreadAction F P) : Prop :=
  w.quitsBegunLoop a = true

instance (w : EventLoopThread F P) (a : ThreadAction F P) : Decidable (w.QuitsBegunLoop a) :=
  inferInstanceAs (Decidable (_ = true))

/-- The request to quit has been stored for good. -/
def requested (w : EventLoopThread F P) : Prop :=
  w.loop.quit = true ∧ w.loop.pc.begun = true

/-- Where the pointer `loop_` stands. -/
structure PointerInv (w : EventLoopThread F P) : Prop where
  published : w.published = true ↔ w.thread = .published
  ended : w.thread = .ended → w.loop.pc = .returned
  started : w.owner ≠ .outside → w.started = true
  waited : w.owner ≠ .outside → w.owner ≠ .waiting → w.thread = .published ∨ w.thread = .ended

/-- How far the owner's request has come. -/
structure QuitInv (w : EventLoopThread F P) : Prop where
  pointer : w.PointerInv
  outside : w.owner ≠ .quitting → w.loop.threads none = .outside
  quitting : w.owner = .quitting → w.loop.threads none = .quitting ∨ w.requested
  unlocked : w.owner = .unlocked ∨ w.owner = .joined → w.requested ∨ w.loop.pc = .returned

variable {w w' : EventLoopThread F P}

/-- What the loop does keeps the pointer. -/
theorem PointerInv.loop (h : w.PointerInv) {a : Action F (Option P)} {loop : EventLoop F (Option P)}
    (hm : w.loop.Moves a loop) : { w with loop }.PointerInv :=
  ⟨h.published, fun he => hm.returned_stays (h.ended he), h.started, h.waited⟩

/-- What the loop and the other threads do leaves the owner's request where it is. -/
theorem QuitInv.loop (h : w.QuitInv) {a : Action F (Option P)} {loop : EventLoop F (Option P)}
    (ha : a.thread? ≠ some none) (hm : w.loop.Moves a loop) : { w with loop }.QuitInv := by
  refine ⟨h.pointer.loop hm, fun ho => ?_, fun ho => ?_, fun ho => ?_⟩
  · exact (hm.threads_eq ha).trans (h.outside ho)
  · rcases h.quitting ho with hq | hq
    · exact .inl ((hm.threads_eq ha).trans hq)
    · exact .inr (hm.quit_stays hq)
  · exact (h.unlocked ho).imp hm.quit_stays hm.returned_stays

/-- The owner's `quit`: its test, its store and its write. -/
theorem QuitInv.quit (h : w.QuitInv) {a : Action F (Option P)} {loop : EventLoop F (Option P)}
    (howner : w.owner = .locked ∨ w.owner = .quitting) (hm : w.loop.Moves a loop)
    (hquit : loop.threads none = .quitting ∨ (loop.quit = true ∧ loop.pc.begun = true)) :
    { w with loop, owner := .quitting }.QuitInv := by
  have hpointer := h.pointer.loop hm
  have hne : w.owner ≠ .outside ∧ w.owner ≠ .waiting := by
    rcases howner with ho | ho <;> simp [ho]
  exact ⟨⟨hpointer.published, hpointer.ended, fun _ => hpointer.started hne.1,
    fun _ _ => hpointer.waited hne.1 hne.2⟩, fun ho => absurd rfl ho, fun _ => hquit, by simp⟩

/-- A step of either thread keeps the account of `quit_`. -/
theorem QuitInv.step {a : ThreadAction F P} (h : w.QuitInv) (hg : w.QuitsBegunLoop a)
    (hstep : w.step a = some w') : w'.QuitInv := by
  obtain ⟨⟨hpublished, hended, hstarted, hwaited⟩, houtside, hquitting, hunlocked⟩ := id h
  cases a with
  | start =>
    simp only [EventLoopThread.step] at hstep
    split at hstep
    · rename_i hs
      obtain rfl := Option.some.inj hstep
      refine ⟨⟨?_, by simp, fun _ => rfl, by simp⟩, fun _ => houtside (by simp [hs.1]), by simp,
        by simp⟩
      simpa [hs.2] using hpublished
    · contradiction
  | publish =>
    simp only [EventLoopThread.step] at hstep
    split at hstep
    · obtain rfl := Option.some.inj hstep
      exact ⟨⟨by simp, by simp, hstarted, fun _ _ => .inl rfl⟩, houtside, hquitting, hunlocked⟩
    · contradiction
  | startReturns =>
    simp only [EventLoopThread.step] at hstep
    split at hstep
    · rename_i hs
      obtain rfl := Option.some.inj hstep
      exact ⟨⟨hpublished, hended, fun _ => hstarted (by simp [hs.1]),
        fun _ _ => .inl (hpublished.mp hs.2)⟩, fun _ => houtside (by simp [hs.1]), by simp,
        by simp⟩
    · contradiction
  | exit =>
    simp only [EventLoopThread.step] at hstep
    split at hstep
    · rename_i hs
      obtain rfl := Option.some.inj hstep
      exact ⟨⟨hpublished, hended, fun _ => hstarted (by simp [hs]),
        fun _ _ => hwaited (by simp [hs]) (by simp [hs])⟩, fun _ => houtside (by simp [hs]),
        by simp, by simp⟩
    · contradiction
  | lock =>
    simp only [EventLoopThread.step] at hstep
    split at hstep
    · rename_i hs
      obtain rfl := Option.some.inj hstep
      have hbegan := hstarted (by simp [hs])
      have hthread := hwaited (by simp [hs]) (by simp [hs])
      refine ⟨⟨hpublished, hended, fun _ => hbegan, fun _ _ => hthread⟩,
        fun _ => houtside (by simp [hs]), fun ho => ?_, fun ho => ?_⟩
      · dsimp only at ho
        split at ho <;> contradiction
      · -- no loop to quit: the thread has ended
        refine .inr (hended (hthread.resolve_left fun hp => ?_))
        simp [hbegan, hpublished.mpr hp] at ho
    · contradiction
  | quitTest =>
    simp only [EventLoopThread.step] at hstep
    split at hstep
    · rename_i hs
      obtain ⟨loop, hloop, rfl⟩ := Option.map_eq_some_iff.mp hstep
      refine h.quit (.inl hs) (EventLoop.moves_of_step hloop) ?_
      simp only [EventLoop.step] at hloop
      split at hloop
      · obtain rfl := Option.some.inj hloop
        cases hquit : w.loop.quit with
        | false =>
          exact .inl (by simp [EventLoop.setThread])
        | true =>
          have hbegun : w.loop.pc.begun = true := by
            simpa [QuitsBegunLoop, quitsBegunLoop, hquit] using hg
          exact .inr ⟨hquit, hbegun⟩
      · contradiction
    · contradiction
  | quitStore =>
    simp only [EventLoopThread.step] at hstep
    split at hstep
    · rename_i hs
      obtain ⟨loop, hloop, rfl⟩ := Option.map_eq_some_iff.mp hstep
      refine hs ▸ h.quit (.inr hs) (EventLoop.moves_of_step hloop) ?_
      simp only [EventLoop.step] at hloop
      split at hloop
      · obtain rfl := Option.some.inj hloop
        exact .inr ⟨rfl, hg⟩
      · contradiction
    · contradiction
  | weakup =>
    simp only [EventLoopThread.step] at hstep
    split at hstep
    · rename_i hs
      obtain ⟨loop, hloop, rfl⟩ := Option.map_eq_some_iff.mp hstep
      have hm := EventLoop.moves_of_step hloop
      refine hs ▸ h.quit (.inr hs) hm ?_
      -- there is something to write for only behind the store
      refine .inr (hm.quit_stays ((hquitting hs).resolve_left fun hq => ?_))
      simp [EventLoop.step, hq] at hloop
    · contradiction
  | unlock =>
    simp only [EventLoopThread.step] at hstep
    split at hstep
    · rename_i hs
      obtain rfl := Option.some.inj hstep
      refine ⟨⟨hpublished, hended, fun _ => hstarted (by simp [hs.1]),
        fun _ _ => hwaited (by simp [hs.1]) (by simp [hs.1])⟩, fun _ => hs.2, by simp,
        fun _ => .inl ((hquitting hs.1).resolve_left ?_)⟩
      simp [hs.2]
    · contradiction
  | finish =>
    simp only [EventLoopThread.step] at hstep
    split at hstep
    · rename_i hpc
      split at hstep
      · obtain rfl := Option.some.inj hstep
        exact ⟨⟨by simp, fun _ => hpc, hstarted, fun _ _ => .inr rfl⟩, houtside, hquitting,
          hunlocked⟩
      · contradiction
    · contradiction
  | join =>
    simp only [EventLoopThread.step] at hstep
    split at hstep
    · rename_i hs
      obtain rfl := Option.some.inj hstep
      exact ⟨⟨hpublished, hended, fun _ => hstarted (by simp [hs.1]), fun _ _ => .inr hs.2⟩,
        fun _ => houtside (by simp [hs.1]), by simp, fun _ => hunlocked (.inl hs.1)⟩
    · contradiction
  | loop a =>
    simp only [EventLoopThread.step] at hstep
    split at hstep
    · rename_i ha
      obtain ⟨loop, hloop, rfl⟩ := Option.map_eq_some_iff.mp hstep
      exact h.loop ha.2 (EventLoop.moves_of_step hloop)
    · contradiction

/-- In every run in which the owner's request comes after `loop` has initialised `quit_`, the
request is not lost. -/
theorem quit_of_run {as : List (ThreadAction F P)} (h : Run step QuitsBegunLoop {} as w) :
    ¬w.LostQuit := by
  have hinv : w.QuitInv := h.invariant (I := QuitInv)
    ⟨⟨by simp, by simp, by simp, by simp⟩, fun _ => rfl, by simp, by simp⟩
    fun t a u ht hg hstep => ht.step hg hstep
  rintro ⟨hcompleted, hinside, hquit⟩
  have hrequested : w.requested ∨ w.loop.pc = .returned := by
    rcases hcompleted with ⟨ho, houtside⟩ | ho
    · refine .inl ((hinv.quitting ho).resolve_left ?_)
      simp [houtside]
    · exact hinv.unlocked ho
  rcases hrequested with hrequested | hpc
  · simp [hrequested.1] at hquit
  · simp [insideLoop, hpc] at hinside

/-- The owner quits while the loop thread is in `poll`, and joins it. -/
def quitInPoll : List (ThreadAction Unit Unit) :=
  [.start, .publish, .startReturns, .loop .enter, .loop .clearQuit, .loop .test, .exit, .lock,
    .quitTest, .quitStore, .weakup, .unlock, .loop (.poll [.weak]), .loop .handleEvent,
    .loop .handleEvent, .loop .swap, .loop .runFunc, .loop .test, .loop .swap, .loop .runFunc,
    .finish, .join]

/-- A `quit()` that finds the loop in its poll ends it. -/
theorem quit_of_run_quitInPoll :
    ∃ w : EventLoopThread Unit Unit, Run step QuitsBegunLoop {} quitInPoll w ∧
      w.owner = .joined ∧ ¬w.LostQuit := by
  have howner : (replay step QuitsBegunLoop ({} : EventLoopThread Unit Unit) quitInPoll).map
      (·.owner) = some .joined := by
    decide +kernel
  obtain ⟨w, hw, howner⟩ := Option.map_eq_some_iff.mp howner
  exact ⟨w, .of_replay hw, howner, quit_of_run (.of_replay hw)⟩

/-- The owner quits between the publication of the loop and the call of `loop`. -/
def quitBeforeLoop : List (ThreadAction Unit Unit) :=
  [.start, .publish, .startReturns, .exit, .lock, .quitTest, .quitStore, .weakup, .unlock,
    .loop .enter, .loop .clearQuit, .loop .test, .loop (.poll [.weak]), .loop .handleEvent,
    .loop .handleEvent, .loop .swap, .loop .runFunc, .loop .test]

/-- The loop thread is back in `poll`, with nothing left to wake it. -/
theorem quit_overwritten :
    ∃ w : EventLoopThread Unit Unit, Run step anyStep {} quitBeforeLoop w ∧ w.LostQuit ∧
      w.loop.blocked := by
  have hw : (replay step anyStep ({} : EventLoopThread Unit Unit) quitBeforeLoop).map
      (fun w => (w.owner, w.loop.quit, decide w.loop.blocked)) = some (.unlocked, false, true) := by
    decide +kernel
  obtain ⟨w, hw, he⟩ := Option.map_eq_some_iff.mp hw
  obtain ⟨howner, he⟩ := Prod.mk.inj he
  obtain ⟨hquit, hblocked⟩ := Prod.mk.inj he
  have hblocked : w.loop.blocked := of_decide_eq_true hblocked
  refine ⟨w, .of_replay hw, ⟨.inr (.inl howner), ?_, hquit⟩, hblocked⟩
  unfold EventLoop.blocked at hblocked
  unfold insideLoop
  split at hblocked
  · rename_i hpc
    simp [hpc]
  · contradiction

end EventLoopThread

end ClearMoon.Loop

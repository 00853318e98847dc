import ClearMoon.Core.Machine

/-!
# The event loop and its task queue

`EventLoop::loop` at the grain of its accesses to what other threads see: the flag `quit_`, the
counter behind `weakFd_`, and `pendingFunc_`. Other threads push functors under the mutex and then
write to the eventfd; the loop thread polls, reads the eventfd, swaps the functors out under the
mutex and runs them. No functor is lost, none runs twice or out of order, and the loop never sleeps
on a functor whose push is complete.
-/

namespace ClearMoon.Loop

/-- An entry of `activeChannels_`: `weakChannel_`, or a channel with callbacks of its own. -/
inductive Active where
  | weak
  | other
  deriving DecidableEq

/-- Where the loop thread is in `EventLoop::loop`. -/
inductive Pc (F : Type) where
  /-- `loop` has not been called. -/
  | before
  /-- Behind `looping_ = true`. -/
  | entered
  /-- At the test of `while`. -/
  | test
  | poll
  /-- In the loop over `activeChannels_`, with those it has not come to. -/
  | handleEvents (activeChannels : List Active)
  /-- Before the swap of `doPendingFuncs`; the last call of it stands behind the loop. -/
  | doPendingFuncs (last : Bool)
  /-- Behind the swap, with the functors that have not run. -/
  | running (func : List F) (last : Bool)
  | returned

/-- Where another thread is in `queueInLoop` or in `quit`. -/
inductive ThreadPc where
  | outside
  /-- In `queueInLoop`, behind the critical section. -/
  | pushed
  /-- In `quit`, behind the test of `quit_`. -/
  | quitting
  /-- In `quit`, behind the store to `quit_`. -/
  | quitStored
  deriving DecidableEq

/-- What happens to functors. -/
inductive Event (F : Type) where
  | pushed (f : F)
  | executed (f : F)
  deriving DecidableEq

/-- `net/EventLoop.h`, with the loop thread and the other threads, which `P` names. -/
structure EventLoop (F P : Type) where
  looping : Bool := false
  quit : Bool := false
  eventHanding : Bool := false
  callingPendingFunc : Bool := false
  /-- The counter behind `weakFd_`. -/
  weakCount : Nat := 0
  pendingFunc : List F := []
  pc : Pc F := .before
  threads : P → ThreadPc := fun _ => .outside
  trace : List (Event F) := []

inductive Action (F P : Type) where
  /-- `looping_ = true`. -/
  | enter
  /-- `quit_ = false`. -/
  | clearQuit
  | test
  /-- `poll` returns. -/
  | poll (ready : List Active)
  /-- The next active channel is handled, or there is none left. -/
  | handleEvent
  | swap
  /-- The next functor is run, or there is none left. -/
  | runFunc
  /-- A callback or a functor calls `quit` in the loop thread. -/
  | quitHere
  /-- The critical section of `queueInLoop`. -/
  | push (p : P) (f : F)
  /-- The test of `quit`. -/
  | quitTest (p : P)
  /-- The store of `quit`. -/
  | quitStore (p : P)
  /-- `weakup`, behind a push or a store. -/
  | weakup (p : P)

/-- The largest value an eventfd counts to. -/
def eventfdMax : Nat := 2 ^ 64 - 2

variable {F P : Type}

namespace EventLoop

/-- `EventLoop::weakup`: a write that would exceed the maximum is refused. -/
def weakup (w : EventLoop F P) : EventLoop F P :=
  if w.weakCount + 1 ≤ eventfdMax then { w with weakCount := w.weakCount + 1 } else w

/-- `EventLoop::handleWeakup`. -/
def handleWeakup (w : EventLoop F P) : EventLoop F P := { w with weakCount := 0 }

variable [DecidableEq P]

/-- A thread goes on to another place. -/
def setThread (w : EventLoop F P) (p : P) (t : ThreadPc) : EventLoop F P :=
  { w with threads := Function.update w.threads p t }

def step (w : EventLoop F P) : Action F P → Option (EventLoop F P)
  | .enter =>
    match w.pc with
    | .before => some { w with looping := true, pc := .entered }
    | _ => none
  | .clearQuit =>
    match w.pc with
    | .entered => some { w with quit := false, pc := .test }
    | _ => none
  | .test =>
    match w.pc with
    | .test => some { w with pc := if w.quit then .doPendingFuncs true else .poll }
    | _ => none
  | .poll ready =>
    match w.pc with
    | .poll =>
      -- level-triggered: the eventfd is readable while its counter is not zero
      if Active.weak ∈ ready → 0 < w.weakCount then
        some { w with eventHanding := true, pc := .handleEvents ready }
      else none
    | _ => none
  | .handleEvent =>
    match w.pc with
    | .handleEvents [] =>
      some { w with eventHanding := false, pc := .doPendingFuncs false }
    | .handleEvents (.weak :: rest) => some { w.handleWeakup with pc := .handleEvents rest }
    | .handleEvents (.other :: rest) => some { w with pc := .handleEvents rest }
    | _ => none
  | .swap =>
    match w.pc with
    | .doPendingFuncs last =>
      some { w with
        callingPendingFunc := true
        pc := .running w.pendingFunc last
        pendingFunc := [] }
    | _ => none
  | .runFunc =>
    match w.pc with
    | .running (f :: func) last =>
      some { w with pc := .running func last, trace := w.trace ++ [.executed f] }
    | .running [] false => some { w with callingPendingFunc := false, pc := .test }
    | .running [] true =>
      some { w with callingPendingFunc := false, looping := false, pc := .returned }
    | _ => none
  | .quitHere =>
    match w.pc with
    | .handleEvents _ | .running _ _ => some { w with quit := true }
    | _ => none
  | .push p f =>
    match w.threads p with
    | .outside =>
      some { w with
        pendingFunc := w.pendingFunc ++ [f]
        threads := Function.update w.threads p .pushed
        trace := w.trace ++ [.pushed f] }
    | _ => none
  | .quitTest p =>
    match w.threads p with
    | .outside => some (if w.quit then w else w.setThread p .quitting)
    | _ => none
  | .quitStore p =>
    match w.threads p with
    | .quitting => some { w.setThread p .quitStored with quit := true }
    | _ => none
  | .weakup p =>
    match w.threads p with
    | .pushed | .quitStored => some (w.weakup.setThread p .outside)
    | _ => none

end EventLoop

/-! ## The steps -/

/-- The functors that the loop thread has swapped out and not run. -/
def Pc.batch : Pc F → List F
  | .running func _ => func
  | _ => []

/-- The loop thread is on its way from `poll` to the next swap. -/
def Pc.willSwap : Pc F → Bool
  | .handleEvents _ | .doPendingFuncs _ => true
  | _ => false

/-- The loop has initialised `quit_`. -/
def Pc.begun : Pc F → Bool
  | .before | .entered => false
  | _ => true

/-- The thread that takes the step, unless it is the loop thread. -/
def Action.thread? : Action F P → Option P
  | .push p _ | .quitTest p | .quitStore p | .weakup p => some p
  | _ => none

namespace EventLoop

variable [DecidableEq P]

/-- What a step does to the functors, the counter, the flag and the threads. The loop thread comes
to `poll` and to a swap without touching the functors, and nothing but the eventfd's own channel
resets the counter. -/
inductive Moves (w : EventLoop F P) (a : Action F P) : EventLoop F P → Prop
  /-- The functors and the counter stay. A request to quit stays once the loop has begun. -/
  | quiet {looping quit eventHanding callingPendingFunc pc threads}
      (hbatch : pc.batch = w.pc.batch) (hswap : w.pc.willSwap = true → pc.willSwap = true)
      (hbegun : w.pc.begun = true → pc.begun = true ∧ (w.quit = true → quit = true))
      (hreturned : w.pc = .returned → pc = .returned)
      (hthreads : ∀ p, threads p = w.threads p ∨ (a.thread? = some p ∧ w.threads p ≠ .pushed)) :
      Moves w a { w with looping, quit, eventHanding, callingPendingFunc, pc, threads }
  | handleWeakup {rest} (hpc : w.pc = .handleEvents (.weak :: rest)) :
      Moves w a { w with weakCount := 0, pc := .handleEvents rest }
  | swap {last} (hpc : w.pc = .doPendingFuncs last) :
      Moves w a { w with
        callingPendingFunc := true
        pc := .running w.pendingFunc last
        pendingFunc := [] }
  | execute {f func last} (hpc : w.pc = .running (f :: func) last) :
      Moves w a { w with pc := .running func last, trace := w.trace ++ [.executed f] }
  | push {p f} (ha : a = .push p f) (hp : w.threads p = .outside) :
      Moves w a { w with
        pendingFunc := w.pendingFunc ++ [f]
        threads := Function.update w.threads p .pushed
        trace := w.trace ++ [.pushed f] }
  | weakup {p n} (ha : a = .weakup p) (hn : 0 < n) :
      Moves w a { w with weakCount := n, threads := Function.update w.threads p .outside }

variable {w w' : EventLoop F P} {a : Action F P}

/-- A thread that goes on inside `quit` leaves the others where they are. -/
theorem update_threads {p : P} {t : ThreadPc} (ha : a.thread? = some p)
    (hp : w.threads p ≠ .pushed) (q : P) :
    Function.update w.threads p t q = w.threads q ∨
      (a.thread? = some q ∧ w.threads q ≠ .pushed) := by
  by_cases hq : q = p
  · subst hq
    exact .inr ⟨ha, hp⟩
  · exact .inl (Function.update_of_ne hq ..)

/-- A step is one of the moves, with all that it asks of the state before it. -/
theorem moves_of_step (h : w.step a = some w') : w.Moves a w' := by
  have hstay : ∀ p, w.threads p = w.threads p ∨ (a.thread? = some p ∧ w.threads p ≠ .pushed) :=
    fun _ => .inl rfl
  cases a with
  | enter =>
    simp only [step] at h
    split at h
    · rename_i hpc
      obtain rfl := Option.some.inj h
      exact .quiet (by rw [hpc]; rfl) (by simp [hpc, Pc.willSwap]) (by simp [hpc, Pc.begun])
        (by simp [hpc]) hstay
    · contradiction
  | clearQuit =>
    simp only [step] at h
    split at h
    · rename_i hpc
      obtain rfl := Option.some.inj h
      exact .quiet (by rw [hpc]; rfl) (by simp [hpc, Pc.willSwap]) (by simp [hpc, Pc.begun])
        (by simp [hpc]) hstay
    · contradiction
  | test =>
    simp only [step] at h
    split at h
    · rename_i hpc
      obtain rfl := Option.some.inj h
      refine .quiet ?_ (by simp [hpc, Pc.willSwap]) ?_ (by simp [hpc]) hstay
      · rw [hpc]
        split <;> rfl
      · intro _
        split <;> exact ⟨rfl, id⟩
    · contradiction
  | poll ready =>
    simp only [step] at h
    split at h
    · rename_i hpc
      split at h
      · obtain rfl := Option.some.inj h
        exact .quiet (by rw [hpc]; rfl) (by simp [hpc, Pc.willSwap]) (fun _ => ⟨rfl, id⟩)
          (by simp [hpc]) hstay
      · contradiction
    · contradiction
  | handleEvent =>
    simp only [step] at h
    split at h
    · rename_i hpc
      obtain rfl := Option.some.inj h
      exact .quiet (by rw [hpc]; rfl) (fun _ => rfl) (fun _ => ⟨rfl, id⟩) (by simp [hpc]) hstay
    · rename_i rest hpc
      obtain rfl := Option.some.inj h
      exact .handleWeakup hpc
    · rename_i rest hpc
      obtain rfl := Option.some.inj h
      exact .quiet (by rw [hpc]; rfl) (fun _ => rfl) (fun _ => ⟨rfl, id⟩) (by simp [hpc]) hstay
    · contradiction
  | swap =>
    simp only [step] at h
    split at h
    · rename_i last hpc
      obtain rfl := Option.some.inj h
      exact .swap hpc
    · contradiction
  | runFunc =>
    simp only [step] at h
    split at h
    · rename_i f func last hpc
      obtain rfl := Option.some.inj h
      exact .execute hpc
    · rename_i hpc
      obtain rfl := Option.some.inj h
      exact .quiet (by rw [hpc]; rfl) (by simp [hpc, Pc.willSwap]) (fun _ => ⟨rfl, id⟩)
        (by simp [hpc]) hstay
    · rename_i hpc
      obtain rfl := Option.some.inj h
      exact .quiet (by rw [hpc]; rfl) (by simp [hpc, Pc.willSwap]) (fun _ => ⟨rfl, id⟩)
        (fun _ => rfl) hstay
    · contradiction
  | quitHere =>
    simp only [step] at h
    split at h
    · obtain rfl := Option.some.inj h
      exact .quiet rfl id (fun hb => ⟨hb, fun _ => rfl⟩) id hstay
    · obtain rfl := Option.some.inj h
      exact .quiet rfl id (fun hb => ⟨hb, fun _ => rfl⟩) id hstay
    · contradiction
  | push p f =>
    simp only [step] at h
    split at h
    · rename_i hp
      obtain rfl := Option.some.inj h
      exact .push rfl hp
    · contradiction
  | quitTest p =>
    simp only [step] at h
    split at h
    · rename_i hp
      obtain rfl := Option.some.inj h
      split
      · exact .quiet rfl id (fun hb => ⟨hb, id⟩) id hstay
      · exact .quiet rfl id (fun hb => ⟨hb, id⟩) id (update_threads rfl (by simp [hp]))
    · contradiction
  | quitStore p =>
    simp only [step] at h
    split at h
    · rename_i hp
      obtain rfl := Option.some.inj h
      exact .quiet rfl id (fun hb => ⟨hb, fun _ => rfl⟩) id (update_threads rfl (by simp [hp]))
    · contradiction
  | weakup p =>
    have hmoves : w.Moves (.weakup p) (w.weakup.setThread p .outside) := by
      by_cases hmax : w.weakCount + 1 ≤ eventfdMax
      · rw [EventLoop.weakup, if_pos hmax]
        exact .weakup rfl (Nat.succ_pos _)
      · -- a refused write finds the counter at its maximum
        have hpos : 0 < w.weakCount := by
          rw [eventfdMax] at hmax
          omega
        rw [EventLoop.weakup, if_neg hmax]
        exact .weakup (n := w.weakCount) rfl hpos
    simp only [step] at h
    split at h
    · obtain rfl := Option.some.inj h
      exact hmoves
    · obtain rfl := Option.some.inj h
      exact hmoves
    · contradiction

/-- Once the loop has begun, a request to quit stays. -/
theorem Moves.quit_stays (hm : w.Moves a w') (h : w.quit = true ∧ w.pc.begun = true) :
    w'.quit = true ∧ w'.pc.begun = true := by
  cases hm with
  | quiet hbatch hswap hbegun => exact ⟨(hbegun h.2).2 h.1, (hbegun h.2).1⟩
  | push ha hp => exact h
  | weakup ha hn => exact h
  | _ => exact ⟨h.1, rfl⟩

/-- A loop that has returned is over. -/
theorem Moves.returned_stays (hm : w.Moves a w') (h : w.pc = .returned) : w'.pc = .returned := by
  cases hm with
  | quiet hbatch hswap hbegun hreturned => exact hreturned h
  | push ha hp => exact h
  | weakup ha hn => exact h
  | handleWeakup hpc => simp [hpc] at h
  | swap hpc => simp [hpc] at h
  | execute hpc => simp [hpc] at h

/-- A step of one thread leaves every other thread where it is. -/
theorem Moves.threads_eq (hm : w.Moves a w') {p : P} (hp : a.thread? ≠ some p) :
    w'.threads p = w.threads p := by
  cases hm with
  | quiet hbatch hswap hbegun hreturned hthreads =>
    exact (hthreads p).resolve_right fun h => hp h.1
  | push ha hq =>
    refine Function.update_of_ne ?_ ..
    rintro rfl
    exact hp (by rw [ha]; rfl)
  | weakup ha hn =>
    refine Function.update_of_ne ?_ ..
    rintro rfl
    exact hp (by rw [ha]; rfl)
  | _ => rfl

end EventLoop

/-! ## No task is lost -/

def Event.pushed? : Event F → Option F
  | .pushed f => some f
  | .executed _ => none

def Event.executed? : Event F → Option F
  | .pushed _ => none
  | .executed f => some f

/-- The functors that were pushed, in push order. -/
def pushed (trace : List (Event F)) : List F := trace.filterMap Event.pushed?

/-- The functors that were run, in the order in which they were. -/
def executed (trace : List (Event F)) : List F := trace.filterMap Event.executed?

namespace EventLoop

/-- The loop thread sleeps in `poll`, and the eventfd does not wake it. -/
def blocked (w : EventLoop F P) : Prop :=
  match w.pc with
  | .poll => w.weakCount = 0
  | _ => False

instance (w : EventLoop F P) : Decidable w.blocked := by
  unfold blocked
  split <;> infer_instance

/-- What holds of the task queue in every state. -/
structure TasksInv (w : EventLoop F P) : Prop where
  order : executed w.trace ++ (w.pc.batch ++ w.pendingFunc) = pushed w.trace
  /-- A functor that waits has a wake-up behind it or the swap ahead of it. -/
  wake : w.pendingFunc ≠ [] →
    0 < w.weakCount ∨ (∃ p, w.threads p = .pushed) ∨ w.pc.willSwap = true

variable [DecidableEq P]

/-- Every move keeps the account of the tasks. -/
theorem TasksInv.moves {w w' : EventLoop F P} {a : Action F P} (h : w.TasksInv)
    (hm : w.Moves a w') : w'.TasksInv := by
  cases hm with
  | quiet hbatch hswap hbegun hreturned hthreads =>
    refine ⟨?_, fun hne => ?_⟩
    · rw [hbatch]
      exact h.order
    · rcases h.wake hne with hpos | ⟨p, hp⟩ | hw
      · exact .inl hpos
      · exact .inr (.inl ⟨p, ((hthreads p).resolve_right fun h => h.2 hp).trans hp⟩)
      · exact .inr (.inr (hswap hw))
  | handleWeakup hpc =>
    refine ⟨?_, fun _ => .inr (.inr rfl)⟩
    have horder := h.order
    rw [hpc] at horder
    exact horder
  | swap hpc =>
    refine ⟨?_, fun hne => absurd rfl hne⟩
    have horder := h.order
    rw [hpc] at horder
    simpa [Pc.batch] using horder
  | execute hpc =>
    have horder := h.order
    rw [hpc] at horder
    refine ⟨?_, fun hne => ?_⟩
    · simpa [executed, pushed, List.filterMap_cons, Event.executed?, Event.pushed?, Pc.batch] using
        horder
    · rcases h.wake hne with hpos | hp | hw
      · exact .inl hpos
      · exact .inr (.inl hp)
      · simp [hpc, Pc.willSwap] at hw
  | @push p f ha hp =>
    refine ⟨?_, fun _ => .inr (.inl ⟨p, Function.update_self ..⟩)⟩
    have horder := h.order
    simp only [executed, pushed, List.filterMap_append, List.filterMap_cons, List.filterMap_nil,
      Event.executed?, Event.pushed?, List.append_nil] at horder ⊢
    rw [← horder]
    simp only [List.append_assoc]
  | weakup ha hn => exact ⟨h.order, fun _ => .inl hn⟩

/-- In every run the functors that have run, the rest of the current batch and the queue are the
functors pushed, in push order; and when the loop thread is blocked in `poll` and no thread is
between its push and its write, the queue is empty. -/
theorem tasks_of_run {as : List (Action F P)} {w : EventLoop F P} (h : Run step anyStep {} as w) :
    executed w.trace ++ (w.pc.batch ++ w.pendingFunc) = pushed w.trace ∧
      (w.blocked → (∀ p, w.threads p ≠ .pushed) → w.pendingFunc = []) := by
  have hinv : w.TasksInv := h.invariant (I := TasksInv) ⟨rfl, fun hne => absurd rfl hne⟩
    fun t a u ht _ hstep => ht.moves (moves_of_step hstep)
  refine ⟨hinv.order, fun hblocked hnone => ?_⟩
  rw [blocked] at hblocked
  split at hblocked
  · rename_i hpc
    by_contra hne
    rcases hinv.wake hne with hpos | ⟨p, hp⟩ | hw
    · omega
    · exact hnone p hp
    · simp [hpc, Pc.willSwap] at hw
  · exact hblocked.elim

/-- Two threads push while the loop runs; the second write comes after the functor has run. -/
def twoProducers : List (Action Nat Bool) :=
  [.enter, .clearQuit, .test, .push true 1, .weakup true, .poll [.weak], .handleEvent,
    .push false 2, .handleEvent, .swap, .runFunc, .runFunc, .runFunc, .weakup false, .test,
    .poll [.weak], .handleEvent, .handleEvent, .swap, .runFunc, .test]

/-- Two producers push a task each, and the loop runs both and blocks. -/
theorem tasks_of_run_twoProducers :
    ∃ w : EventLoop Nat Bool, Run step anyStep {} twoProducers w ∧
      (executed w.trace = [1, 2] ∧ w.blocked) ∧
      executed w.trace ++ (w.pc.batch ++ w.pendingFunc) = pushed w.trace ∧
      (w.blocked → (∀ p, w.threads p ≠ .pushed) → w.pendingFunc = []) := by
  have htrace : (replay step anyStep ({} : EventLoop Nat Bool) twoProducers).map
      (fun w => (executed w.trace, match w.pc with
        | .poll => w.weakCount
        | _ => 1)) = some ([1, 2], 0) := by
    decide +kernel
  obtain ⟨w, hw, he⟩ := Option.map_eq_some_iff.mp htrace
  obtain ⟨hexecuted, hcount⟩ := Prod.mk.inj he
  refine ⟨w, .of_replay hw, ⟨hexecuted, ?_⟩, tasks_of_run (.of_replay hw)⟩
  rw [blocked]
  split at hcount
  · rename_i hpc
    rw [hpc]
    exact hcount
  · contradiction

end EventLoop

end ClearMoon.Loop

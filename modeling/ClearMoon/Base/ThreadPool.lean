import ClearMoon.Base.QueueTurns
import ClearMoon.Core.Simulation
import ClearMoon.Core.Slots

/-!
# The thread pool

`start` makes the worker threads, which take tasks out of one blocking queue until `start_` is
false or the queue returns an empty task, and the destructor stops the queue and joins them. Threads
of the program, and the tasks themselves, add tasks meanwhile. Every access to a shared member is a
step of its own.
-/

namespace ClearMoon.Base

/-- Where a worker thread is. -/
inductive Worker (τ : Type*) where
  /-- `pthread_create` has failed. -/
  | failed
  /-- At the test of `start_`. -/
  | head
  /-- Before `getTask`. -/
  | calling
  | getTask
  | running (task : τ)
  /-- Behind the loop. -/
  | leaving
  | finished
  | joined
  deriving DecidableEq

/-- The task that a worker runs. -/
def Worker.task? {τ : Type*} : Worker τ → Option τ
  | .running task => some task
  | _ => none

/-- A thread that has not run to its end, or that could not be made. -/
def Worker.stays {τ : Type*} : Worker τ → Bool
  | .finished | .joined => false
  | _ => true

/-- Where the thread is that owns the pool. -/
inductive Owner where
  | constructed
  /-- At the head of the loop of `start`. -/
  | starting
  /-- Before `++currentThreadNum`. -/
  | counting
  | started
  /-- In the destructor, before `stop`. -/
  | stopping
  /-- At the head of the loop that joins. -/
  | joining (i : Nat)
  | destroyed
  /-- An assertion has failed. -/
  | aborted
  deriving DecidableEq

/-- `base/ThreadPool.h`. The threads that use the queue are the workers and the threads of the
program; an empty `std::function` is `none`. -/
structure ThreadPool (κ τ : Type*) where
  threadMaxSize : Nat
  queue : BlockQueue (Nat ⊕ κ) (Option τ)
  start_ : Bool := false
  threads : List (Worker τ) := []
  /-- What the pool has added to the static counter. -/
  currentThreadNum : Int := 0
  owner : Owner := .constructed
  /-- The tasks that have been run to their end, in order. -/
  done : List τ := []

/-- A call of `addTask` in a thread of the program. -/
inductive ClientStep (κ τ : Type*) where
  | addTask (k : κ) (task : Option τ)
  | resume (k : κ)
  | spurious (k : κ)

def ClientStep.action {κ τ : Type*} : ClientStep κ τ → BlockQueue.Action (Nat ⊕ κ) (Option τ)
  | addTask k task => .addTask (.inr k) task
  | resume k => .resume (.inr k)
  | spurious k => .spurious (.inr k)

namespace ThreadPool

variable {κ τ : Type*} [DecidableEq κ]

inductive Action (κ τ : Type*) where
  | start
  /-- The next thread is made and started. -/
  | create (ok : Bool)
  /-- `++currentThreadNum`. -/
  | count
  | endStart
  | destroy
  | stop
  | join
  | endDestroy
  /-- A worker tests `start_`. -/
  | test (i : Nat)
  | getTask (i : Nat)
  /-- A woken worker gets the mutex. -/
  | resume (i : Nat)
  | spurious (i : Nat)
  /-- The task that a worker runs adds a task. -/
  | addTask (i : Nat) (task : Option τ)
  /-- The task that a worker runs returns. -/
  | ret (i : Nat)
  /-- `--currentThreadNum`. -/
  | leave (i : Nat)
  | client (c : ClientStep κ τ)

/-- `ThreadPool::ThreadPool`. -/
def new (threadMaxSize : Nat) (taskMaxSize : UInt64) : ThreadPool κ τ where
  threadMaxSize := threadMaxSize
  queue := { maxSize := taskMaxSize }

def setThread (p : ThreadPool κ τ) (i : Nat) (t : Worker τ) : ThreadPool κ τ :=
  { p with threads := p.threads.set i t }

/-- A worker behind a turn of `getTask`: it waits, or runs a task, or has got an empty one. -/
def behindGetTask (q q' : BlockQueue (Nat ⊕ κ) (Option τ)) (i : Nat) : Worker τ :=
  match q'.thread (.inl i), q.taskQueue with
  | .idle, some task :: _ => .running task
  | .idle, _ => .leaving
  | _, _ => .getTask

/-- A step of the queue that leaves the workers where they are. -/
def onQueue (p : ThreadPool κ τ) (a : BlockQueue.Action (Nat ⊕ κ) (Option τ)) :
    Option (ThreadPool κ τ) :=
  (p.queue.step a).map fun queue => { p with queue }

/-- A turn of a worker in `getTask`. -/
def turn (p : ThreadPool κ τ) (i : Nat) (a : BlockQueue.Action (Nat ⊕ κ) (Option τ)) :
    Option (ThreadPool κ τ) :=
  (p.queue.step a).map fun queue => { p with queue }.setThread i (behindGetTask p.queue queue i)

def step (p : ThreadPool κ τ) (a : Action κ τ) : Option (ThreadPool κ τ) :=
  if p.owner = .aborted then none
  else match a with
  | .start =>
    if p.owner = .constructed ∨ p.owner = .started then
      some (if p.threads = [] then { p with start_ := true, owner := .starting }
        else { p with owner := .aborted })
    else none
  | .create ok =>
    if p.owner = .starting ∧ p.threads.length < p.threadMaxSize then
      some { p with
        threads := p.threads ++ [if ok then .head else .failed]
        owner := .counting }
    else none
  | .count =>
    if p.owner = .counting then
      some { p with currentThreadNum := p.currentThreadNum + 1, owner := .starting }
    else none
  | .endStart =>
    if p.owner = .starting ∧ p.threadMaxSize ≤ p.threads.length then
      some { p with owner := .started }
    else none
  | .destroy =>
    if p.owner = .constructed ∨ p.owner = .started then
      some { p with start_ := false, owner := .stopping }
    else none
  | .stop =>
    if p.owner = .stopping then (p.onQueue .stop).map fun p => { p with owner := .joining 0 }
    else none
  | .join =>
    match p.owner with
    | .joining i =>
      match p.threads[i]? with
      | some .finished => some { p.setThread i .joined with owner := .joining (i + 1) }
      | some .failed => some { p with owner := .aborted }
      | _ => none
    | _ => none
  | .endDestroy =>
    if p.owner = .joining p.threads.length then some { p with owner := .destroyed } else none
  | .test i =>
    match p.threads[i]? with
    | some .head => some (p.setThread i (if p.start_ then .calling else .leaving))
    | _ => none
  | .getTask i =>
    match p.threads[i]? with
    | some .calling => p.turn i (.getTask (.inl i))
    | _ => none
  | .resume i =>
    match p.threads[i]? with
    | some .getTask => p.turn i (.resume (.inl i))
    | some (.running _) => p.onQueue (.resume (.inl i))
    | _ => none
  | .spurious i =>
    match p.threads[i]? with
    | some .getTask | some (.running _) => p.onQueue (.spurious (.inl i))
    | _ => none
  | .addTask i task =>
    match p.threads[i]? with
    | some (.running _) => p.onQueue (.addTask (.inl i) task)
    | _ => none
  | .ret i =>
    match p.threads[i]?, p.queue.thread (.inl i) with
    | some (.running task), .idle => some ({ p with done := p.done ++ [task] }.setThread i .head)
    | _, _ => none
  | .leave i =>
    match p.threads[i]? with
    | some .leaving =>
      some ({ p with currentThreadNum := p.currentThreadNum - 1 }.setThread i .finished)
    | _ => none
  | .client c => if p.owner = .destroyed then none else p.onQueue c.action

/-! ## What a step of the pool is -/

/-- The steps of a pool in which no assertion has failed, with what they require. -/
inductive Stepped (p : ThreadPool κ τ) : Action κ τ → ThreadPool κ τ → Prop
  | start (howner : p.owner = .constructed ∨ p.owner = .started) (hempty : p.threads = []) :
      Stepped p .start { p with start_ := true, owner := .starting }
  | startAgain (howner : p.owner = .constructed ∨ p.owner = .started) (hne : p.threads ≠ []) :
      Stepped p .start { p with owner := .aborted }
  | create {ok} (howner : p.owner = .starting) (hlt : p.threads.length < p.threadMaxSize) :
      Stepped p (.create ok) { p with
        threads := p.threads ++ [if ok then .head else .failed]
        owner := .counting }
  | count (howner : p.owner = .counting) :
      Stepped p .count { p with currentThreadNum := p.currentThreadNum + 1, owner := .starting }
  | endStart (howner : p.owner = .starting) : Stepped p .endStart { p with owner := .started }
  | destroy (howner : p.owner = .constructed ∨ p.owner = .started) :
      Stepped p .destroy { p with start_ := false, owner := .stopping }
  | stop (howner : p.owner = .stopping) :
      Stepped p .stop { p with queue := p.queue.stop, owner := .joining 0 }
  | join {i} (howner : p.owner = .joining i) (hthread : p.threads[i]? = some .finished) :
      Stepped p .join { p.setThread i .joined with owner := .joining (i + 1) }
  | joinFailed {i} (howner : p.owner = .joining i) (hthread : p.threads[i]? = some .failed) :
      Stepped p .join { p with owner := .aborted }
  | endDestroy (howner : p.owner = .joining p.threads.length) :
      Stepped p .endDestroy { p with owner := .destroyed }
  | test {i} (hthread : p.threads[i]? = some .head) :
      Stepped p (.test i) (p.setThread i (if p.start_ then .calling else .leaving))
  | getTask {i queue} (hthread : p.threads[i]? = some .calling)
      (hqueue : p.queue.step (.getTask (.inl i)) = some queue) :
      Stepped p (.getTask i)
        ({ p with queue }.setThread i (behindGetTask p.queue queue i))
  | resume {i queue} (hthread : p.threads[i]? = some .getTask)
      (hqueue : p.queue.step (.resume (.inl i)) = some queue) :
      Stepped p (.resume i)
        ({ p with queue }.setThread i (behindGetTask p.queue queue i))
  | resumeAdd {i task queue} (hthread : p.threads[i]? = some (.running task))
      (hqueue : p.queue.step (.resume (.inl i)) = some queue) :
      Stepped p (.resume i) { p with queue }
  | spurious {i queue} (hqueue : p.queue.step (.spurious (.inl i)) = some queue) :
      Stepped p (.spurious i) { p with queue }
  | addTask {i task running queue} (hthread : p.threads[i]? = some (.running running))
      (hqueue : p.queue.step (.addTask (.inl i) task) = some queue) :
      Stepped p (.addTask i task) { p with queue }
  | ret {i task} (hthread : p.threads[i]? = some (.running task))
      (hidle : p.queue.thread (.inl i) = .idle) :
      Stepped p (.ret i) ({ p with done := p.done ++ [task] }.setThread i .head)
  | leave {i} (hthread : p.threads[i]? = some .leaving) :
      Stepped p (.leave i)
        ({ p with currentThreadNum := p.currentThreadNum - 1 }.setThread i .finished)
  | client {c queue} (howner : p.owner ≠ .destroyed)
      (hqueue : p.queue.step c.action = some queue) : Stepped p (.client c) { p with queue }

variable {p p' : ThreadPool κ τ}

/-- The guards of a step, and what it makes of the pool. -/
theorem stepped_of_step {a : Action κ τ} (h : p.step a = some p') : Stepped p a p' := by
  simp only [step] at h
  split at h
  · contradiction
  · cases a with
    | start =>
      obtain ⟨howner, h⟩ := Option.ite_none_right_eq_some.mp h
      obtain rfl := Option.some.inj h
      by_cases hempty : p.threads = []
      · rw [if_pos hempty]
        exact .start howner hempty
      · rw [if_neg hempty]
        exact .startAgain howner hempty
    | create ok =>
      obtain ⟨⟨howner, hlt⟩, h⟩ := Option.ite_none_right_eq_some.mp h
      obtain rfl := Option.some.inj h
      exact .create howner hlt
    | count =>
      obtain ⟨howner, h⟩ := Option.ite_none_right_eq_some.mp h
      obtain rfl := Option.some.inj h
      exact .count howner
    | endStart =>
      obtain ⟨⟨howner, -⟩, h⟩ := Option.ite_none_right_eq_some.mp h
      obtain rfl := Option.some.inj h
      exact .endStart howner
    | destroy =>
      obtain ⟨howner, h⟩ := Option.ite_none_right_eq_some.mp h
      obtain rfl := Option.some.inj h
      exact .destroy howner
    | stop =>
      obtain ⟨howner, h⟩ := Option.ite_none_right_eq_some.mp h
      obtain rfl := Option.some.inj h
      exact .stop howner
    | join =>
      dsimp only at h
      split at h
      · rename_i i howner
        split at h
        · obtain rfl := Option.some.inj h
          exact .join howner ‹_›
        · obtain rfl := Option.some.inj h
          exact .joinFailed howner ‹_›
        · contradiction
      · contradiction
    | endDestroy =>
      obtain ⟨howner, h⟩ := Option.ite_none_right_eq_some.mp h
      obtain rfl := Option.some.inj h
      exact .endDestroy howner
    | test i =>
      dsimp only at h
      split at h
      · obtain rfl := Option.some.inj h
        exact .test ‹_›
      · contradiction
    | getTask i =>
      dsimp only at h
      split at h
      · obtain ⟨queue, hqueue, rfl⟩ := Option.map_eq_some_iff.mp h
        exact .getTask ‹_› hqueue
      · contradiction
    | resume i =>
      dsimp only at h
      split at h
      · obtain ⟨queue, hqueue, rfl⟩ := Option.map_eq_some_iff.mp h
        exact .resume ‹_› hqueue
      · obtain ⟨queue, hqueue, rfl⟩ := Option.map_eq_some_iff.mp h
        exact .resumeAdd ‹_› hqueue
      · contradiction
    | spurious i =>
      dsimp only at h
      split at h
      · obtain ⟨queue, hqueue, rfl⟩ := Option.map_eq_some_iff.mp h
        exact .spurious hqueue
      · obtain ⟨queue, hqueue, rfl⟩ := Option.map_eq_some_iff.mp h
        exact .spurious hqueue
      · contradiction
    | addTask i task =>
      dsimp only at h
      split at h
      · obtain ⟨queue, hqueue, rfl⟩ := Option.map_eq_some_iff.mp h
        exact .addTask ‹_› hqueue
      · contradiction
    | ret i =>
      dsimp only at h
      split at h
      · obtain rfl := Option.some.inj h
        exact .ret ‹_› ‹_›
      · contradiction
    | leave i =>
      dsimp only at h
      split at h
      · obtain rfl := Option.some.inj h
        exact .leave ‹_›
      · contradiction
    | client c =>
      obtain ⟨howner, h⟩ := Option.ite_none_left_eq_some.mp h
      obtain ⟨queue, hqueue, rfl⟩ := Option.map_eq_some_iff.mp h
      exact .client howner hqueue

/-! ## What becomes of the tasks of a pool -/

/-- The calls that a worker may be in. -/
def Placed : Option (Worker τ) → Call → Prop
  | some .getTask, c => c = .getTask
  | some (.running _), c => c ≠ .getTask
  | _, c => c = .none

/-- The calls that a thread may be in: the threads of the program take no tasks. -/
def Allows (threads : List (Worker τ)) : Nat ⊕ κ → Call → Prop
  | .inl i => Placed threads[i]?
  | .inr _ => (· ≠ .getTask)

/-- The tasks that are being run. -/
def held (p : ThreadPool κ τ) : List τ := p.threads.filterMap Worker.task?

/-- Every task that was returned is run by one worker, or has been run; and the counter counts the
threads that `start` has counted and that have not left. -/
structure Sound (p : ThreadPool κ τ) : Prop where
  conserved : p.queue.Conserved
  waits : p.queue.Waits
  placed : ∀ k, Allows p.threads k (p.queue.thread k).call
  tasks : (p.queue.returned.filterMap id).Perm (p.done ++ p.held)
  count : p.currentThreadNum =
    p.threads.countP Worker.stays - if p.owner = .counting then 1 else 0

omit [DecidableEq κ] in
/-- A new pool has no workers and no tasks. -/
theorem sound_new (threadMaxSize : Nat) (taskMaxSize : UInt64) :
    (new threadMaxSize taskMaxSize : ThreadPool κ τ).Sound where
  conserved := rfl
  waits := ⟨nofun, nofun⟩
  placed k := by cases k <;> simp [Allows, Placed, new, Thread.call]
  tasks := by simp [held, new]
  count := by simp [new]

/-! ### One worker moves -/

variable {i : Nat} {t u : Worker τ}

/-- A worker moves, and the others keep their calls. -/
theorem Sound.placed_set (h : p.Sound) {queue : BlockQueue (Nat ⊕ κ) (Option τ)}
    (hthread : p.threads[i]? = some t)
    (hothers : ∀ k ≠ .inl i, (queue.thread k).call = (p.queue.thread k).call)
    (hown : Placed (some u) (queue.thread (.inl i)).call) (k : Nat ⊕ κ) :
    Allows (p.threads.set i u) k (queue.thread k).call := by
  by_cases hk : k = .inl i
  · subst hk
    have hi := (List.getElem?_eq_some_iff.mp hthread).1
    simpa [Allows, hi] using hown
  · rw [hothers k hk]
    have hplaced := h.placed k
    cases k with
    | inl j =>
      have hij : i ≠ j := fun he => hk (he ▸ rfl)
      simpa [Allows, List.getElem?_set_ne hij] using hplaced
    | inr k => exact hplaced

omit [DecidableEq κ] in
/-- A worker moves without a task. -/
theorem held_setThread (p : ThreadPool κ τ) (hthread : p.threads[i]? = some t)
    (ht : t.task? = none) (ht' : u.task? = none) : (p.setThread i u).held.Perm p.held := by
  simpa [held, setThread, ht, ht'] using perm_filterMap_set Worker.task? hthread u

omit [DecidableEq κ] in
/-- A worker that moves inside its loop counts as before. -/
theorem countP_setThread (p : ThreadPool κ τ) (hthread : p.threads[i]? = some t)
    (hstays : u.stays = t.stays) :
    (p.setThread i u).threads.countP Worker.stays = p.threads.countP Worker.stays := by
  have h := countP_set_add Worker.stays hthread u
  rw [hstays] at h
  exact Nat.add_right_cancel h

/-- A worker moves that is in no call and has no task. -/
theorem Sound.move (h : p.Sound) (hthread : p.threads[i]? = some t)
    (hidle : Placed (some t) = (· = Call.none)) (hidle' : Placed (some u) Call.none)
    (ht : t.task? = none) (ht' : u.task? = none) (hstays : u.stays = t.stays) :
    (p.setThread i u).Sound where
  conserved := h.conserved
  waits := h.waits
  placed := by
    have hcall : (p.queue.thread (.inl i)).call = .none := by
      have hplaced : Placed p.threads[i]? (p.queue.thread (.inl i)).call := h.placed (.inl i)
      rwa [hthread, hidle] at hplaced
    exact h.placed_set hthread (fun _ _ => rfl) (hcall ▸ hidle')
  tasks := h.tasks.trans ((held_setThread p hthread ht ht').symm.append_left _)
  count := h.count.trans (by rw [← countP_setThread p hthread hstays]; rfl)

/-! ### The queue takes a step -/

/-- The queue takes a step that returns nothing. -/
theorem Sound.onQueue (h : p.Sound) {a : BlockQueue.Action (Nat ⊕ κ) (Option τ)}
    {queue : BlockQueue (Nat ⊕ κ) (Option τ)} (hqueue : p.queue.step a = some queue)
    (hreturned : queue.returned = p.queue.returned)
    (hown : ∀ k, a.thread? = some k → Allows p.threads k (queue.thread k).call) :
    ({ p with queue } : ThreadPool κ τ).Sound where
  conserved := h.conserved.step hqueue
  waits := h.waits.step hqueue
  placed k := by
    by_cases hk : a.thread? = some k
    · exact hown k hk
    · exact BlockQueue.call_step hqueue hk ▸ h.placed k
  tasks := by
    rw [hreturned]
    exact h.tasks
  count := h.count

/-- A thread that may be in `addTask` takes a turn of it. -/
theorem Sound.addTask (h : p.Sound) {a : BlockQueue.Action (Nat ⊕ κ) (Option τ)} {k : Nat ⊕ κ}
    {task : Option τ} (hqueue : p.queue.step a = some (p.queue.addTask k task))
    (ha : a.thread? = some k) (hk : ∀ c ≠ .getTask, Allows p.threads k c) :
    ({ p with queue := p.queue.addTask k task } : ThreadPool κ τ).Sound := by
  refine h.onQueue hqueue (BlockQueue.returned_addTask p.queue k task) fun k' hk' => ?_
  obtain rfl : k = k' := Option.some.inj (ha.symm.trans hk')
  refine hk _ ?_
  rcases p.queue.thread_addTask k task with ⟨hthread, -⟩ | hthread <;>
    simp [hthread, Thread.call]

omit [DecidableEq κ] in
/-- A thread that was found in `addTask` may be in it. -/
theorem Sound.allows_of_addTask (h : p.Sound) {k : Nat ⊕ κ}
    (hcall : (p.queue.thread k).call = .addTask) (c : Call) (hc : c ≠ .getTask) :
    Allows p.threads k c := by
  have hplaced := h.placed k
  rw [hcall] at hplaced
  cases k with
  | inl i =>
    rcases hthread : p.threads[i]? with - | t
    · simp [Allows, hthread, Placed] at hplaced
    · cases t with
      | running task => simpa [Allows, hthread, Placed] using hc
      | _ => simp [Allows, hthread, Placed] at hplaced
  | inr k => exact hc

/-- A wait ends, and its thread stays in its call. -/
theorem Sound.settle (h : p.Sound) {a : BlockQueue.Action (Nat ⊕ κ) (Option τ)} {k : Nat ⊕ κ}
    {t : Thread (Option τ)} (hqueue : p.queue.step a = some (p.queue.settle k t))
    (ha : a.thread? = some k) (hcall : t.call = (p.queue.thread k).call) :
    ({ p with queue := p.queue.settle k t } : ThreadPool κ τ).Sound := by
  refine h.onQueue hqueue rfl fun k' hk' => ?_
  obtain rfl : k = k' := Option.some.inj (ha.symm.trans hk')
  rw [BlockQueue.thread_settle, hcall]
  exact h.placed k

omit [DecidableEq κ] in
/-- A turn of `getTask` of a thread that is in `getTask`. -/
theorem queue_of_resume {q queue : BlockQueue (Nat ⊕ κ) (Option τ)} [DecidableEq κ] {k : Nat ⊕ κ}
    (hqueue : q.step (.resume k) = some queue) (hcall : (q.thread k).call = .getTask) :
    queue = q.getTask k := by
  cases BlockQueue.turn_of_step hqueue with
  | resumeAdd hwoken =>
    rw [hwoken] at hcall
    contradiction
  | resumeGet hwoken => rfl

/-- What a worker has got behind a turn of `getTask`. -/
theorem behindGetTask_cases (q : BlockQueue (Nat ⊕ κ) (Option τ)) (i : Nat) :
    behindGetTask q (q.getTask (.inl i)) i = .getTask ∧
        ((q.getTask (.inl i)).thread (.inl i)).call = .getTask ∧ q.stopped = false ∧
        (q.getTask (.inl i)).returned = q.returned ∨
      ∃ answer : Option (Option τ), ((q.getTask (.inl i)).thread (.inl i)).call = .none ∧
        (q.getTask (.inl i)).returned = q.returned ++ answer.toList ∧
        behindGetTask q (q.getTask (.inl i)) i = answer.join.elim .leaving .running := by
  rcases q.thread_getTask (.inl i) with ⟨hthread, hstopped, hreturned⟩ | ⟨hthread, hreturned⟩
  · refine .inl ⟨?_, by rw [hthread]; rfl, hstopped, hreturned⟩
    rw [behindGetTask, hthread]
  · refine .inr ⟨q.taskQueue.head?, by rw [hthread]; rfl, hreturned, ?_⟩
    rw [behindGetTask, hthread]
    rcases q.taskQueue with - | ⟨- | task, rest⟩ <;> rfl

/-- A worker takes a turn of `getTask`. -/
theorem Sound.turn (h : p.Sound) {a : BlockQueue.Action (Nat ⊕ κ) (Option τ)}
    (hqueue : p.queue.step a = some (p.queue.getTask (.inl i)))
    (ha : a.thread? = some (.inl i)) (hthread : p.threads[i]? = some t) (ht : t.task? = none)
    (hstays : t.stays = true) :
    ({ p with queue := p.queue.getTask (.inl i) }.setThread i
      (behindGetTask p.queue (p.queue.getTask (.inl i)) i) : ThreadPool κ τ).Sound := by
  have hothers (k : Nat ⊕ κ) (hk : k ≠ .inl i) :
      ((p.queue.getTask (.inl i)).thread k).call = (p.queue.thread k).call :=
    BlockQueue.call_step hqueue (by simpa [ha] using Ne.symm hk)
  rcases behindGetTask_cases p.queue i with ⟨hbehind, hcall, -, hreturned⟩ |
    ⟨answer, hcall, hreturned, hbehind⟩
  · rw [hbehind]
    refine ⟨h.conserved.step hqueue, h.waits.step hqueue, ?_, ?_, ?_⟩
    · exact h.placed_set hthread hothers hcall
    · change ((p.queue.getTask (.inl i)).returned.filterMap id).Perm _
      rw [hreturned]
      exact h.tasks.trans ((held_setThread p hthread ht rfl).symm.append_left _)
    · exact h.count.trans (by rw [← countP_setThread p hthread (u := .getTask) hstays.symm]; rfl)
  · rw [hbehind]
    refine ⟨h.conserved.step hqueue, h.waits.step hqueue, ?_, ?_, ?_⟩
    · have hown : Placed (some (answer.join.elim .leaving .running : Worker τ))
          ((p.queue.getTask (.inl i)).thread (.inl i)).call := by
        rw [hcall]
        cases answer.join <;> simp [Placed]
      exact h.placed_set hthread hothers hown
    · change ((p.queue.getTask (.inl i)).returned.filterMap id).Perm _
      have hslot := perm_filterMap_set Worker.task? hthread (answer.join.elim .leaving .running)
      have htask : (answer.join.elim .leaving .running : Worker τ).task? = answer.join := by
        cases answer.join <;> rfl
      rw [ht, htask] at hslot
      have hanswer : answer.toList.filterMap id = answer.join.toList := by
        rcases answer with - | - | task <;> rfl
      rw [hreturned, List.filterMap_append, hanswer]
      refine (h.tasks.append_right _).trans ?_
      rw [List.append_assoc]
      refine List.Perm.append_left _ ?_
      exact List.perm_append_comm.trans hslot.symm
    · refine h.count.trans ?_
      rw [← countP_setThread p hthread (u := answer.join.elim .leaving .running)]
      · rfl
      · rw [hstays]
        cases answer.join <;> rfl

/-! ### Every step -/

/-- Every step keeps the books of tasks and workers. -/
theorem Sound.step {a : Action κ τ} (h : p.Sound) (hstep : p.step a = some p') : p'.Sound := by
  have hplaced (i : Nat) : Placed p.threads[i]? (p.queue.thread (.inl i)).call := h.placed (.inl i)
  cases stepped_of_step hstep with
  | start howner hempty =>
    refine ⟨h.conserved, h.waits, h.placed, h.tasks, h.count.trans ?_⟩
    rcases howner with ho | ho <;> simp [ho]
  | startAgain howner hne =>
    refine ⟨h.conserved, h.waits, h.placed, h.tasks, h.count.trans ?_⟩
    rcases howner with ho | ho <;> simp [ho]
  | @create ok howner hlt =>
    refine ⟨h.conserved, h.waits, fun k => ?_, ?_, ?_⟩
    · cases k with
      | inl i =>
        have hi := hplaced i
        by_cases hlast : i = p.threads.length
        · subst hlast
          rw [List.getElem?_eq_none le_rfl] at hi
          cases ok <;> simpa [Allows, Placed] using hi
        · rcases Nat.lt_or_gt_of_ne hlast with hlt | hgt
          · simpa [Allows, List.getElem?_append_left hlt] using hi
          · rw [List.getElem?_eq_none hgt.le] at hi
            simpa [Allows, List.getElem?_append_right hgt.le,
              List.getElem?_eq_none (l := [_]) (show 1 ≤ i - p.threads.length by omega)] using hi
      | inr k => exact h.placed (.inr k)
    · rw [held, List.filterMap_append]
      have hnone :
          [if ok then Worker.head else .failed].filterMap Worker.task? = ([] : List τ) := by
        cases ok <;> rfl
      rw [hnone, List.append_nil]
      exact h.tasks
    · cases ok <;> simpa [Worker.stays, howner] using h.count
  | count howner =>
    refine ⟨h.conserved, h.waits, h.placed, h.tasks, ?_⟩
    have hcount := h.count
    simp only [howner, if_true] at hcount
    simp [hcount]
  | endStart howner =>
    refine ⟨h.conserved, h.waits, h.placed, h.tasks, h.count.trans ?_⟩
    simp [howner]
  | destroy howner =>
    refine ⟨h.conserved, h.waits, h.placed, h.tasks, h.count.trans ?_⟩
    rcases howner with ho | ho <;> simp [ho]
  | stop howner =>
    have hqueue : p.queue.step .stop = some p.queue.stop := rfl
    have hsound := h.onQueue hqueue rfl fun k hk => by contradiction
    refine ⟨hsound.conserved, hsound.waits, hsound.placed, hsound.tasks, hsound.count.trans ?_⟩
    simp [howner]
  | @join i howner hthread =>
    have hsound := h.move (u := .joined) hthread rfl rfl rfl rfl rfl
    refine ⟨hsound.conserved, hsound.waits, hsound.placed, hsound.tasks, hsound.count.trans ?_⟩
    simp [setThread, howner]
  | joinFailed howner hthread =>
    refine ⟨h.conserved, h.waits, h.placed, h.tasks, h.count.trans ?_⟩
    simp [howner]
  | endDestroy howner =>
    refine ⟨h.conserved, h.waits, h.placed, h.tasks, h.count.trans ?_⟩
    simp [howner]
  | @test i hthread =>
    refine h.move hthread rfl ?_ rfl ?_ ?_
    · split <;> rfl
    · split <;> rfl
    · split <;> rfl
  | @getTask i queue hthread hqueue =>
    cases BlockQueue.turn_of_step hqueue with
    | getTask hidle => exact h.turn hqueue rfl hthread rfl rfl
  | @resume i queue hthread hqueue =>
    have hcall := hplaced i
    rw [hthread] at hcall
    obtain rfl := queue_of_resume hqueue hcall
    exact h.turn hqueue rfl hthread rfl rfl
  | @resumeAdd i task queue hthread hqueue =>
    have hcall := hplaced i
    rw [hthread] at hcall
    cases BlockQueue.turn_of_step hqueue with
    | resumeAdd hwoken => exact h.addTask hqueue rfl (h.allows_of_addTask (by rw [hwoken]; rfl))
    | resumeGet hwoken =>
      rw [hwoken] at hcall
      exact absurd rfl hcall
  | @spurious i queue hqueue =>
    cases BlockQueue.turn_of_step hqueue with
    | spuriousFull hwait => exact h.settle hqueue rfl (by rw [hwait]; rfl)
    | spuriousEmpty hwait => exact h.settle hqueue rfl (by rw [hwait]; rfl)
  | @addTask i task running queue hthread hqueue =>
    cases BlockQueue.turn_of_step hqueue with
    | addTask hidle =>
      refine h.addTask hqueue rfl fun c hc => ?_
      simpa [Allows, hthread, Placed] using hc
  | @ret i task hthread hidle =>
    refine ⟨h.conserved, h.waits, ?_, ?_, ?_⟩
    · have hown : Placed (some (.head : Worker τ)) (p.queue.thread (.inl i)).call := by
        rw [hidle]
        rfl
      exact h.placed_set hthread (fun _ _ => rfl) hown
    · have hslot := perm_filterMap_set Worker.task? hthread .head
      refine h.tasks.trans ?_
      change (p.done ++ p.held).Perm ((p.done ++ [task]) ++ (p.setThread i .head).held)
      rw [List.append_assoc]
      exact hslot.symm.append_left _
    · exact h.count.trans (by rw [← countP_setThread p hthread (u := .head) rfl]; rfl)
  | @leave i hthread =>
    have hsound := h.tasks.trans
      ((held_setThread p hthread (u := .finished) rfl rfl).symm.append_left _)
    have hcall := hplaced i
    rw [hthread] at hcall
    refine ⟨h.conserved, h.waits, h.placed_set hthread (fun _ _ => rfl) hcall, hsound, ?_⟩
    have hslot := countP_set_add Worker.stays hthread .finished
    have hcount := h.count
    simp only [Worker.stays, if_true, Bool.false_eq_true, if_false] at hslot
    change p.currentThreadNum - 1 = ((p.threads.set i .finished).countP Worker.stays : Int) -
      if p.owner = .counting then 1 else 0
    rw [hcount]
    omega
  | @client c queue howner hqueue =>
    cases c with
    | addTask k task =>
      cases BlockQueue.turn_of_step hqueue with
      | addTask hidle => exact h.addTask hqueue rfl fun c hc => hc
    | resume k =>
      cases BlockQueue.turn_of_step hqueue with
      | resumeAdd hwoken => exact h.addTask hqueue rfl fun c hc => hc
      | resumeGet hwoken =>
        have hcall : (p.queue.thread (.inr k)).call ≠ .getTask := h.placed (.inr k)
        rw [hwoken] at hcall
        exact absurd rfl hcall
    | spurious k =>
      cases BlockQueue.turn_of_step hqueue with
      | spuriousFull hwait => exact h.settle hqueue rfl (by rw [hwait]; rfl)
      | spuriousEmpty hwait => exact h.settle hqueue rfl (by rw [hwait]; rfl)

/-- Every accepted task that is not empty is, exactly once, still queued, or run by one worker, or
has been run; an empty one ends the worker that takes it. No worker sleeps while a task is queued.
And `currentThreadNum` counts the threads that have not made their decrement, those that could not
be made included, but for the one whose increment is still to be made. -/
theorem pooled_of_run {threadMaxSize : Nat} {taskMaxSize : UInt64} {as : List (Action κ τ)}
    (h : Run step anyStep (new threadMaxSize taskMaxSize) as p) :
    p.queue.accepted = p.queue.returned ++ p.queue.taskQueue ∧
      (p.queue.returned.filterMap id).Perm (p.done ++ p.held) ∧
      (∀ k, p.queue.thread k = .empty → p.queue.taskQueue = []) ∧
      p.currentThreadNum =
        p.threads.countP Worker.stays - if p.owner = .counting then 1 else 0 := by
  have hsound := h.invariant (sound_new threadMaxSize taskMaxSize) fun _ _ _ hp _ hstep =>
    hp.step hstep
  exact ⟨hsound.conserved, hsound.tasks, fun k hk => (hsound.waits.empty k hk).1, hsound.count⟩

/-- Two workers, a task that adds another one, and an empty task that ends a worker. -/
def nestedTask : List (Action Unit Nat) :=
  [.start, .create true, .test 0, .getTask 0, .count, .create true, .count, .endStart,
    .client (.addTask () (some 1)), .resume 0, .addTask 0 (some 2), .client (.addTask () none),
    .test 1, .getTask 1, .ret 0, .test 0, .getTask 0, .leave 0]

theorem pooled_of_run_nestedTask :
    ∃ p : ThreadPool Unit Nat, Run step anyStep (new 2 100) nestedTask p ∧
      p.queue.accepted = p.queue.returned ++ p.queue.taskQueue ∧
      (p.queue.returned.filterMap id).Perm (p.done ++ p.held) ∧
      (∀ k, p.queue.thread k = .empty → p.queue.taskQueue = []) ∧
      p.currentThreadNum =
        p.threads.countP Worker.stays - if p.owner = .counting then 1 else 0 := by
  obtain ⟨p, hp⟩ := Option.isSome_iff_exists.mp
    (show (replay step anyStep (new 2 100 : ThreadPool Unit Nat) nestedTask).isSome by
      decide +kernel)
  exact ⟨p, .of_replay hp, pooled_of_run (.of_replay hp)⟩

end ThreadPool

end ClearMoon.Base

import ClearMoon.Core.Machine

/-!
# The blocking queue

Producers and consumers share a bounded queue under one mutex. A call is a sequence of turns: each
turn holds the mutex from where the thread has got it to the next `wait` or to the end of the call,
and `wait` gives it back. A waiting thread goes on after a notification, or after none at all, when
it gets the mutex again. Only edges are notified, and the bound can be moved while threads wait.
-/

namespace ClearMoon.Base

/-- Where a thread is. -/
inductive Thread (τ : Type*) where
  /-- In no call. -/
  | idle
  /-- `addTask` waits for `fullCond_`. -/
  | full (task : τ)
  /-- `addTask` has been woken, and waits for the mutex. -/
  | addTask (task : τ)
  /-- `getTask` waits for `emptyCond_`. -/
  | empty
  /-- `getTask` has been woken, and waits for the mutex. -/
  | getTask
  deriving DecidableEq

/-- A thread after `fullCond_.notifyAll()`. -/
def Thread.notifyFull {τ : Type*} : Thread τ → Thread τ
  | .full task => .addTask task
  | t => t

/-- A thread after `emptyCond_.notifyAll()`. -/
def Thread.notifyEmpty {τ : Type*} : Thread τ → Thread τ
  | .empty => .getTask
  | t => t

/-- `base/BlockQueue.h`, the threads that use it, and what they have put in and taken out. -/
structure BlockQueue (ι τ : Type*) where
  maxSize : UInt64
  taskQueue : List τ := []
  stopped : Bool := false
  thread : ι → Thread τ := fun _ => .idle
  /-- The tasks that `addTask` has pushed, in order. -/
  accepted : List τ := []
  /-- The tasks that `getTask` has returned, in order. -/
  returned : List τ := []

namespace BlockQueue

variable {ι τ : Type*} [DecidableEq ι]

/-- The wait, or the end of the call, of one thread. -/
def settle (q : BlockQueue ι τ) (i : ι) (t : Thread τ) : BlockQueue ι τ :=
  { q with thread := Function.update q.thread i t }

def notifyFull (q : BlockQueue ι τ) : BlockQueue ι τ :=
  { q with thread := fun i => (q.thread i).notifyFull }

def notifyEmpty (q : BlockQueue ι τ) : BlockQueue ι τ :=
  { q with thread := fun i => (q.thread i).notifyEmpty }

/-- `BlockQueue::addTask`, from where the thread has the mutex. -/
def addTask (q : BlockQueue ι τ) (i : ι) (task : τ) : BlockQueue ι τ :=
  if q.maxSize.toNat ≤ q.taskQueue.length ∧ q.stopped = false then q.settle i (.full task)
  else if q.stopped then q.settle i .idle
  else
    let wasEmpty := q.taskQueue.isEmpty
    let q := { q with taskQueue := q.taskQueue ++ [task], accepted := q.accepted ++ [task] }
    (if wasEmpty then q.notifyEmpty else q).settle i .idle

/-- `BlockQueue::getTask`, from where the thread has the mutex. A stopped queue returns an empty
task when it has none left. -/
def getTask (q : BlockQueue ι τ) (i : ι) : BlockQueue ι τ :=
  if q.taskQueue.isEmpty ∧ q.stopped = false then q.settle i .empty
  else
    match q.taskQueue with
    | [] => q.settle i .idle
    | task :: taskQueue =>
      let q := { q with taskQueue, returned := q.returned ++ [task] }
      (if taskQueue.length = (q.maxSize - 1).toNat then q.notifyFull else q).settle i .idle

/-- `BlockQueue::setMaxSize`. -/
def setMaxSize (q : BlockQueue ι τ) (maxSize : UInt64) : BlockQueue ι τ :=
  let q := { q with maxSize }
  if q.taskQueue.length < maxSize.toNat then q.notifyFull else q

/-- `BlockQueue::stop`. -/
def stop (q : BlockQueue ι τ) : BlockQueue ι τ :=
  ({ q with stopped := true } : BlockQueue ι τ).notifyFull.notifyEmpty

/-! ## Steps -/

inductive Action (ι τ : Type*) where
  | addTask (i : ι) (task : τ)
  | getTask (i : ι)
  /-- A woken thread gets the mutex. -/
  | resume (i : ι)
  /-- A wait ends without a notification. -/
  | spurious (i : ι)
  | setMaxSize (maxSize : UInt64)
  | stop

/-- One step of some thread under the mutex. -/
def step (q : BlockQueue ι τ) : Action ι τ → Option (BlockQueue ι τ)
  | .addTask i task =>
    match q.thread i with
    | .idle => some (q.addTask i task)
    | _ => none
  | .getTask i =>
    match q.thread i with
    | .idle => some (q.getTask i)
    | _ => none
  | .resume i =>
    match q.thread i with
    | .addTask task => some (q.addTask i task)
    | .getTask => some (q.getTask i)
    | _ => none
  | .spurious i =>
    match q.thread i with
    | .full task => some (q.settle i (.addTask task))
    | .empty => some (q.settle i .getTask)
    | _ => none
  | .setMaxSize maxSize => if 1 ≤ maxSize then some (q.setMaxSize maxSize) else none
  | .stop => some q.stop

/-- What a step does: a turn of `addTask` or of `getTask`, a wait that ends, a new bound, or the
stop. -/
theorem step_cases {q q' : BlockQueue ι τ} {a : Action ι τ} (h : q.step a = some q') :
    (∃ i task, q' = q.addTask i task) ∨ (∃ i, q' = q.getTask i) ∨
      (∃ i task, q' = q.settle i (.addTask task)) ∨ (∃ i, q' = q.settle i .getTask) ∨
      (∃ maxSize, 1 ≤ maxSize ∧ q' = q.setMaxSize maxSize) ∨ q' = q.stop := by
  cases a with
  | addTask i task =>
    simp only [step] at h
    split at h
    · exact .inl ⟨i, task, (Option.some.inj h).symm⟩
    · contradiction
  | getTask i =>
    simp only [step] at h
    split at h
    · exact .inr (.inl ⟨i, (Option.some.inj h).symm⟩)
    · contradiction
  | resume i =>
    simp only [step] at h
    split at h
    · exact .inl ⟨i, _, (Option.some.inj h).symm⟩
    · exact .inr (.inl ⟨i, (Option.some.inj h).symm⟩)
    · contradiction
  | spurious i =>
    simp only [step] at h
    split at h
    · exact .inr (.inr (.inl ⟨i, _, (Option.some.inj h).symm⟩))
    · exact .inr (.inr (.inr (.inl ⟨i, (Option.some.inj h).symm⟩)))
    · contradiction
  | setMaxSize maxSize =>
    obtain ⟨hpos, hq⟩ := Option.ite_none_right_eq_some.mp h
    exact .inr (.inr (.inr (.inr (.inl ⟨maxSize, hpos, (Option.some.inj hq).symm⟩))))
  | stop => exact .inr (.inr (.inr (.inr (.inr (Option.some.inj h).symm))))

/-! ## Who waits -/

/-- Every waiting thread waits for something that has not come. -/
structure Waits (q : BlockQueue ι τ) : Prop where
  full : ∀ i task, q.thread i = .full task →
    q.maxSize.toNat ≤ q.taskQueue.length ∧ q.stopped = false
  empty : ∀ i, q.thread i = .empty → q.taskQueue = [] ∧ q.stopped = false

/-- A producer that is woken does not wait any more. -/
theorem notifyFull_ne_full (t : Thread τ) (task : τ) : t.notifyFull ≠ .full task := by
  cases t <;> simp [Thread.notifyFull]

/-- Nor does a consumer. -/
theorem notifyEmpty_ne_empty (t : Thread τ) : t.notifyEmpty ≠ .empty := by
  cases t <;> simp [Thread.notifyEmpty]

/-- A notification of one condition leaves the waits for the other as they are. -/
theorem notifyFull_eq_empty {t : Thread τ} : t.notifyFull = .empty ↔ t = .empty := by
  cases t <;> simp [Thread.notifyFull]

/-- Waking the consumers leaves the producers waiting. -/
theorem notifyEmpty_eq_full {t : Thread τ} {task : τ} :
    t.notifyEmpty = .full task ↔ t = .full task := by
  cases t <;> simp [Thread.notifyEmpty]

variable {q q' : BlockQueue ι τ} {i : ι} {task : τ}

/-- A thread may begin a wait for what has not come, or end any wait. -/
theorem Waits.settle (h : q.Waits) {t : Thread τ}
    (hfull : ∀ task, t = .full task → q.maxSize.toNat ≤ q.taskQueue.length ∧ q.stopped = false)
    (hempty : t = .empty → q.taskQueue = [] ∧ q.stopped = false) : (q.settle i t).Waits := by
  constructor
  · intro j task hj
    by_cases hij : j = i
    · subst hij
      exact hfull task (by simpa [BlockQueue.settle] using hj)
    · exact h.full j task (by simpa [BlockQueue.settle, hij] using hj)
  · intro j hj
    by_cases hij : j = i
    · subst hij
      exact hempty (by simpa [BlockQueue.settle] using hj)
    · exact h.empty j (by simpa [BlockQueue.settle, hij] using hj)

/-- Ending a call ends no other wait. -/
theorem Waits.done (h : q.Waits) : (q.settle i .idle).Waits :=
  h.settle nofun nofun

/-- A push wakes the consumers if there can be any, and gives a producer no room. -/
theorem Waits.addTask (h : q.Waits) : (q.addTask i task).Waits := by
  unfold BlockQueue.addTask
  split
  · rename_i hwait
    exact h.settle (fun _ _ => hwait) nofun
  split
  · exact h.done
  rename_i hroom hstopped
  apply Waits.done
  have hfull : ∀ j task', q.thread j = .full task' → False := by
    intro j task' hj
    exact hroom (h.full j task' hj)
  split
  · constructor
    · intro j task' hj
      exact absurd (notifyEmpty_eq_full.mp hj) (hfull j task')
    · intro j hj
      exact absurd hj (notifyEmpty_ne_empty _)
  · rename_i hne
    constructor
    · intro j task' hj
      exact absurd hj (hfull j task')
    · intro j hj
      exact absurd (by simpa using (h.empty j hj).1) hne

/-- A pop that brings the size below the bound does so from the bound, and wakes the producers. -/
theorem Waits.getTask (h : q.Waits) : (q.getTask i).Waits := by
  unfold BlockQueue.getTask
  split
  · rename_i hwait
    exact h.settle nofun fun _ => ⟨by simpa using hwait.1, hwait.2⟩
  split
  · exact h.done
  rename_i task taskQueue hqueue
  apply Waits.done
  have hempty : ∀ j, q.thread j = .empty → False := by
    intro j hj
    have hnil := (h.empty j hj).1
    rw [hqueue] at hnil
    contradiction
  split
  · constructor
    · intro j task' hj
      exact absurd hj (notifyFull_ne_full _ task')
    · intro j hj
      exact absurd (notifyFull_eq_empty.mp hj) (hempty j)
  · rename_i hedge
    constructor
    · intro j task' hj
      obtain ⟨hle, hstopped⟩ := h.full j task' hj
      refine ⟨?_, hstopped⟩
      rw [hqueue, List.length_cons] at hle
      by_contra hlt
      apply hedge
      have hone : (1 : UInt64) ≤ q.maxSize := by
        rw [UInt64.le_iff_toNat_le, UInt64.toNat_one]
        dsimp only at hlt
        omega
      change taskQueue.length = (q.maxSize - 1).toNat
      rw [UInt64.toNat_sub_of_le _ _ hone, UInt64.toNat_one]
      dsimp only at hlt
      omega
    · intro j hj
      exact absurd hj (hempty j)

omit [DecidableEq ι] in
/-- A greater maximum wakes the producers that it makes room for. -/
theorem Waits.setMaxSize (h : q.Waits) (maxSize : UInt64) : (q.setMaxSize maxSize).Waits := by
  unfold BlockQueue.setMaxSize
  dsimp only
  split
  · constructor
    · intro j task' hj
      exact absurd hj (notifyFull_ne_full _ task')
    · intro j hj
      exact h.empty j (notifyFull_eq_empty.mp hj)
  · rename_i hroom
    constructor
    · intro j task' hj
      exact ⟨not_lt.mp hroom, (h.full j task' hj).2⟩
    · exact h.empty

omit [DecidableEq ι] in
/-- After `stop` nobody waits. -/
theorem Waits.stop (q : BlockQueue ι τ) : q.stop.Waits := by
  constructor
  · intro j task' hj
    exact absurd (notifyEmpty_eq_full.mp hj) (notifyFull_ne_full _ task')
  · intro j hj
    exact absurd hj (notifyEmpty_ne_empty _)

/-- Nobody waits in vain after a step if nobody did before. -/
theorem Waits.step {a : Action ι τ} (h : q.Waits) (hstep : q.step a = some q') : q'.Waits := by
  rcases step_cases hstep with ⟨i, task, rfl⟩ | ⟨i, rfl⟩ | ⟨i, task, rfl⟩ | ⟨i, rfl⟩ |
    ⟨maxSize, -, rfl⟩ | rfl
  · exact h.addTask
  · exact h.getTask
  · exact h.settle nofun nofun
  · exact h.settle nofun nofun
  · exact h.setMaxSize maxSize
  · exact Waits.stop q

/-! ## What becomes of the tasks -/

@[simp] theorem taskQueue_settle (t : Thread τ) : (q.settle i t).taskQueue = q.taskQueue := rfl
@[simp] theorem accepted_settle (t : Thread τ) : (q.settle i t).accepted = q.accepted := rfl
@[simp] theorem returned_settle (t : Thread τ) : (q.settle i t).returned = q.returned := rfl

/-- `addTask` leaves the tasks alone, or finds room and pushes its own. -/
theorem addTask_tasks (q : BlockQueue ι τ) (i : ι) (task : τ) :
    (q.addTask i task).returned = q.returned ∧
      ((q.addTask i task).taskQueue = q.taskQueue ∧ (q.addTask i task).accepted = q.accepted ∨
        q.taskQueue.length < q.maxSize.toNat ∧ q.stopped = false ∧
          (q.addTask i task).taskQueue = q.taskQueue ++ [task] ∧
          (q.addTask i task).accepted = q.accepted ++ [task]) := by
  unfold addTask
  split
  · exact ⟨rfl, .inl ⟨rfl, rfl⟩⟩
  · rename_i hroom
    split
    · exact ⟨rfl, .inl ⟨rfl, rfl⟩⟩
    · rename_i hrun
      have hstopped : q.stopped = false := by simpa using hrun
      have hlt : q.taskQueue.length < q.maxSize.toNat := not_le.mp fun hle => hroom ⟨hle, hstopped⟩
      dsimp only
      split
      · exact ⟨rfl, .inr ⟨hlt, hstopped, rfl, rfl⟩⟩
      · exact ⟨rfl, .inr ⟨hlt, hstopped, rfl, rfl⟩⟩

/-- `getTask` leaves the tasks alone, or returns the first one. -/
theorem getTask_tasks (q : BlockQueue ι τ) (i : ι) :
    (q.getTask i).accepted = q.accepted ∧
      ((q.getTask i).taskQueue = q.taskQueue ∧ (q.getTask i).returned = q.returned ∨
        ∃ task, q.taskQueue = task :: (q.getTask i).taskQueue ∧
          (q.getTask i).returned = q.returned ++ [task]) := by
  unfold getTask
  split
  · exact ⟨rfl, .inl ⟨rfl, rfl⟩⟩
  · split
    · exact ⟨rfl, .inl ⟨rfl, rfl⟩⟩
    · rename_i task taskQueue hqueue
      dsimp only
      split
      · exact ⟨rfl, .inr ⟨task, hqueue, rfl⟩⟩
      · exact ⟨rfl, .inr ⟨task, hqueue, rfl⟩⟩

omit [DecidableEq ι] in
/-- Changing the bound touches no task. -/
theorem setMaxSize_tasks (q : BlockQueue ι τ) (maxSize : UInt64) :
    (q.setMaxSize maxSize).taskQueue = q.taskQueue ∧
      (q.setMaxSize maxSize).accepted = q.accepted ∧
      (q.setMaxSize maxSize).returned = q.returned := by
  unfold setMaxSize
  dsimp only
  split
  · exact ⟨rfl, rfl, rfl⟩
  · exact ⟨rfl, rfl, rfl⟩

/-- A step accepts nothing, or pushes one task where there is room. -/
theorem accepted_step {a : Action ι τ} (hstep : q.step a = some q') :
    q'.accepted = q.accepted ∨ ∃ task, q'.accepted = q.accepted ++ [task] ∧
      q'.taskQueue = q.taskQueue ++ [task] ∧ q.taskQueue.length < q.maxSize.toNat := by
  rcases step_cases hstep with ⟨i, task, rfl⟩ | ⟨i, rfl⟩ | ⟨i, task, rfl⟩ | ⟨i, rfl⟩ |
    ⟨maxSize, -, rfl⟩ | rfl
  · rcases (q.addTask_tasks i task).2 with ⟨-, h⟩ | ⟨hlt, -, hqueue, haccepted⟩
    · exact .inl h
    · exact .inr ⟨task, haccepted, hqueue, hlt⟩
  · exact .inl (q.getTask_tasks i).1
  · exact .inl rfl
  · exact .inl rfl
  · exact .inl (q.setMaxSize_tasks maxSize).2.1
  · exact .inl rfl

/-- The accepted tasks are those returned and those still queued, in order. -/
def Conserved (q : BlockQueue ι τ) : Prop := q.accepted = q.returned ++ q.taskQueue

/-- A step moves tasks along the queue, and loses none. -/
theorem Conserved.step {a : Action ι τ} (h : q.Conserved) (hstep : q.step a = some q') :
    q'.Conserved := by
  unfold Conserved at h ⊢
  rcases step_cases hstep with ⟨i, task, rfl⟩ | ⟨i, rfl⟩ | ⟨i, task, rfl⟩ | ⟨i, rfl⟩ |
    ⟨maxSize, -, rfl⟩ | rfl
  · obtain ⟨hreturned, ⟨hqueue, haccepted⟩ | ⟨-, -, hqueue, haccepted⟩⟩ := q.addTask_tasks i task
    · rw [hreturned, hqueue, haccepted, h]
    · rw [hreturned, hqueue, haccepted, h, List.append_assoc]
  · obtain ⟨haccepted, ⟨hqueue, hreturned⟩ | ⟨task, hqueue, hreturned⟩⟩ := q.getTask_tasks i
    · rw [haccepted, hqueue, hreturned, h]
    · rw [haccepted, hreturned, h, hqueue, List.append_assoc, List.singleton_append]
  · exact h
  · exact h
  · obtain ⟨hqueue, haccepted, hreturned⟩ := q.setMaxSize_tasks maxSize
    rw [haccepted, hreturned, hqueue, h]
  · exact h

/-- No task is lost and no wakeup: after every run the accepted tasks are, in order, those returned
and those still queued; nothing is pushed at the bound; and every thread in a wait set waits for a
condition that still holds. -/
theorem accepted_eq_of_run {maxSize : UInt64} {as : List (Action ι τ)}
    (hrun : Run step anyStep ({ maxSize } : BlockQueue ι τ) as q) :
    q.accepted = q.returned ++ q.taskQueue ∧
      (∀ a q', q.step a = some q' → q'.accepted ≠ q.accepted →
        q.taskQueue.length < q.maxSize.toNat) ∧
      (∀ i, q.thread i = .empty → q.taskQueue = [] ∧ q.stopped = false) ∧
      (∀ i task, q.thread i = .full task →
        q.maxSize.toNat ≤ q.taskQueue.length ∧ q.stopped = false) := by
  have hinv : q.Conserved ∧ q.Waits := by
    refine hrun.invariant (I := fun q => q.Conserved ∧ q.Waits) ⟨rfl, ?_⟩ ?_
    · exact ⟨nofun, nofun⟩
    · intro s a s' h _ hstep
      exact ⟨h.1.step hstep, h.2.step hstep⟩
  refine ⟨hinv.1, fun a q' hstep hne => ?_, hinv.2.empty, hinv.2.full⟩
  rcases accepted_step hstep with h | ⟨-, -, -, hlt⟩
  · exact absurd h hne
  · exact hlt

/-- A consumer waits, a producer fills the queue and waits, the bound is raised, the consumer gets
its task. -/
def raiseWhileFull : List (Action Bool Nat) :=
  [.getTask true, .addTask false 1, .addTask false 2, .setMaxSize 2, .resume false, .resume true,
    .getTask true]

/-- A producer waits while the queue is full, and the maximum is raised. -/
theorem accepted_eq_of_run_raiseWhileFull :
    ∃ q : BlockQueue Bool Nat, Run step anyStep { maxSize := 1 } raiseWhileFull q ∧
      q.accepted = q.returned ++ q.taskQueue ∧
      (∀ a q', q.step a = some q' → q'.accepted ≠ q.accepted →
        q.taskQueue.length < q.maxSize.toNat) ∧
      (∀ i, q.thread i = .empty → q.taskQueue = [] ∧ q.stopped = false) ∧
      (∀ i task, q.thread i = .full task →
        q.maxSize.toNat ≤ q.taskQueue.length ∧ q.stopped = false) := by
  obtain ⟨q, hq⟩ := Option.isSome_iff_exists.mp
    (show (replay step anyStep ({ maxSize := 1 } : BlockQueue Bool Nat) raiseWhileFull).isSome by
      decide +kernel)
  exact ⟨q, .of_replay hq, accepted_eq_of_run (.of_replay hq)⟩

end BlockQueue

end ClearMoon.Base

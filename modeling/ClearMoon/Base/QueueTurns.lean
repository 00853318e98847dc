import ClearMoon.Base.BlockQueue

/-!
# Turns of the blocking queue

What one turn does to the thread that takes it and to the others: a notification moves a thread
inside its call, and no turn of another thread moves it into a call or out of one.
-/

namespace ClearMoon.Base

/-- The call that a thread is in. -/
inductive Call where
  | none
  | addTask
  | getTask
  deriving DecidableEq

def Thread.call {τ : Type*} : Thread τ → Call
  | .idle => .none
  | .full _ | .addTask _ => .addTask
  | .empty | .getTask => .getTask

@[simp] theorem Thread.call_notifyFull {τ : Type*} (t : Thread τ) :
    t.notifyFull.call = t.call := by
  cases t <;> rfl

@[simp] theorem Thread.call_notifyEmpty {τ : Type*} (t : Thread τ) :
    t.notifyEmpty.call = t.call := by
  cases t <;> rfl

/-- A thread with no call in the queue is idle. -/
theorem Thread.call_eq_none {τ : Type*} {t : Thread τ} : t.call = .none ↔ t = .idle := by
  cases t <;> simp [Thread.call]

namespace BlockQueue

variable {ι σ : Type*} [DecidableEq ι] {q q' : BlockQueue ι σ} {i j : ι}

/-- The thread that takes a step. -/
def Action.thread? : Action ι σ → Option ι
  | .addTask i _ | .getTask i | .resume i | .spurious i => some i
  | .setMaxSize _ | .stop => none

/-- A thread settles for itself. -/
theorem call_settle (hj : j ≠ i) (t : Thread σ) :
    ((q.settle i t).thread j).call = (q.thread j).call := by
  simp [settle, hj]

@[simp] theorem thread_settle (t : Thread σ) : (q.settle i t).thread i = t := by
  simp [settle]

omit [DecidableEq ι] in
@[simp] theorem call_notifyFull' : (q.notifyFull.thread j).call = (q.thread j).call := by
  simp [notifyFull]

omit [DecidableEq ι] in
@[simp] theorem call_notifyEmpty' : (q.notifyEmpty.thread j).call = (q.thread j).call := by
  simp [notifyEmpty]

/-- An `addTask` may wake others, and leaves them in their calls. -/
theorem call_addTask (hj : j ≠ i) (task : σ) :
    ((q.addTask i task).thread j).call = (q.thread j).call := by
  unfold addTask
  split
  · exact call_settle hj _
  split
  · exact call_settle hj _
  · rw [call_settle hj]
    split
    · rw [call_notifyEmpty']
    · rfl

/-- So may a `getTask`. -/
theorem call_getTask (hj : j ≠ i) : ((q.getTask i).thread j).call = (q.thread j).call := by
  unfold getTask
  split
  · exact call_settle hj _
  split
  · exact call_settle hj _
  · rw [call_settle hj]
    split
    · rw [call_notifyFull']
    · rfl

/-- What a step is. -/
inductive Turn (q : BlockQueue ι σ) : Action ι σ → BlockQueue ι σ → Prop
  | addTask {i : ι} {task : σ} (h : q.thread i = .idle) :
      Turn q (.addTask i task) (q.addTask i task)
  | getTask {i : ι} (h : q.thread i = .idle) : Turn q (.getTask i) (q.getTask i)
  | resumeAdd {i : ι} {task : σ} (h : q.thread i = .addTask task) :
      Turn q (.resume i) (q.addTask i task)
  | resumeGet {i : ι} (h : q.thread i = .getTask) : Turn q (.resume i) (q.getTask i)
  | spuriousFull {i : ι} {task : σ} (h : q.thread i = .full task) :
      Turn q (.spurious i) (q.settle i (.addTask task))
  | spuriousEmpty {i : ι} (h : q.thread i = .empty) : Turn q (.spurious i) (q.settle i .getTask)
  | setMaxSize {maxSize : UInt64} (h : 1 ≤ maxSize) :
      Turn q (.setMaxSize maxSize) (q.setMaxSize maxSize)
  | stop : Turn q .stop q.stop

/-- Every step of the queue is a turn of one thread. -/
theorem turn_of_step {a : Action ι σ} (h : q.step a = some q') : Turn q a q' := by
  cases a with
  | addTask i task =>
    simp only [step] at h
    split at h
    · obtain rfl := Option.some.inj h
      exact .addTask ‹_›
    · contradiction
  | getTask i =>
    simp only [step] at h
    split at h
    · obtain rfl := Option.some.inj h
      exact .getTask ‹_›
    · contradiction
  | resume i =>
    simp only [step] at h
    split at h
    · obtain rfl := Option.some.inj h
      exact .resumeAdd ‹_›
    · obtain rfl := Option.some.inj h
      exact .resumeGet ‹_›
    · contradiction
  | spurious i =>
    simp only [step] at h
    split at h
    · obtain rfl := Option.some.inj h
      exact .spuriousFull ‹_›
    · obtain rfl := Option.some.inj h
      exact .spuriousEmpty ‹_›
    · contradiction
  | setMaxSize maxSize =>
    obtain ⟨hpos, h⟩ := Option.ite_none_right_eq_some.mp h
    obtain rfl := Option.some.inj h
    exact .setMaxSize hpos
  | stop =>
    obtain rfl := Option.some.inj h
    exact .stop

/-- A step of one thread leaves the others in their calls. -/
theorem call_step {a : Action ι σ} (h : q.step a = some q') (hj : a.thread? ≠ some j) :
    (q'.thread j).call = (q.thread j).call := by
  have hne {i : ι} (hi : a.thread? = some i) : j ≠ i := fun he => hj (he ▸ hi)
  cases turn_of_step h with
  | addTask => exact call_addTask (hne rfl) _
  | getTask => exact call_getTask (hne rfl)
  | resumeAdd => exact call_addTask (hne rfl) _
  | resumeGet => exact call_getTask (hne rfl)
  | spuriousFull => exact call_settle (hne rfl) _
  | spuriousEmpty => exact call_settle (hne rfl) _
  | setMaxSize =>
    unfold setMaxSize
    dsimp only
    split
    · rw [call_notifyFull']
    · rfl
  | stop => rw [stop, call_notifyEmpty', call_notifyFull']

/-- Behind a turn of `addTask` the thread still waits in it, or is out of it. -/
theorem thread_addTask (q : BlockQueue ι σ) (i : ι) (task : σ) :
    (q.addTask i task).thread i = .full task ∧ q.stopped = false ∨
      (q.addTask i task).thread i = .idle := by
  unfold addTask
  split
  · rename_i hwait
    exact .inl ⟨thread_settle _, hwait.2⟩
  split
  · exact .inr (thread_settle _)
  · exact .inr (thread_settle _)

/-- Behind a turn of `getTask` the thread waits for a task, or has the first one, or there was
none in a stopped queue. -/
theorem thread_getTask (q : BlockQueue ι σ) (i : ι) :
    (q.getTask i).thread i = .empty ∧ q.stopped = false ∧ (q.getTask i).returned = q.returned ∨
      (q.getTask i).thread i = .idle ∧
        (q.getTask i).returned = q.returned ++ q.taskQueue.head?.toList := by
  unfold getTask
  split
  · rename_i hwait
    exact .inl ⟨thread_settle _, hwait.2, rfl⟩
  split
  · rename_i hnil
    exact .inr ⟨thread_settle _, by simp [hnil]⟩
  · rename_i task taskQueue hqueue
    refine .inr ⟨thread_settle _, ?_⟩
    dsimp only
    split
    · simp [hqueue, notifyFull]
    · simp [hqueue]

/-- Only a turn of `getTask` returns a task. -/
theorem returned_addTask (q : BlockQueue ι σ) (i : ι) (task : σ) :
    (q.addTask i task).returned = q.returned := (q.addTask_tasks i task).1

/-- Only `stop` stops the queue. -/
theorem stopped_addTask (q : BlockQueue ι σ) (i : ι) (task : σ) :
    (q.addTask i task).stopped = q.stopped := by
  unfold addTask
  split
  · rfl
  split
  · rfl
  · dsimp only
    split <;> rfl

theorem stopped_getTask (q : BlockQueue ι σ) (i : ι) : (q.getTask i).stopped = q.stopped := by
  unfold getTask
  split
  · rfl
  split
  · rfl
  · dsimp only
    split <;> rfl

/-- A stopped queue stays stopped, and only `stop` stops it. -/
theorem stopped_step {a : Action ι σ} (h : q.step a = some q') :
    q'.stopped = q.stopped ∨ a = .stop ∧ q'.stopped = true := by
  cases turn_of_step h with
  | addTask => exact .inl (stopped_addTask q _ _)
  | getTask => exact .inl (stopped_getTask q _)
  | resumeAdd => exact .inl (stopped_addTask q _ _)
  | resumeGet => exact .inl (stopped_getTask q _)
  | spuriousFull => exact .inl rfl
  | spuriousEmpty => exact .inl rfl
  | setMaxSize =>
    unfold setMaxSize
    dsimp only
    split
    · exact .inl rfl
    · exact .inl rfl
  | stop => exact .inr ⟨rfl, rfl⟩

end BlockQueue

end ClearMoon.Base

import ClearMoon.Base.ThreadPool

/-!
# The destructor of the thread pool

`~ThreadPool` makes `start_` false, stops the queue, and joins the workers in order. No thread is
left in a wait then, so the workers leave one after the other: each runs at most one more task, and
what is still queued is dropped. A worker that could not be made cannot be joined, and the assertion
of `Thread::join` fails.
-/

namespace ClearMoon.Base

/-- The workers below this number have been joined. -/
def Owner.joinedBelow (size : Nat) : Owner → Nat
  | .joining i => i
  | .destroyed => size
  | _ => 0

/-- The queue has been stopped by the destructor. -/
def Owner.stops : Owner → Bool
  | .joining _ | .destroyed => true
  | _ => false

/-- How many steps of its own a worker can take when the queue has been stopped. -/
def Worker.rank {τ : Type*} : Worker τ → Nat
  | .calling | .getTask => 4
  | .running _ => 3
  | .head => 2
  | .leaving => 1
  | .failed | .finished | .joined => 0

/-- A worker that may yet be given a task when `start_` is false. -/
def Worker.fetches {τ : Type*} : Worker τ → Bool
  | .calling | .getTask => true
  | _ => false

/-- How many tasks a worker runs, or may yet be given when `start_` is false. -/
def Worker.works {τ : Type*} : Worker τ → Nat
  | .calling | .getTask | .running _ => 1
  | _ => 0

/-- A worker has one task at a time. -/
theorem Worker.works_le {τ : Type*} (t : Worker τ) : t.works ≤ 1 := by
  cases t <;> simp [works]

namespace ThreadPool

variable {κ τ : Type*}

/-- The task that this worker runs ends. -/
def Action.ends (i : Nat) : Action κ τ → Bool
  | .ret j => i = j
  | _ => false

/-- How many tasks this worker runs, or may yet be given when `start_` is false. -/
def works (p : ThreadPool κ τ) (i : Nat) : Nat := p.threads[i]?.elim 0 Worker.works

/-- The steps of the pool's own threads: the destructor goes on, or a worker does. -/
def Action.own : Action κ τ → Bool
  | .join | .endDestroy | .test _ | .getTask _ | .resume _ | .ret _ | .leave _ => true
  | _ => false

/-- A thread's part in the work that is left. -/
def weight (p : ThreadPool κ τ) (i : Nat) : Nat :=
  match p.threads[i]? with
  | some t => t.rank + if (p.queue.thread (.inl i)).call = .none then 0 else 1
  | none => 0

/-- The steps that are left for the destructor. -/
def ownerRank (p : ThreadPool κ τ) : Nat :=
  match p.owner with
  | .joining i => p.threads.length + 1 - i
  | _ => 0

/-- A bound on the steps that the pool's own threads can take. -/
def rank (p : ThreadPool κ τ) : Nat :=
  ∑ i ∈ Finset.range p.threads.length, p.weight i + p.ownerRank

variable [DecidableEq κ] {p p' : ThreadPool κ τ} {i : Nat} {t u : Worker τ}

/-- The owner has joined the workers below the one it is at, and no others; and behind `stop` the
workers find `start_` false and the queue stopped. -/
structure Joins (p : ThreadPool κ τ) : Prop where
  joined : p.owner ≠ .aborted →
    ∀ i, p.threads[i]? = some .joined ↔ i < p.owner.joinedBelow p.threads.length
  stopping : p.owner = .stopping ∨ p.owner.stops = true → p.start_ = false
  stopped : p.owner.stops = true → p.queue.stopped = true

omit [DecidableEq κ] in
/-- A new pool has no workers to join. -/
theorem joins_new (threadMaxSize : Nat) (taskMaxSize : UInt64) :
    (new threadMaxSize taskMaxSize : ThreadPool κ τ).Joins where
  joined _ i := by simp [new, Owner.joinedBelow]
  stopping _ := rfl
  stopped h := by simp [new, Owner.stops] at h

omit [DecidableEq κ] in
/-- A worker moves that has not been joined. -/
theorem Joins.setThread (h : p.Joins) (hthread : p.threads[i]? = some t) (ht : t ≠ .joined)
    (ht' : u ≠ .joined) : (p.setThread i u).Joins where
  joined howner j := by
    have hi := (List.getElem?_eq_some_iff.mp hthread).1
    have hj := h.joined howner j
    simp only [ThreadPool.setThread, List.length_set, List.getElem?_set]
    by_cases hij : i = j
    · subst hij
      rw [hthread] at hj
      simpa [hi, ht, ht'] using hj
    · simpa [hij] using hj
  stopping := h.stopping
  stopped := h.stopped

/-- The queue takes a step. -/
theorem Joins.onQueue (h : p.Joins) {a : BlockQueue.Action (Nat ⊕ κ) (Option τ)}
    {queue : BlockQueue (Nat ⊕ κ) (Option τ)} (hqueue : p.queue.step a = some queue) :
    ({ p with queue } : ThreadPool κ τ).Joins where
  joined := h.joined
  stopping := h.stopping
  stopped hstops := by
    rcases BlockQueue.stopped_step hqueue with he | ⟨-, he⟩
    · exact he.trans (h.stopped hstops)
    · exact he

omit [DecidableEq κ] in
/-- The owner moves on before it joins. -/
theorem Joins.move (h : p.Joins) {owner : Owner} (hold : p.owner.joinedBelow p.threads.length = 0)
    (hlive : p.owner ≠ .aborted) (hnew : owner.joinedBelow p.threads.length = 0)
    (hstopping : owner ≠ .stopping) (hstops : owner.stops = false) :
    ({ p with owner } : ThreadPool κ τ).Joins where
  joined _ i := by rw [h.joined hlive i, hold, hnew]
  stopping he := by simp [hstopping, hstops] at he
  stopped he := by simp [hstops] at he

/-- Workers are joined in order, behind the stop of the queue. -/
theorem Joins.step {a : Action κ τ} (h : p.Joins) (hstep : p.step a = some p') : p'.Joins := by
  cases stepped_of_step hstep with
  | start howner hempty =>
    refine ⟨fun _ i => ?_, fun he => by simp [Owner.stops] at he, fun he => by
      simp [Owner.stops] at he⟩
    simp [hempty, Owner.joinedBelow]
  | startAgain howner hne =>
    exact ⟨fun he => absurd rfl he, fun he => by simp [Owner.stops] at he, fun he => by
      simp [Owner.stops] at he⟩
  | @create ok howner hlt =>
    refine ⟨fun _ i => ?_, fun he => by simp [Owner.stops] at he, fun he => by
      simp [Owner.stops] at he⟩
    have hi := h.joined (by simp [howner]) i
    simp only [howner, Owner.joinedBelow, Nat.not_lt_zero, iff_false] at hi ⊢
    rw [List.getElem?_append]
    split
    · exact hi
    · rcases i - p.threads.length with - | k <;> cases ok <;> simp
  | count howner =>
    refine ⟨fun _ i => ?_, fun he => by simp [Owner.stops] at he, fun he => by
      simp [Owner.stops] at he⟩
    simpa [howner, Owner.joinedBelow] using h.joined (by simp [howner]) i
  | endStart howner =>
    exact h.move (by simp [howner, Owner.joinedBelow]) (by simp [howner]) rfl (by simp) rfl
  | destroy howner =>
    refine ⟨fun _ i => ?_, fun _ => rfl, fun he => by simp [Owner.stops] at he⟩
    have hi := h.joined (by rcases howner with ho | ho <;> simp [ho]) i
    rcases howner with ho | ho <;> simpa [ho, Owner.joinedBelow] using hi
  | stop howner =>
    refine ⟨fun _ i => ?_, fun _ => h.stopping (.inl howner), fun _ => rfl⟩
    simpa [howner, Owner.joinedBelow] using h.joined (by simp [howner]) i
  | @join k howner hthread =>
    have hk := (List.getElem?_eq_some_iff.mp hthread).1
    have hstops : p.owner.stops = true := by rw [howner]; rfl
    refine ⟨fun _ i => ?_, fun _ => h.stopping (.inr hstops), fun _ => h.stopped hstops⟩
    have hi := h.joined (by simp [howner]) i
    simp only [howner, Owner.joinedBelow] at hi
    simp only [ThreadPool.setThread, List.getElem?_set, Owner.joinedBelow]
    by_cases hik : k = i
    · subst hik
      simp [hk]
    · rw [if_neg hik, hi]
      omega
  | joinFailed howner hthread =>
    exact ⟨fun he => absurd rfl he, fun he => by simp [Owner.stops] at he, fun he => by
      simp [Owner.stops] at he⟩
  | endDestroy howner =>
    have hstops : p.owner.stops = true := by rw [howner]; rfl
    refine ⟨fun _ i => ?_, fun _ => h.stopping (.inr hstops), fun _ => h.stopped hstops⟩
    rw [h.joined (by simp [howner]) i, howner]
    rfl
  | test hthread =>
    refine h.setThread hthread (by simp) ?_
    split <;> simp
  | getTask hthread hqueue =>
    refine (h.onQueue hqueue).setThread hthread (by simp) ?_
    unfold behindGetTask
    split <;> simp
  | resume hthread hqueue =>
    refine (h.onQueue hqueue).setThread hthread (by simp) ?_
    unfold behindGetTask
    split <;> simp
  | resumeAdd hthread hqueue => exact h.onQueue hqueue
  | spurious hqueue => exact h.onQueue hqueue
  | addTask hthread hqueue => exact h.onQueue hqueue
  | @ret i task hthread hidle =>
    have hdone : ({ p with done := p.done ++ [task] } : ThreadPool κ τ).Joins :=
      ⟨h.joined, h.stopping, h.stopped⟩
    exact hdone.setThread hthread (by simp) (by simp)
  | leave hthread =>
    have hleft : ({ p with currentThreadNum := p.currentThreadNum - 1 } : ThreadPool κ τ).Joins :=
      ⟨h.joined, h.stopping, h.stopped⟩
    exact hleft.setThread hthread (by simp) (by simp)
  | client howner hqueue => exact h.onQueue hqueue

/-! ## The workers leave -/

/-- The queue has been stopped, or the process has ended. -/
structure Winds (p : ThreadPool κ τ) : Prop where
  sound : p.Sound
  joins : p.Joins
  ends : p.owner.stops = true ∨ p.owner = .aborted ∧ .failed ∈ p.threads

omit [DecidableEq κ] in
/-- The work that is left after one thread has moved. -/
theorem rank_le (hlength : p'.threads.length = p.threads.length) {c : Nat}
    (hothers : ∀ j, j ≠ i → p'.weight j = p.weight j)
    (hown : p'.weight i + p'.ownerRank + c ≤ p.weight i + p.ownerRank)
    (hi : i < p.threads.length) : p'.rank + c ≤ p.rank := by
  rw [rank, rank, hlength, ← Finset.add_sum_erase _ _ (Finset.mem_range.mpr hi),
    ← Finset.add_sum_erase _ (fun j => p.weight j) (Finset.mem_range.mpr hi)]
  have hsum : ∑ j ∈ (Finset.range p.threads.length).erase i, p'.weight j =
      ∑ j ∈ (Finset.range p.threads.length).erase i, p.weight j :=
    Finset.sum_congr rfl fun j hj => hothers j (Finset.ne_of_mem_erase hj)
  omega

omit [DecidableEq κ] in
/-- What one worker does is no work of another one. -/
theorem weight_of_ne {q : BlockQueue (Nat ⊕ κ) (Option τ)} {j : Nat} (hj : j ≠ i)
    (hcall : (q.thread (.inl j)).call = (p.queue.thread (.inl j)).call) (u : Worker τ) :
    ({ p with queue := q }.setThread i u : ThreadPool κ τ).weight j = p.weight j := by
  simp only [weight, setThread, List.getElem?_set_ne hj.symm, hcall]

omit [DecidableEq κ] in
/-- A worker's work is what it has still to do, and a wait to come out of. -/
theorem weight_eq (hthread : p.threads[i]? = some t) :
    p.weight i = t.rank + if (p.queue.thread (.inl i)).call = .none then 0 else 1 := by
  rw [weight, hthread]

omit [DecidableEq κ] in
/-- One worker moves, by a step of its own. -/
theorem rank_setThread {q : BlockQueue (Nat ⊕ κ) (Option τ)}
    (hthread : p.threads[i]? = some t)
    (hothers : ∀ j ≠ i, (q.thread (.inl j)).call = (p.queue.thread (.inl j)).call)
    (hown : (u.rank + if (q.thread (.inl i)).call = .none then 0 else 1) + 1 ≤ p.weight i) :
    ({ p with queue := q }.setThread i u : ThreadPool κ τ).rank + 1 ≤ p.rank := by
  have hi := (List.getElem?_eq_some_iff.mp hthread).1
  refine rank_le (p := p) (i := i) (by simp [setThread]) (fun j hj => ?_) ?_ hi
  · exact weight_of_ne hj (hothers j hj) u
  · have hset : ({ p with queue := q }.setThread i u : ThreadPool κ τ).threads[i]? = some u := by
      simp [setThread, hi]
    have howner : ({ p with queue := q }.setThread i u : ThreadPool κ τ).ownerRank =
        p.ownerRank := by simp [ownerRank, setThread]
    rw [weight_eq hset, howner]
    change u.rank + (if (q.thread (.inl i)).call = .none then 0 else 1) + _ + 1 ≤ _
    omega

omit [DecidableEq κ] in
/-- The workers stay where they are. -/
theorem rank_onQueue {q : BlockQueue (Nat ⊕ κ) (Option τ)}
    (hcall : ∀ j, (q.thread (.inl j)).call = (p.queue.thread (.inl j)).call) :
    ({ p with queue := q } : ThreadPool κ τ).rank = p.rank := by
  have hweight (j : Nat) : ({ p with queue := q } : ThreadPool κ τ).weight j = p.weight j := by
    simp only [weight, hcall]
  simp only [rank, hweight]
  rfl

/-- A worker takes its last turn of `getTask`. -/
theorem rank_turn (hstopped : p.queue.stopped = true)
    {a : BlockQueue.Action (Nat ⊕ κ) (Option τ)}
    (hqueue : p.queue.step a = some (p.queue.getTask (.inl i)))
    (ha : a.thread? = some (.inl i)) (hthread : p.threads[i]? = some t) (ht : t.rank = 4) :
    ({ p with queue := p.queue.getTask (.inl i) }.setThread i
      (behindGetTask p.queue (p.queue.getTask (.inl i)) i) : ThreadPool κ τ).rank + 1 ≤ p.rank := by
  refine rank_setThread hthread (fun j hj => ?_) ?_
  · exact BlockQueue.call_step hqueue (by simpa [ha] using hj.symm)
  · rcases behindGetTask_cases p.queue i with ⟨-, -, hwaits, -⟩ | ⟨answer, hcall, -, hbehind⟩
    · rw [hstopped] at hwaits
      contradiction
    · rw [hbehind, hcall, weight_eq hthread, ht, if_pos rfl]
      have hle : (answer.join.elim .leaving .running : Worker τ).rank ≤ 3 := by
        cases answer.join <;> simp [Worker.rank]
      omega

/-- No step is taken behind an assertion that has failed. -/
theorem live_of_step {a : Action κ τ} (hstep : p.step a = some p') : p.owner ≠ .aborted := by
  intro habort
  unfold ThreadPool.step at hstep
  rw [if_pos habort] at hstep
  contradiction

/-- The owner of a pool that takes a step is still in its destructor. -/
theorem Winds.stops (h : p.Winds) {a : Action κ τ} (hstep : p.step a = some p') :
    p.owner.stops = true :=
  h.ends.resolve_right fun he => live_of_step hstep he.1

omit [DecidableEq κ] in
/-- No thread waits for room in a queue that has been stopped. -/
theorem Winds.ne_full (h : p.Winds) (hstops : p.owner.stops = true) (k : Nat ⊕ κ)
    (task : Option τ) : p.queue.thread k ≠ .full task := by
  intro hk
  have hwaits := (h.sound.waits.full k task hk).2
  rw [h.joins.stopped hstops] at hwaits
  contradiction

omit [DecidableEq κ] in
/-- Nor does one wait for a task. -/
theorem Winds.ne_empty (h : p.Winds) (hstops : p.owner.stops = true) (k : Nat ⊕ κ) :
    p.queue.thread k ≠ .empty := by
  intro hk
  have hwaits := (h.sound.waits.empty k hk).2
  rw [h.joins.stopped hstops] at hwaits
  contradiction

/-- A step of the pool's own threads lowers what is left of them, and no other step raises it. -/
theorem Winds.rank_step (h : p.Winds) {a : Action κ τ} (hstep : p.step a = some p') :
    p'.rank + (if a.own then 1 else 0) ≤ p.rank := by
  have hstops := h.stops hstep
  have hstopped := h.joins.stopped hstops
  have hstart := h.joins.stopping (.inr hstops)
  cases stepped_of_step hstep with
  | start howner | startAgain howner | destroy howner =>
    rcases howner with ho | ho <;> simp [ho, Owner.stops] at hstops
  | create howner | count howner | endStart howner | stop howner =>
    simp [howner, Owner.stops] at hstops
  | @join i howner hthread =>
    have hi := (List.getElem?_eq_some_iff.mp hthread).1
    refine rank_le (p := p) (i := i) (by simp [setThread]) (fun j hj => ?_) ?_ hi
    · exact weight_of_ne (q := p.queue) hj rfl .joined
    · have hset : (p.setThread i .joined).threads[i]? = some .joined := by simp [setThread, hi]
      have hweight : ({ p.setThread i .joined with owner := .joining (i + 1) } :
          ThreadPool κ τ).weight i = p.weight i := by
        rw [weight_eq hthread]
        exact weight_eq (t := .joined) hset
      rw [hweight]
      simp only [ownerRank, howner, setThread, List.length_set, Action.own, if_true]
      omega
  | @joinFailed i howner hthread =>
    have hi := (List.getElem?_eq_some_iff.mp hthread).1
    simp only [rank, weight, ownerRank, howner, Action.own, if_true]
    omega
  | endDestroy howner =>
    simp only [rank, weight, ownerRank, howner, Action.own, if_true]
    omega
  | @test i hthread =>
    refine rank_setThread (q := p.queue) hthread (fun _ _ => rfl) ?_
    rw [hstart, weight_eq hthread]
    simp [Worker.rank]
  | @getTask i queue hthread hqueue =>
    cases BlockQueue.turn_of_step hqueue with
    | getTask hidle => exact rank_turn hstopped hqueue rfl hthread rfl
  | @resume i queue hthread hqueue =>
    have hcall : Placed p.threads[i]? (p.queue.thread (.inl i)).call := h.sound.placed (.inl i)
    rw [hthread] at hcall
    obtain rfl := queue_of_resume hqueue hcall
    exact rank_turn hstopped hqueue rfl hthread rfl
  | @resumeAdd i task queue hthread hqueue =>
    have hcall : Placed p.threads[i]? (p.queue.thread (.inl i)).call := h.sound.placed (.inl i)
    rw [hthread] at hcall
    have hi := (List.getElem?_eq_some_iff.mp hthread).1
    refine rank_le (i := i) (c := 1) ?_ (fun j hj => ?_) ?_ hi
    · rfl
    · have hcallj := BlockQueue.call_step hqueue (j := .inl j)
        (by simpa [BlockQueue.Action.thread?] using hj.symm)
      simp only [weight, hcallj]
    · cases BlockQueue.turn_of_step hqueue with
      | @resumeAdd _ task hwoken =>
        rcases p.queue.thread_addTask (.inl i) task with ⟨-, hwaits⟩ | hidle
        · rw [hstopped] at hwaits
          contradiction
        · simp only [weight, hthread, hidle, hwoken, Thread.call, ownerRank]
          simp
      | resumeGet hwoken =>
        rw [hwoken] at hcall
        exact absurd rfl hcall
  | @spurious i queue hqueue =>
    cases BlockQueue.turn_of_step hqueue with
    | spuriousFull hwait => exact absurd hwait (h.ne_full hstops _ _)
    | spuriousEmpty hwait => exact absurd hwait (h.ne_empty hstops _)
  | @addTask i task running queue hthread hqueue =>
    refine (rank_onQueue fun j => ?_).le
    by_cases hj : i = j
    · subst hj
      cases BlockQueue.turn_of_step hqueue with
      | addTask hidle =>
        rcases p.queue.thread_addTask (.inl i) task with ⟨-, hwaits⟩ | hthread'
        · rw [hstopped] at hwaits
          contradiction
        · rw [hthread', hidle]
    · exact BlockQueue.call_step hqueue (by simpa [BlockQueue.Action.thread?] using hj)
  | @ret i task hthread hidle =>
    have hrank := rank_setThread (u := .head) (q := p.queue) hthread (fun _ _ => rfl) (by
      rw [weight_eq hthread, hidle]
      simp [Worker.rank, Thread.call])
    exact hrank
  | @leave i hthread =>
    have hrank := rank_setThread (u := .finished) (q := p.queue) hthread (fun _ _ => rfl) (by
      rw [weight_eq hthread]
      simp [Worker.rank])
    exact hrank
  | @client c queue howner hqueue =>
    refine (rank_onQueue fun j => BlockQueue.call_step hqueue ?_).le
    cases c <;> simp [ClientStep.action, BlockQueue.Action.thread?]

/-- Once the queue is stopped, the pool winds up. -/
theorem Winds.step (h : p.Winds) {a : Action κ τ} (hstep : p.step a = some p') : p'.Winds := by
  have hstops := h.stops hstep
  refine ⟨h.sound.step hstep, h.joins.step hstep, ?_⟩
  cases stepped_of_step hstep with
  | start howner | startAgain howner | destroy howner =>
    rcases howner with ho | ho <;> simp [ho, Owner.stops] at hstops
  | create howner | count howner | endStart howner | stop howner =>
    simp [howner, Owner.stops] at hstops
  | join howner hthread => exact .inl rfl
  | joinFailed howner hthread => exact .inr ⟨rfl, List.mem_of_getElem? hthread⟩
  | endDestroy howner => exact .inl rfl
  | _ => exact .inl hstops

/-- As long as the destructor has not returned, one of the pool's own threads can take a step. -/
theorem Winds.progress (h : p.Winds) : p.owner = .destroyed ∨ p.owner = .aborted ∨
    ∃ a : Action κ τ, a.own = true ∧ (p.step a).isSome := by
  rcases h.ends with hstops | ⟨habort, -⟩
  · have hfull := h.ne_full hstops
    have hempty := h.ne_empty hstops
    rcases howner : p.owner with - | - | - | - | - | i | - | -
    any_goals simp [howner, Owner.stops] at hstops
    · refine .inr (.inr ?_)
      have hcall : Placed p.threads[i]? (p.queue.thread (.inl i)).call := h.sound.placed (.inl i)
      have hjoined := h.joins.joined (by simp [howner]) i
      simp only [howner, Owner.joinedBelow, lt_irrefl, iff_false] at hjoined
      rcases hthread : p.threads[i]? with - | t
      · have hle : p.threads.length ≤ i := List.getElem?_eq_none_iff.mp hthread
        have hbound : i ≤ p.threads.length := by
          by_contra hlt
          have hlast := (h.joins.joined (by simp [howner]) p.threads.length).mpr
            (by rw [howner]; exact not_le.mp hlt)
          rw [List.getElem?_eq_none le_rfl] at hlast
          contradiction
        obtain rfl : i = p.threads.length := le_antisymm hbound hle
        exact ⟨.endDestroy, rfl, by simp [ThreadPool.step, howner]⟩
      · rw [hthread] at hcall
        cases t with
        | failed => exact ⟨.join, rfl, by simp [ThreadPool.step, howner, hthread]⟩
        | finished => exact ⟨.join, rfl, by simp [ThreadPool.step, howner, hthread]⟩
        | joined => exact absurd hthread hjoined
        | head => exact ⟨.test i, rfl, by simp [ThreadPool.step, howner, hthread]⟩
        | leaving => exact ⟨.leave i, rfl, by simp [ThreadPool.step, howner, hthread]⟩
        | calling =>
          have hidle := Thread.call_eq_none.mp hcall
          exact ⟨.getTask i, rfl, by
            simp [ThreadPool.step, howner, hthread, ThreadPool.turn, BlockQueue.step, hidle]⟩
        | getTask =>
          refine ⟨.resume i, rfl, ?_⟩
          cases hwhere : p.queue.thread (.inl i) with
          | getTask =>
            simp [ThreadPool.step, howner, hthread, ThreadPool.turn, BlockQueue.step, hwhere]
          | empty => exact absurd hwhere (hempty _)
          | _ => simp [Placed, hwhere, Thread.call] at hcall
        | running task =>
          cases hwhere : p.queue.thread (.inl i) with
          | idle => exact ⟨.ret i, rfl, by simp [ThreadPool.step, howner, hthread, hwhere]⟩
          | addTask task' =>
            exact ⟨.resume i, rfl, by
              simp [ThreadPool.step, howner, hthread, onQueue, BlockQueue.step, hwhere]⟩
          | full task' => exact absurd hwhere (hfull _ _)
          | _ => simp [Placed, hwhere, Thread.call] at hcall
    · exact .inl rfl
  · exact .inr (.inl habort)

/-! ## What is dropped -/

/-- The tasks that have been returned, and those that may yet be when `start_` is false. -/
def last (p : ThreadPool κ τ) : Nat :=
  p.queue.returned.length + p.threads.countP Worker.fetches

omit [DecidableEq κ] in
/-- The tasks still to be taken change with the worker that takes them. -/
theorem last_setThread (hthread : p.threads[i]? = some t) {q : BlockQueue (Nat ⊕ κ) (Option τ)}
    (hreturned : q.returned.length + (if u.fetches then 1 else 0) ≤
      p.queue.returned.length + if t.fetches then 1 else 0) :
    ({ p with queue := q }.setThread i u : ThreadPool κ τ).last ≤ p.last := by
  have hslot := countP_set_add Worker.fetches hthread u
  simp only [last, setThread]
  omega

/-- A turn of `getTask` takes the one task that the worker may still be given. -/
theorem last_turn (hthread : p.threads[i]? = some t) (ht : t.fetches = true) :
    ({ p with queue := p.queue.getTask (.inl i) }.setThread i
      (behindGetTask p.queue (p.queue.getTask (.inl i)) i) : ThreadPool κ τ).last ≤ p.last := by
  refine last_setThread hthread ?_
  rw [if_pos ht]
  rcases behindGetTask_cases p.queue i with ⟨hbehind, -, -, hreturned⟩ |
    ⟨answer, -, hreturned, hbehind⟩
  · rw [hbehind, hreturned]
    exact le_rfl
  · have hnone : (answer.join.elim .leaving .running : Worker τ).fetches = false := by
      cases answer.join <;> rfl
    rw [hbehind, hreturned, hnone, List.length_append]
    cases answer <;> simp

/-- When `start_` is false, no worker is given a task but one that has passed the test of it, and
none is given more than one. -/
theorem Winds.last_step (h : p.Winds) {a : Action κ τ} (hstep : p.step a = some p') :
    p'.last ≤ p.last := by
  have hstops := h.stops hstep
  have hstart := h.joins.stopping (.inr hstops)
  have hcall (i : Nat) : Placed p.threads[i]? (p.queue.thread (.inl i)).call :=
    h.sound.placed (.inl i)
  cases stepped_of_step hstep with
  | start howner | startAgain howner | destroy howner =>
    rcases howner with ho | ho <;> simp [ho, Owner.stops] at hstops
  | create howner | count howner | endStart howner | stop howner =>
    simp [howner, Owner.stops] at hstops
  | join howner hthread =>
    exact last_setThread (q := p.queue) hthread (by simp [Worker.fetches])
  | joinFailed | endDestroy => exact le_rfl
  | test hthread =>
    refine last_setThread (q := p.queue) hthread ?_
    rw [hstart]
    simp [Worker.fetches]
  | getTask hthread hqueue =>
    cases BlockQueue.turn_of_step hqueue with
    | getTask hidle => exact last_turn hthread rfl
  | @resume i queue hthread hqueue =>
    have hget := hcall i
    rw [hthread] at hget
    obtain rfl := queue_of_resume hqueue hget
    exact last_turn hthread rfl
  | @resumeAdd i task queue hthread hqueue =>
    have hget := hcall i
    rw [hthread] at hget
    cases BlockQueue.turn_of_step hqueue with
    | resumeAdd hwoken =>
      simp only [last, BlockQueue.returned_addTask]
      exact le_rfl
    | resumeGet hwoken =>
      rw [hwoken] at hget
      exact absurd rfl hget
  | spurious hqueue =>
    cases BlockQueue.turn_of_step hqueue with
    | spuriousFull | spuriousEmpty => exact le_rfl
  | addTask hthread hqueue =>
    cases BlockQueue.turn_of_step hqueue with
    | addTask =>
      simp only [last, BlockQueue.returned_addTask]
      exact le_rfl
  | ret hthread hidle => exact last_setThread (q := p.queue) hthread (by simp [Worker.fetches])
  | leave hthread => exact last_setThread (q := p.queue) hthread (by simp [Worker.fetches])
  | @client c queue howner hqueue =>
    cases c with
    | addTask k task =>
      cases BlockQueue.turn_of_step hqueue with
      | addTask =>
        simp only [last, BlockQueue.returned_addTask]
        exact le_rfl
    | resume k =>
      cases BlockQueue.turn_of_step hqueue with
      | resumeAdd =>
        simp only [last, BlockQueue.returned_addTask]
        exact le_rfl
      | resumeGet hwoken =>
        have hclient : (p.queue.thread (.inr k)).call ≠ .getTask := h.sound.placed (.inr k)
        rw [hwoken] at hclient
        exact absurd rfl hclient
    | spurious k =>
      cases BlockQueue.turn_of_step hqueue with
      | spuriousFull | spuriousEmpty => exact le_rfl

/-! ## The destructor returns -/

omit [DecidableEq κ] in
/-- Each worker has six steps to take, and the owner one more. -/
theorem rank_le_of_joining {k : Nat} (howner : p.owner = .joining k) :
    p.rank ≤ 6 * p.threads.length + 1 := by
  have hweight (j : Nat) : p.weight j ≤ 5 := by
    have hrank (t : Worker τ) : t.rank ≤ 4 := by cases t <;> simp [Worker.rank]
    rw [weight]
    split
    · rename_i t _
      have := hrank t
      split <;> omega
    · exact Nat.zero_le _
  have hsum := Finset.sum_le_card_nsmul (Finset.range p.threads.length) (fun j => p.weight j) 5
    fun j _ => hweight j
  rw [Finset.card_range, smul_eq_mul] at hsum
  simp only [rank, ownerRank, howner]
  omega

omit [DecidableEq κ] in
/-- A worker works on one task, or on none. -/
theorem works_le (p : ThreadPool κ τ) (i : Nat) : p.works i ≤ 1 := by
  rw [works]
  cases p.threads[i]? with
  | none => exact Nat.zero_le _
  | some t => exact t.works_le

omit [DecidableEq κ] in
/-- A worker moves, and the others stay where they are. -/
theorem works_set (hthread : p.threads[i]? = some t) (hset : p'.threads = p.threads.set i u)
    {j n : Nat} (hown : j = i → u.works + n ≤ t.works) (hn : j ≠ i → n = 0) :
    p'.works j + n ≤ p.works j := by
  have hi := (List.getElem?_eq_some_iff.mp hthread).1
  by_cases hj : j = i
  · subst hj
    rw [works, works, hset, hthread, List.getElem?_set_self hi]
    exact hown rfl
  · rw [works, works, hset, List.getElem?_set_ne (Ne.symm hj), hn hj]
    exact le_rfl

/-- When `start_` is false, a worker that has run a task is not given another one. -/
theorem Winds.works_step (h : p.Winds) {a : Action κ τ} (hstep : p.step a = some p') (j : Nat) :
    p'.works j + (if a.ends j then 1 else 0) ≤ p.works j := by
  have hstops := h.stops hstep
  have hstart := h.joins.stopping (.inr hstops)
  cases stepped_of_step hstep with
  | start howner | startAgain howner | destroy howner =>
    rcases howner with ho | ho <;> simp [ho, Owner.stops] at hstops
  | create howner | count howner | endStart howner | stop howner =>
    simp [howner, Owner.stops] at hstops
  | joinFailed | endDestroy | resumeAdd | spurious | addTask | client => exact le_rfl
  | join howner hthread => exact works_set hthread rfl (fun _ => le_rfl) fun _ => rfl
  | test hthread =>
    refine works_set hthread rfl (fun _ => ?_) fun _ => rfl
    rw [hstart]
    exact le_rfl
  | getTask hthread hqueue =>
    exact works_set hthread rfl (fun _ => Worker.works_le _) fun _ => rfl
  | resume hthread hqueue =>
    exact works_set hthread rfl (fun _ => Worker.works_le _) fun _ => rfl
  | ret hthread hidle =>
    refine works_set hthread rfl (fun hj => ?_) fun hj => ?_
    · simp [Action.ends, hj, Worker.works]
    · simp [Action.ends, hj]
  | leave hthread => exact works_set hthread rfl (fun _ => le_rfl) fun _ => rfl

omit [DecidableEq κ] in
/-- Nothing is left of a pool whose destructor has returned. -/
theorem Winds.over (h : p.Winds) (howner : p.owner = .destroyed) :
    (∀ t ∈ p.threads, t = .joined) ∧ p.currentThreadNum = 0 ∧
      (p.queue.returned.filterMap id).Perm p.done := by
  have hall : ∀ t ∈ p.threads, t = .joined := by
    intro t ht
    obtain ⟨i, hi⟩ := List.mem_iff_getElem?.mp ht
    have hlt := (List.getElem?_eq_some_iff.mp hi).1
    have hjoined := (h.joins.joined (by simp [howner]) i).mpr (by rw [howner]; exact hlt)
    exact Option.some.inj (hi.symm.trans hjoined)
  refine ⟨hall, ?_, ?_⟩
  · have hnone : p.threads.countP Worker.stays = 0 :=
      List.countP_eq_zero.mpr fun t ht => by rw [hall t ht]; simp [Worker.stays]
    simpa [hnone, howner] using h.sound.count
  · have hnone : p.held = [] :=
      List.filterMap_eq_nil_iff.mpr fun t ht => by rw [hall t ht]; rfl
    simpa [hnone] using h.sound.tasks

/-- The destructor of a pool is over after a bounded number of steps of the pool's own threads,
whatever else happens, and until then one of them can always take a step: it returns, with every
worker joined and every task that was taken run to its end, or a worker could not be made and the
assertion of `join` has failed. Meanwhile at most one more task is taken for each worker, and each
worker ends one task at most: that which it runs when the queue is stopped, or one that it is given
behind that. -/
theorem destroyed_of_run {threadMaxSize : Nat} {taskMaxSize : UInt64} {as bs : List (Action κ τ)}
    {k : Nat} (h : Run step anyStep (new threadMaxSize taskMaxSize) as p)
    (howner : p.owner = .joining k) (hrest : Run step anyStep p bs p') :
    bs.countP Action.own ≤ 6 * p.threads.length + 1 ∧
      (p'.owner = .destroyed ∨ p'.owner = .aborted ∨
        ∃ a : Action κ τ, a.own = true ∧ (p'.step a).isSome) ∧
      (p'.owner = .aborted → .failed ∈ p'.threads) ∧
      (p'.owner = .destroyed → (∀ t ∈ p'.threads, t = .joined) ∧ p'.currentThreadNum = 0 ∧
        (p'.queue.returned.filterMap id).Perm p'.done) ∧
      p'.queue.returned.length ≤ p.queue.returned.length + p.threads.length ∧
      ∀ i, bs.countP (Action.ends i) + p'.works i ≤ 1 := by
  have hstops : p.owner.stops = true := by rw [howner]; rfl
  have hwinds : p.Winds := by
    obtain ⟨hsound, hjoins⟩ := h.invariant (I := fun p => p.Sound ∧ p.Joins)
      ⟨sound_new threadMaxSize taskMaxSize, joins_new threadMaxSize taskMaxSize⟩
      fun _ _ _ hp _ hstep => ⟨hp.1.step hstep, hp.2.step hstep⟩
    exact ⟨hsound, hjoins, .inl hstops⟩
  obtain ⟨hcount, hwinds'⟩ := hrest.countP_add_le (μ := rank) (p := Action.own) hwinds
    fun q a q' hq _ hstep => ⟨hq.step hstep, hq.rank_step hstep⟩
  obtain ⟨hlast, -⟩ := hrest.invariant (I := fun q => q.last ≤ p.last ∧ q.Winds)
    ⟨le_rfl, hwinds⟩ fun q a q' hq _ hstep =>
      ⟨(hq.2.last_step hstep).trans hq.1, hq.2.step hstep⟩
  refine ⟨?_, hwinds'.progress, fun habort => ?_, hwinds'.over, ?_, fun i => ?_⟩
  · have hbound := rank_le_of_joining howner
    omega
  · rcases hwinds'.ends with hs | he
    · simp [habort, Owner.stops] at hs
    · exact he.2
  · have hle : p.threads.countP Worker.fetches ≤ p.threads.length := List.countP_le_length
    simp only [last] at hlast
    omega
  · obtain ⟨hends, -⟩ := hrest.countP_add_le (μ := fun q => q.works i) (p := Action.ends i) hwinds
      fun q a q' hq _ hstep => ⟨hq.step hstep, hq.works_step hstep i⟩
    exact (Nat.le_trans hends (works_le p i))

/-- A pool is destroyed while one worker runs a task, another one waits, and tasks are queued. -/
def busyPool : List (Action Unit Nat) :=
  [.start, .create true, .count, .create true, .count, .endStart, .test 0, .getTask 0,
    .client (.addTask () (some 1)), .resume 0, .test 1, .client (.addTask () (some 2)),
    .client (.addTask () (some 3)), .destroy, .stop]

/-- The workers leave, and are joined. -/
def busyPoolLeaves : List (Action Unit Nat) :=
  [.getTask 1, .addTask 0 (some 4), .ret 0, .test 0, .leave 0, .join, .ret 1, .test 1, .leave 1,
    .join, .endDestroy]

/-- The pool ends with a task still in the queue. -/
theorem destroyed_of_run_busyPool :
    ∃ p p' : ThreadPool Unit Nat, Run step anyStep (new 2 100) busyPool p ∧
      Run step anyStep p busyPoolLeaves p' ∧ p'.owner = .destroyed ∧ p'.queue.taskQueue ≠ [] ∧
      busyPoolLeaves.countP Action.own ≤ 6 * p.threads.length + 1 ∧
      (∀ t ∈ p'.threads, t = .joined) ∧ p'.currentThreadNum = 0 ∧
      (p'.queue.returned.filterMap id).Perm p'.done ∧
      p'.queue.returned.length ≤ p.queue.returned.length + p.threads.length ∧
      busyPoolLeaves.countP (Action.ends 1) + p'.works 1 ≤ 1 := by
  have hrun : ∃ p : ThreadPool Unit Nat,
      replay step anyStep (new 2 100 : ThreadPool Unit Nat) busyPool = some p ∧
      p.owner = .joining 0 ∧ ∃ p', replay step anyStep p busyPoolLeaves = some p' ∧
        p'.owner = .destroyed ∧ p'.queue.taskQueue = [some 3] := by
    refine ⟨_, rfl, rfl, _, rfl, rfl, rfl⟩
  obtain ⟨p, hp, howner, p', hp', howner', hqueue⟩ := hrun
  obtain ⟨hcount, -, -, hover, hlast, hends⟩ := destroyed_of_run (.of_replay hp) howner
    (.of_replay hp')
  obtain ⟨hall, hnum, hdone⟩ := hover howner'
  exact ⟨p, p', .of_replay hp, .of_replay hp', howner', by simp [hqueue], hcount, hall, hnum, hdone,
    hlast, hends 1⟩

end ThreadPool

end ClearMoon.Base

import ClearMoon.Timer.Machine

/-!
# Who owns a timer

Every live timer is in exactly one place: in both sets of the queue, in the expired vector of the
batch in progress, or in a functor that is still to insert it. Each operation of the queue moves
timers between these places or deletes them, and the arena's books then give what is wanted: no
freed timer is followed, and every timer is deleted at most once.
-/

namespace ClearMoon.Timer

variable {κ : Type}

/-- The places of the live timers, given the expired vector `taken` of the batch in progress and
the timers `waiting` to be inserted. -/
structure Owned (q : TimerQueue κ) (taken : List Entry) (waiting : List Addr) : Prop where
  faultless : q.heap.faults = []
  address_lt : ∀ {a t}, q.heap.get? a = some t → a < uintptrMax
  /-- A key carries the current expiration of a live timer. -/
  key : ∀ {x a}, (⟨x, a⟩ : Entry) ∈ q.timers → ∃ t, q.heap.get? a = some t ∧ t.expiration = x
  /-- The two sets hold the same timers. -/
  active : ∀ {n a}, (⟨n, a⟩ : ActiveTimer) ∈ q.activeTimers ↔ ∃ t, q.heap.get? a = some t ∧
    t.sequence = n ∧ (⟨t.expiration, a⟩ : Entry) ∈ q.timers
  taken_live : ∀ {x a}, (⟨x, a⟩ : Entry) ∈ taken → ∃ t, q.heap.get? a = some t ∧
    t.expiration = x ∧ (⟨x, a⟩ : Entry) ∉ q.timers
  taken_nodup : (taken.map Entry.timer).Nodup
  waiting_live : ∀ {a}, a ∈ waiting → ∃ t, q.heap.get? a = some t ∧
    (⟨t.expiration, a⟩ : Entry) ∉ q.timers ∧ (∀ x, (⟨x, a⟩ : Entry) ∉ taken) ∧
    .inserted t.sequence ∉ q.log
  waiting_nodup : waiting.Nodup
  /-- There is no other place for a live timer. -/
  placed : ∀ {a t}, q.heap.get? a = some t → (⟨t.expiration, a⟩ : Entry) ∈ q.timers ∨
    (⟨t.expiration, a⟩ : Entry) ∈ taken ∨ a ∈ waiting
  inserted_lt : ∀ {n}, .inserted n ∈ q.log → n < q.heap.born
  /-- The id that `addTimer` returned points to its timer as long as that lives. -/
  created : ∀ {id}, .created id ∈ q.log → id.sequence < q.heap.born ∧
    ∀ {a t}, q.heap.get? a = some t → t.sequence = id.sequence → a = id.timer

namespace Owned

variable {q q' : TimerQueue κ} {taken taken' : List Entry} {waiting waiting' : List Addr}

/-- Whatever else changes, the places are as they were if the heap and the two sets are, and no
timer is created or inserted. -/
theorem frame (h : Owned q taken waiting) (hheap : q'.heap = q.heap)
    (htimers : q'.timers = q.timers) (hactive : q'.activeTimers = q.activeTimers)
    (hinserted : ∀ {n}, .inserted n ∈ q'.log ↔ .inserted n ∈ q.log)
    (hcreated : ∀ {id}, .created id ∈ q'.log ↔ .created id ∈ q.log) :
    Owned q' taken waiting := by
  obtain ⟨h1, h2, h3, h4, h5, h6, h7, h8, h9, h10, h11⟩ := h
  constructor <;> grind

/-- Only the order in which timers wait has changed. -/
theorem perm (h : Owned q taken waiting) (hp : waiting.Perm waiting') : Owned q taken waiting' :=
  { h with
    waiting_live := fun ha => h.waiting_live (hp.mem_iff.mpr ha)
    waiting_nodup := hp.nodup_iff.mp h.waiting_nodup
    placed := fun ha => (h.placed ha).imp id (Or.imp id hp.mem_iff.mp) }

/-- A new timer waits for its insertion. -/
theorem addTimer (h : Owned q taken waiting) (cb : κ) (when_ : Int) (interval : Interval)
    {a : Addr} (ha : q.heap.get? a = none) (hlt : a < uintptrMax) :
    Owned (q.addTimer cb when_ interval a ha).2 taken (a :: waiting) := by
  have hget := q.get?_addTimer cb when_ interval ha
  have hborn : (q.addTimer cb when_ interval a ha).2.heap.born = q.heap.born + 1 := rfl
  have hlog : (q.addTimer cb when_ interval a ha).2.log =
      q.log ++ [.created ⟨a, q.heap.born⟩] := rfl
  have htimers : (q.addTimer cb when_ interval a ha).2.timers = q.timers := rfl
  have hactive : (q.addTimer cb when_ interval a ha).2.activeTimers = q.activeTimers := rfl
  have hfaults : (q.addTimer cb when_ interval a ha).2.heap.faults = q.heap.faults := rfl
  have hseq : (Timer.create cb when_ interval q.heap.born).sequence = q.heap.born := rfl
  have hlt' := @Arena.serial_lt _ _ q.heap
  obtain ⟨h1, h2, h3, h4, h5, h6, h7, h8, h9, h10, h11⟩ := h
  constructor <;> grind [Arena.get?]

/-- Setting the timerfd moves no timer. -/
theorem resetTimerFd (h : Owned q taken waiting) (expiration now : Int) :
    Owned (q.resetTimerFd expiration now) taken waiting :=
  h.frame rfl rfl rfl (by simp [TimerQueue.resetTimerFd, TimerQueue.note])
    (by simp [TimerQueue.resetTimerFd, TimerQueue.note])

/-- A waiting timer is put into both sets. -/
theorem addTimerInLoop {a : Addr} (h : Owned q taken (a :: waiting)) (now : Int) :
    Owned (q.addTimerInLoop a now) taken waiting := by
  obtain ⟨t, ht, hout, hfree, hnew⟩ := h.waiting_live List.mem_cons_self
  have hinsert : Owned ((q.insert t a).note (.inserted t.sequence)) taken waiting := by
    have hlog : ((q.insert t a).note (.inserted t.sequence)).log =
        q.log ++ [.inserted t.sequence] := rfl
    have hheap : ((q.insert t a).note (.inserted t.sequence)).heap = q.heap := rfl
    have htimers (x : Int) (b : Addr) :
        (⟨x, b⟩ : Entry) ∈ ((q.insert t a).note (.inserted t.sequence)).timers ↔
          (t.expiration = x ∧ a = b) ∨ (⟨x, b⟩ : Entry) ∈ q.timers := by
      simp [TimerQueue.note, TimerQueue.insert]
    have hactive (n : Nat) (b : Addr) :
        (⟨n, b⟩ : ActiveTimer) ∈ ((q.insert t a).note (.inserted t.sequence)).activeTimers ↔
          (t.sequence = n ∧ a = b) ∨ (⟨n, b⟩ : ActiveTimer) ∈ q.activeTimers := by
      simp [TimerQueue.note, TimerQueue.insert]
    have hlt := @Arena.serial_lt _ _ q.heap
    have hinj := @Arena.serial_inj _ _ q.heap
    generalize (q.insert t a).note (.inserted t.sequence) = q' at *
    obtain ⟨h1, h2, h3, h4, h5, h6, h7, h8, h9, h10, h11⟩ := h
    constructor <;> grind [Arena.get?]
  rw [TimerQueue.addTimerInLoop, ht]
  dsimp only
  split
  · exact hinsert.resetTimerFd _ _
  · exact hinsert

/-- A timer is deleted, and taken out of whatever place it was in. -/
theorem remove {a : Addr} {t : Timer κ} (h : Owned q taken waiting) (ht : q.heap.get? a = some t)
    (hheap : q'.heap = q.heap.free a) (hlog : q'.log = q.log)
    (htimers : ∀ x b, (⟨x, b⟩ : Entry) ∈ q'.timers ↔ (⟨x, b⟩ : Entry) ∈ q.timers ∧ a ≠ b)
    (hactive : ∀ n b, (⟨n, b⟩ : ActiveTimer) ∈ q'.activeTimers ↔
      (⟨n, b⟩ : ActiveTimer) ∈ q.activeTimers ∧ a ≠ b)
    (htaken : ∀ x b, (⟨x, b⟩ : Entry) ∈ taken' ↔ (⟨x, b⟩ : Entry) ∈ taken ∧ a ≠ b)
    (hnodup : (taken'.map Entry.timer).Nodup) (hwaiting : a ∉ waiting) :
    Owned q' taken' waiting := by
  have hget (b : Addr) : q'.heap.get? b = if a = b then none else q.heap.get? b := by
    rw [hheap]
    exact Arena.get?_free
  have hborn : q'.heap.born = q.heap.born := by
    rw [hheap]
    exact Arena.born_free
  have hfaults : q'.heap.faults = q.heap.faults := by
    rw [hheap]
    exact Arena.faults_free ht
  clear hheap
  obtain ⟨h1, h2, h3, h4, h5, h6, h7, h8, h9, h10, h11⟩ := h
  constructor <;> grind

/-- A timer in both sets is taken out of them and deleted; of all others nothing changes. -/
theorem cancelInLoop (h : Owned q taken waiting) (id : TimerId) :
    Owned (q.cancelInLoop id) taken waiting := by
  have hnote : Owned (q.note (.cancelled id)) taken waiting :=
    h.frame rfl rfl rfl (by simp [TimerQueue.note]) (by simp [TimerQueue.note])
  rw [TimerQueue.cancelInLoop]
  generalize q.note (.cancelled id) = q at *
  split
  · rename_i hmem
    obtain ⟨t, ht, hseq, hin⟩ := hnote.active.mp hmem
    rw [ht]
    dsimp only
    have hkey := @hnote.key
    have hactive := @hnote.active
    have htaken := @hnote.taken_live
    have hwaiting := @hnote.waiting_live
    refine hnote.remove (a := id.timer) ht rfl rfl ?_ ?_ ?_ hnote.taken_nodup ?_
    · intro x b
      simp only [TimerQueue.delete, Std.ExtTreeSet.mem_erase, ne_eq,
        Std.LawfulEqOrd.compare_eq_iff_eq, Entry.mk.injEq]
      grind
    · intro n b
      simp only [TimerQueue.delete, Std.ExtTreeSet.mem_erase, ne_eq,
        Std.LawfulEqOrd.compare_eq_iff_eq, ActiveTimer.mk.injEq]
      grind
    · grind
    · grind
  · split
    · exact hnote.frame rfl rfl rfl .rfl .rfl
    · exact hnote

/-! ## Batches -/

/-- The loop of `getExpired` takes its entries out of `activeTimers_` and changes nothing else. -/
theorem foldl_deactivate (es : List Entry) (hlive : ∀ e ∈ es, ∃ t, q.heap.get? e.timer = some t) :
    (es.foldl TimerQueue.deactivate q).heap = q.heap ∧
      (es.foldl TimerQueue.deactivate q).timers = q.timers ∧
      (es.foldl TimerQueue.deactivate q).log = q.log ∧
      ∀ n a, (⟨n, a⟩ : ActiveTimer) ∈ (es.foldl TimerQueue.deactivate q).activeTimers ↔
        (⟨n, a⟩ : ActiveTimer) ∈ q.activeTimers ∧
          ∀ x t, (⟨x, a⟩ : Entry) ∈ es → q.heap.get? a = some t → t.sequence ≠ n := by
  induction es generalizing q with
  | nil => simp
  | cons e es ih =>
    obtain ⟨t, ht⟩ := hlive e List.mem_cons_self
    have hone : q.deactivate e =
        { q with activeTimers := q.activeTimers.erase ⟨t.sequence, e.timer⟩ } := by
      rw [TimerQueue.deactivate, ht]
    obtain ⟨hheap, htimers, hlog, hactive⟩ := ih (q := q.deactivate e) (by
      rw [hone]
      exact fun f hf => hlive f (List.mem_cons_of_mem _ hf))
    rw [List.foldl_cons]
    refine ⟨by rw [hheap, hone], by rw [htimers, hone], by rw [hlog, hone], fun n a => ?_⟩
    rw [hactive, hone]
    obtain ⟨x, b⟩ := e
    simp only [Std.ExtTreeSet.mem_erase, ne_eq, Std.LawfulEqOrd.compare_eq_iff_eq,
      ActiveTimer.mk.injEq]
    grind

/-- Taking a list of entries out of a set of entries. -/
theorem mem_foldl_erase (es : List Entry) (s : Std.ExtTreeSet Entry) (e : Entry) :
    e ∈ es.foldl (fun s e => s.erase e) s ↔ e ∈ s ∧ e ∉ es := by
  induction es generalizing s with
  | nil => simp
  | cons f es ih =>
    rw [List.foldl_cons, ih, Std.ExtTreeSet.mem_erase]
    simp only [ne_eq, Std.LawfulEqOrd.compare_eq_iff_eq, List.mem_cons]
    grind

/-- An expired entry is an entry of the set. -/
theorem mem_of_mem_expiredEntries {now : Int} {e : Entry} (he : e ∈ q.expiredEntries now) :
    e ∈ q.timers :=
  Std.ExtTreeSet.mem_toList.mp (List.takeWhile_sublist _ |>.mem he)

/-- No timer is in the expired vector twice. -/
theorem nodup_expiredEntries (h : Owned q taken waiting) (now : Int) :
    ((q.expiredEntries now).map Entry.timer).Nodup := by
  have hdistinct : (q.expiredEntries now).Nodup := by
    refine List.Nodup.sublist (List.takeWhile_sublist _) ?_
    refine Std.ExtTreeSet.ordered_toList.imp fun hlt he => ?_
    simp [he] at hlt
  refine List.Nodup.map_on ?_ hdistinct
  rintro ⟨x, a⟩ he ⟨y, b⟩ hf hab
  obtain ⟨t, ht, hx⟩ := h.key (mem_of_mem_expiredEntries he)
  obtain ⟨u, hu, hy⟩ := h.key (mem_of_mem_expiredEntries hf)
  grind

/-- The expired timers move from the two sets to the vector. -/
theorem getExpired (h : Owned q [] waiting) (now : Int) :
    Owned (q.getExpired now).2 (q.getExpired now).1 waiting := by
  have hnodup := h.nodup_expiredEntries now
  have hmem (e : Entry) (he : e ∈ q.expiredEntries now) : e ∈ q.timers :=
    mem_of_mem_expiredEntries he
  obtain ⟨hheap, htimers₀, hlog, hactive⟩ := foldl_deactivate (q := q) (q.expiredEntries now) (by
    rintro ⟨x, a⟩ he
    obtain ⟨t, ht, -⟩ := h.key (hmem _ he)
    exact ⟨t, ht⟩)
  have htimers (e : Entry) : e ∈ (q.getExpired now).2.timers ↔
      e ∈ q.timers ∧ e ∉ q.expiredEntries now := by
    rw [← htimers₀]
    exact mem_foldl_erase _ _ _
  change (q.getExpired now).2.heap = _ at hheap
  change (q.getExpired now).2.log = _ at hlog
  change ∀ n a, _ ∈ (q.getExpired now).2.activeTimers ↔ _ at hactive
  have hfst : (q.getExpired now).1 = q.expiredEntries now := rfl
  rw [hfst]
  generalize (q.getExpired now).2 = q' at *
  obtain ⟨h1, h2, h3, h4, h5, h6, h7, h8, h9, h10, h11⟩ := h
  constructor <;> grind

/-- The batch takes over the timers that it takes out of the set. -/
theorem beginBatch (h : Owned q [] waiting) (now : Int) :
    Owned (q.beginBatch now).2 (q.beginBatch now).1 waiting :=
  getExpired (q := { q with timerfd := q.timerfd.read, handleTimer := true })
    (h.frame rfl rfl rfl .rfl .rfl) now

/-- Starting a callback follows a live timer and moves none. -/
theorem runEntry {e : Entry} (h : Owned q taken waiting) (he : e ∈ taken) :
    Owned (q.runEntry e).2 taken waiting := by
  obtain ⟨t, ht, -⟩ := h.taken_live he
  rw [TimerQueue.runEntry, ht]
  dsimp only
  split
  · exact h
  · exact h.frame rfl rfl rfl (by simp [TimerQueue.note]) (by simp [TimerQueue.note])

/-- A timer of the vector is put back under its new expiration. -/
theorem putBack {e : Entry} {t : Timer κ} (h : Owned q (e :: taken) waiting)
    (ht : q.heap.get? e.timer = some t) (now : Int) :
    Owned (q.putBack e.timer t ht now) taken waiting := by
  have hget (b : Addr) : (q.putBack e.timer t ht now).heap.get? b =
      if e.timer = b then some (t.restart now) else q.heap.get? b :=
    Arena.get?_set ht (t.sequence_restart now)
  have hborn : (q.putBack e.timer t ht now).heap.born = q.heap.born := rfl
  have hfaults : (q.putBack e.timer t ht now).heap.faults = q.heap.faults := rfl
  have hlog : (q.putBack e.timer t ht now).log = q.log := rfl
  have htimers (x : Int) (b : Addr) : (⟨x, b⟩ : Entry) ∈ (q.putBack e.timer t ht now).timers ↔
      ((t.restart now).expiration = x ∧ e.timer = b) ∨ (⟨x, b⟩ : Entry) ∈ q.timers := by
    simp [TimerQueue.putBack, TimerQueue.insert]
  have hactive (n : Nat) (b : Addr) :
      (⟨n, b⟩ : ActiveTimer) ∈ (q.putBack e.timer t ht now).activeTimers ↔
        (t.sequence = n ∧ e.timer = b) ∨ (⟨n, b⟩ : ActiveTimer) ∈ q.activeTimers := by
    simp [TimerQueue.putBack, TimerQueue.insert]
  have hseq := t.sequence_restart now
  generalize q.putBack e.timer t ht now = q' at *
  obtain ⟨x, a⟩ := e
  obtain ⟨hhead, hnodup⟩ := List.nodup_cons.mp h.taken_nodup
  obtain ⟨h1, h2, h3, h4, h5, h6, h7, h8, h9, h10, h11⟩ := h
  constructor
  · grind
  · grind
  · grind
  · grind
  · grind
  · grind
  · grind
  · grind
  · grind
  · grind
  · grind

/-- The loop of `reset` deletes the first timer of the vector or puts it back. -/
theorem resetEntry {e : Entry} (h : Owned q (e :: taken) waiting) (now : Int) :
    Owned (TimerQueue.resetEntry now q e) taken waiting := by
  obtain ⟨t, ht, hexp, hout⟩ := h.taken_live List.mem_cons_self
  obtain ⟨hhead, hnodup⟩ := List.nodup_cons.mp h.taken_nodup
  have hdelete : Owned (q.delete e.timer) taken waiting := by
    have hkey := @h.key
    have hactive := @h.active
    have hwaiting := @h.waiting_live
    refine h.remove ht rfl rfl ?_ ?_ ?_ hnodup ?_
    · grind [TimerQueue.delete]
    · grind [TimerQueue.delete]
    · grind
    · grind
  rw [TimerQueue.resetEntry]
  split
  · rename_i hnone
    rw [ht] at hnone
    contradiction
  · rename_i t' ht'
    split
    · exact hdelete
    · split
      · exact hdelete
      · split
        · exact h.putBack ht' now
        · exact hdelete

/-- The end of a batch empties the vector. -/
theorem endBatch (h : Owned q taken waiting) (now clock : Int) :
    Owned (q.endBatch taken now clock) [] waiting := by
  have hfold (es : List Entry) (q : TimerQueue κ) (h : Owned q es waiting) :
      Owned (es.foldl (TimerQueue.resetEntry now) q) [] waiting := by
    induction es generalizing q with
    | nil => exact h
    | cons e es ih => exact ih _ (h.resetEntry now)
  have hreset : Owned ({ q with handleTimer := false }.reset taken now clock) [] waiting := by
    have := hfold taken { q with handleTimer := false } (h.frame rfl rfl rfl .rfl .rfl)
    rw [TimerQueue.reset]
    split
    · exact this
    · exact this.resetTimerFd _ _
  exact hreset.frame rfl rfl rfl .rfl .rfl

end Owned

/-! ## Runs -/

/-- What holds in every state of a run. -/
structure TimerLoop.Inv (s : TimerLoop κ) : Prop where
  owned : Owned s.queue s.expired s.queued
  handle : s.queue.handleTimer = s.batch.isSome
  rest_suffix : s.rest <:+ s.expired

namespace TimerLoop

variable {s s' : TimerLoop κ} {a : Action κ}

/-- A new queue owns nothing. -/
theorem inv_init (clock : Int) : Inv ({ clock } : TimerLoop κ) where
  owned := by
    constructor <;> simp [Arena.empty, Arena.get?, expired, queued]
  handle := rfl
  rest_suffix := List.suffix_rfl

/-- Every step keeps the invariant. -/
theorem Inv.moves (h : s.Inv) (hm : s.Moves a s') : s'.Inv := by
  cases hm with
  | addTimer ha hu =>
    refine ⟨(h.owned.addTimer _ _ _ ha.free ha.lt).addTimerInLoop _, ?_, h.rest_suffix⟩
    simpa using h.handle
  | cancel hu =>
    refine ⟨h.owned.cancelInLoop _, ?_, h.rest_suffix⟩
    simpa using h.handle
  | addTimerElsewhere ha =>
    refine ⟨?_, h.handle, h.rest_suffix⟩
    change Owned _ s.expired ((s.pendingFunc ++ [_]).filterMap Functor.timer?)
    rw [List.filterMap_append]
    exact (h.owned.addTimer _ _ _ ha.free ha.lt).perm (List.perm_append_singleton _ _).symm
  | cancelElsewhere =>
    refine ⟨?_, h.handle, h.rest_suffix⟩
    change Owned _ s.expired ((s.pendingFunc ++ [_]).filterMap Functor.timer?)
    rw [List.filterMap_append]
    exact (List.append_nil s.queued).symm ▸ h.owned
  | @runFunctor f fs hb hf =>
    have howned := h.owned
    have hhandle := h.handle
    cases f with
    | addTimerInLoop timer =>
      rw [queued, hf] at howned
      refine ⟨howned.addTimerInLoop _, ?_, h.rest_suffix⟩
      simpa [runFunctor] using hhandle
    | cancelInLoop id =>
      rw [queued, hf] at howned
      refine ⟨howned.cancelInLoop _, ?_, h.rest_suffix⟩
      simpa [runFunctor] using hhandle
  | handleRead hb =>
    have howned := h.owned
    rw [expired, hb] at howned
    exact ⟨howned.beginBatch _, by simp, List.suffix_rfl⟩
  | @nextEntry now es e rest hb =>
    have howned := h.owned
    have hhandle := h.handle
    have hsuffix := h.rest_suffix
    simp only [expired, TimerLoop.rest, hb] at howned hsuffix
    refine ⟨howned.runEntry (hsuffix.subset List.mem_cons_self), ?_,
      (List.suffix_cons e rest).trans hsuffix⟩
    simpa [hb] using hhandle
  | callbackReturns hb =>
    have howned := h.owned
    have hsuffix := h.rest_suffix
    have hhandle := h.handle
    simp only [expired, TimerLoop.rest, hb] at howned hsuffix
    exact ⟨howned, by simpa [hb] using hhandle, hsuffix⟩
  | endBatch hb =>
    have howned := h.owned
    rw [expired, hb] at howned
    exact ⟨howned.endBatch _ _, by simp, List.suffix_rfl⟩
  | tick => exact ⟨h.owned.frame rfl rfl rfl .rfl .rfl, h.handle, h.rest_suffix⟩

/-- The sets, the cells and the batch agree in every state of every run. -/
theorem inv_of_run {clock : Int} {as : List (Action κ)}
    (h : Run step anyStep { clock } as s) : s.Inv :=
  h.invariant (inv_init clock) fun _ _ _ hs _ hstep => hs.moves (moves_of_step hstep)

/-- What the books say in a state: the two sets agree, the keys are current, every timer that was
ever inserted is in exactly one place or was deleted exactly once, and no pointer to a deleted
timer was followed. -/
structure Sound (s : TimerLoop κ) : Prop where
  same_timers : ∀ a, (∃ x, (⟨x, a⟩ : Entry) ∈ s.queue.timers) ↔
    ∃ n, (⟨n, a⟩ : ActiveTimer) ∈ s.queue.activeTimers
  keys_current : ∀ e ∈ s.queue.timers, ∃ t, s.queue.heap.get? e.timer = some t ∧
    t.expiration = e.expiration
  inserted_once : ∀ n, .inserted n ∈ s.queue.log →
    (s.queue.heap.freed.count n = 0 ∧ ∃ a t, s.queue.heap.get? a = some t ∧ t.sequence = n ∧
      (((⟨t.expiration, a⟩ : Entry) ∈ s.queue.timers ∧
          (⟨n, a⟩ : ActiveTimer) ∈ s.queue.activeTimers ∧ ⟨t.expiration, a⟩ ∉ s.expired) ∨
        ((⟨t.expiration, a⟩ : Entry) ∉ s.queue.timers ∧
          (⟨n, a⟩ : ActiveTimer) ∉ s.queue.activeTimers ∧ ⟨t.expiration, a⟩ ∈ s.expired))) ∨
    (s.queue.heap.freed.count n = 1 ∧ ∀ a t, s.queue.heap.get? a = some t → t.sequence ≠ n)
  no_dangling : s.queue.heap.faults = []

/-- The invariant and the arena's books give what was wanted. -/
theorem Inv.sound (h : s.Inv) : s.Sound where
  same_timers a := by
    constructor
    · rintro ⟨x, hx⟩
      obtain ⟨t, ht, rfl⟩ := h.owned.key hx
      exact ⟨t.sequence, h.owned.active.mpr ⟨t, ht, rfl, hx⟩⟩
    · rintro ⟨n, hn⟩
      obtain ⟨t, -, -, hin⟩ := h.owned.active.mp hn
      exact ⟨_, hin⟩
  keys_current e he := h.owned.key he
  inserted_once n hn := by
    have hactive := @h.owned.active
    rcases s.queue.heap.count_freed (h.owned.inserted_lt hn) with ⟨hcount, a, t, ht, hseq⟩ | hdead
    · refine .inl ⟨hcount, a, t, ht, hseq, ?_⟩
      have htaken := @h.owned.taken_live
      rcases h.owned.placed ht with hin | hin | hin
      · left
        grind
      · right
        grind
      · obtain ⟨t', ht', -, -, hnew⟩ := h.owned.waiting_live hin
        grind
    · exact .inr hdead
  no_dangling := h.owned.faultless

/-- In every state of every run the books are in order. -/
theorem sound_of_run {clock : Int} {as : List (Action κ)} (h : Run step anyStep { clock } as s) :
    s.Sound :=
  (inv_of_run h).sound

/-- A callback that cancels its own repeating timer, and a timer of the same batch. -/
def cancelInCallback : List (Action Unit) :=
  [.addTimer () 10 ⟨true, 5, by decide⟩ 1, .addTimer () 10 .zero 2, .tick 200, .handleRead,
    .nextEntry, .cancel ⟨1, 0⟩, .cancel ⟨2, 1⟩, .callbackReturns, .nextEntry, .callbackReturns,
    .endBatch]

/-- A timer cancelled in a callback of its own batch is deleted once. -/
theorem sound_of_run_cancelInCallback :
    ∃ s : TimerLoop Unit, Run step anyStep { clock := 0 } cancelInCallback s ∧ s.Sound := by
  obtain ⟨s, hs⟩ := Option.isSome_iff_exists.mp
    (show (replay step anyStep { clock := 0 } cancelInCallback).isSome by decide +kernel)
  exact ⟨s, .of_replay hs, sound_of_run (.of_replay hs)⟩

end TimerLoop

end ClearMoon.Timer

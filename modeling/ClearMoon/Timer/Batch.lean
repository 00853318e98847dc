import ClearMoon.Timer.Armed
import ClearMoon.Timer.Cancel

/-!
# What a batch runs and leaves

`getExpired` cuts the ordered set at a sentry with the greatest address, so that a timer that
expires now is taken with the earlier ones. The callbacks may insert timers while the vector is
worked through, and the repeating timers of the vector come back at its end. As long as no callback
cancels, the timers of the vector live through the batch and each of them is started once.
-/

namespace ClearMoon.Timer

variable {κ : Type}

/-! ## The cut -/

/-- In a list sorted by a relation that a predicate descends along, the elements in front are those
that satisfy it. -/
theorem mem_takeWhile_iff {α : Type*} {r : α → α → Prop} {p : α → Bool} {l : List α}
    (hl : l.Pairwise r) (hp : ∀ x y, r x y → p y = true → p x = true) (x : α) :
    x ∈ l.takeWhile p ↔ x ∈ l ∧ p x = true := by
  induction l with
  | nil => simp
  | cons a l ih =>
    obtain ⟨ha, hl⟩ := List.pairwise_cons.mp hl
    rw [List.takeWhile_cons]
    split
    · rename_i hpa
      rw [List.mem_cons, List.mem_cons, ih hl]
      constructor
      · rintro (rfl | ⟨hx, hpx⟩)
        · exact ⟨.inl rfl, hpa⟩
        · exact ⟨.inr hx, hpx⟩
      · rintro ⟨rfl | hx, hpx⟩
        · exact .inl rfl
        · exact .inr ⟨hx, hpx⟩
    · rename_i hpa
      refine iff_of_false List.not_mem_nil ?_
      rintro ⟨hx, hpx⟩
      rcases List.mem_cons.mp hx with rfl | hx
      · exact hpa hpx
      · exact hpa (hp a x (ha x hx) hpx)

/-- The order of entries. -/
theorem Entry.compare_eq_lt {e f : Entry} : compare e f = .lt ↔
    e.expiration < f.expiration ∨ e.expiration = f.expiration ∧ e.timer < f.timer := by
  rw [Entry.compare_eq, Ordering.then_eq_lt, compare_lt_iff_lt, compare_eq_iff_eq,
    compare_lt_iff_lt]

namespace TimerQueue

variable {q : TimerQueue κ} {taken : List Entry} {waiting : List Addr} {now clock : Int}

/-- The sentry stands behind every timer that expires now: its address is greater than theirs. -/
theorem mem_expiredEntries (h : Owned q taken waiting) (now : Int) (e : Entry) :
    e ∈ q.expiredEntries now ↔ e ∈ q.timers ∧ e.expiration ≤ now := by
  rw [expiredEntries, mem_takeWhile_iff Std.ExtTreeSet.ordered_toList, Std.ExtTreeSet.mem_toList]
  · rw [decide_eq_true_eq, Entry.compare_eq_lt]
    constructor
    · rintro ⟨he, hlt⟩
      exact ⟨he, by rcases hlt with hlt | ⟨heq, -⟩ <;> dsimp only at * <;> omega⟩
    · rintro ⟨he, hle⟩
      obtain ⟨t, ht, -⟩ := h.key (x := e.expiration) (a := e.timer) he
      have hlt : e.timer < uintptrMax := h.address_lt ht
      refine ⟨he, ?_⟩
      rcases lt_or_eq_of_le hle with hle | heq
      · exact .inl hle
      · exact .inr ⟨heq, hlt⟩
  · intro x y hxy hy
    rw [decide_eq_true_eq] at hy ⊢
    exact Std.TransCmp.lt_trans hxy hy

/-- The earlier timers come first. -/
theorem pairwise_expiredEntries (q : TimerQueue κ) (now : Int) :
    (q.expiredEntries now).Pairwise fun e f => e.expiration ≤ f.expiration := by
  refine List.Pairwise.sublist (List.takeWhile_sublist _) ?_
  refine Std.ExtTreeSet.ordered_toList.imp fun {e f} hlt => ?_
  rcases Entry.compare_eq_lt.mp hlt with hlt | ⟨heq, -⟩
  · exact hlt.le
  · exact heq.le

/-! ## The end of a batch -/

/-- The sets behind one entry of the loop of `reset`, when nothing has been cancelled. -/
theorem resetEntry_spec {e : Entry} {t : Timer κ} (ht : q.heap.get? e.timer = some t)
    (hnone : q.cancelligTimer = ∅) (hlive : t.cancelled = false) :
    (∀ f, f ∈ (resetEntry now q e).timers ↔ f ∈ q.timers ∨
      t.repeat_ = true ∧ f = ⟨now + t.interval.micros, e.timer⟩) ∧
    (∀ a, a ≠ e.timer → (resetEntry now q e).heap.get? a = q.heap.get? a) ∧
    (resetEntry now q e).cancelligTimer = ∅ := by
  rw [resetEntry]
  split
  · rename_i hn
    rw [ht] at hn
    contradiction
  rename_i t' ht'
  obtain rfl : t = t' := Option.some.inj (ht.symm.trans ht')
  rw [if_neg (by rw [hnone]; exact Std.ExtTreeSet.not_mem_empty), if_neg (by rw [hlive]; simp)]
  split
  · rename_i hrepeat
    refine ⟨fun f => ?_, fun a ha => ?_, hnone⟩
    · rw [putBack, insert]
      dsimp only
      rw [Std.ExtTreeSet.mem_insert, Std.LawfulEqOrd.compare_eq_iff_eq, Timer.restart,
        if_pos hrepeat]
      constructor
      · rintro (rfl | hf)
        · exact .inr ⟨hrepeat, rfl⟩
        · exact .inl hf
      · rintro (hf | ⟨-, rfl⟩)
        · exact .inr hf
        · exact .inl rfl
    · rw [putBack, insert]
      dsimp only
      rw [Arena.get?_set, if_neg (Ne.symm ha)]
  · rename_i hrepeat
    refine ⟨fun f => ?_, fun a ha => ?_, hnone⟩
    · exact ⟨.inl, fun h => h.resolve_right fun h => hrepeat h.1⟩
    · rw [delete]
      dsimp only
      rw [Arena.get?_free, if_neg (Ne.symm ha)]

/-- The whole loop: the repeating timers of the vector are put back under the time of the batch. -/
theorem timers_foldl_resetEntry {es : List Entry} (hnodup : (es.map Entry.timer).Nodup)
    (hlive : ∀ e ∈ es, ∃ t, q.heap.get? e.timer = some t ∧ t.cancelled = false)
    (hnone : q.cancelligTimer = ∅) (f : Entry) :
    f ∈ (es.foldl (resetEntry now) q).timers ↔ f ∈ q.timers ∨ ∃ e ∈ es, ∃ t,
      q.heap.get? e.timer = some t ∧ t.repeat_ = true ∧
        f = ⟨now + t.interval.micros, e.timer⟩ := by
  induction es generalizing q with
  | nil => simp
  | cons e es ih =>
    obtain ⟨t, ht, hcancelled⟩ := hlive e List.mem_cons_self
    obtain ⟨htimers, hget, hnone'⟩ := @resetEntry_spec _ _ now _ _ ht hnone hcancelled
    rw [List.map_cons, List.nodup_cons] at hnodup
    -- the other timers of the vector stand elsewhere
    have hother : ∀ g ∈ es, (resetEntry now q e).heap.get? g.timer = q.heap.get? g.timer :=
      fun g hg => hget _ fun he => hnodup.1 (he ▸ List.mem_map_of_mem hg)
    rw [List.foldl_cons, ih hnodup.2 ?_ hnone', htimers]
    · constructor
      · rintro ((hf | ⟨hrepeat, rfl⟩) | ⟨g, hg, u, hu, hrepeat, rfl⟩)
        · exact .inl hf
        · exact .inr ⟨e, List.mem_cons_self, t, ht, hrepeat, rfl⟩
        · exact .inr ⟨g, List.mem_cons_of_mem _ hg, u, hother g hg ▸ hu, hrepeat, rfl⟩
      · rintro (hf | ⟨g, hg, u, hu, hrepeat, rfl⟩)
        · exact .inl (.inl hf)
        · rcases List.mem_cons.mp hg with rfl | hg
          · obtain rfl := Option.some.inj (ht.symm.trans hu)
            exact .inl (.inr ⟨hrepeat, rfl⟩)
          · exact .inr ⟨g, hg, u, (hother g hg).symm ▸ hu, hrepeat, rfl⟩
    · intro g hg
      rw [hother g hg]
      exact hlive g (List.mem_cons_of_mem _ hg)

end TimerQueue

/-! ## What is started and inserted -/

/-- The timers whose callbacks were started, in order. -/
def startedIn (log : List TimerEvent) : List Nat :=
  log.filterMap fun
    | .started n => some n
    | _ => none

/-- Callbacks started are read off the log piece by piece. -/
theorem startedIn_append (log log' : List TimerEvent) :
    startedIn (log ++ log') = startedIn log ++ startedIn log' :=
  List.filterMap_append

/-- Events that start nothing. -/
theorem startedIn_quiet {es : List TimerEvent} (h : ∀ e ∈ es, e.Quiet) : startedIn es = [] := by
  rw [startedIn, List.filterMap_eq_nil_iff]
  intro e he
  cases e with
  | started n => exact absurd rfl ((h _ he).2 n)
  | _ => rfl

/-- What these steps ask the queue to insert while a callback runs. -/
def addedBy (as : List (Action κ)) : List Entry :=
  as.filterMap fun
    | .addTimer _ when_ _ timer => some ⟨when_, timer⟩
    | _ => none

/-- The timers these steps make: the time and the interval each is made for, by sequence number. -/
def madeBy (as : List (Action κ)) : List (Int × Interval) :=
  as.filterMap fun
    | .addTimer _ when_ interval _ => some (when_, interval)
    | .addTimerElsewhere _ when_ interval _ => some (when_, interval)
    | _ => none

namespace TimerQueue

variable {q : TimerQueue κ} {a : Addr}

/-- Inserting a timer starts nothing, and cancels nothing. -/
theorem addTimerInLoop_spec (q : TimerQueue κ) (timer : Addr) (now : Int) :
    startedIn (q.addTimerInLoop timer now).log = startedIn q.log ∧
      (q.addTimerInLoop timer now).cancelligTimer = q.cancelligTimer ∧
      (q.addTimerInLoop timer now).heap.born = q.heap.born ∧
      ∀ a, (q.addTimerInLoop timer now).heap.get? a = q.heap.get? a := by
  obtain ⟨hget, hcancelling, es, hlog, hquiet⟩ := q.addTimerInLoop_frame timer now
  refine ⟨?_, hcancelling, ?_, hget⟩
  · rw [hlog, startedIn_append, startedIn_quiet hquiet, List.append_nil]
  · rw [addTimerInLoop]
    split
    · rfl
    · dsimp only
      split <;> rfl

/-- Making a timer and inserting it puts one entry into the set. -/
theorem mem_timers_add {cb : κ} {when_ now : Int} {interval : Interval}
    (h : q.heap.get? a = none) (e : Entry) :
    e ∈ (q.add cb when_ interval a h now).timers ↔ e = ⟨when_, a⟩ ∨ e ∈ q.timers := by
  have hget := q.get?_addTimer cb when_ interval h a
  rw [if_pos rfl] at hget
  have hinsert : e ∈ q.timers.insert ⟨when_, a⟩ ↔ e = ⟨when_, a⟩ ∨ e ∈ q.timers := by
    rw [Std.ExtTreeSet.mem_insert, Std.LawfulEqOrd.compare_eq_iff_eq, eq_comm]
  rw [add, addTimerInLoop, hget]
  dsimp only
  split
  · exact hinsert
  · exact hinsert

/-- A cancellation starts nothing and keeps what it does not delete. -/
theorem startedIn_cancelInLoop (q : TimerQueue κ) (id : TimerId) :
    startedIn (q.cancelInLoop id).log = startedIn q.log := by
  rw [(cancelInLoop_frame q id).2.2, startedIn_append]
  exact List.append_nil _

/-- No number is given out by a cancellation. -/
theorem born_cancelInLoop (q : TimerQueue κ) (id : TimerId) :
    (q.cancelInLoop id).heap.born = q.heap.born := by
  rw [cancelInLoop]
  split
  · split
    · rfl
    · exact Arena.born_free
  · split <;> rfl

/-- Taking out the expired timers leaves the heap as it is. -/
theorem heap_beginBatch {waiting : List Addr} (h : Owned q [] waiting) (now : Int) :
    (q.beginBatch now).2.heap = q.heap := by
  refine (Owned.foldl_deactivate (q := { q with timerfd := q.timerfd.read, handleTimer := true })
    _ ?_).1
  rintro ⟨x, b⟩ he
  obtain ⟨t, ht, -⟩ := h.key (Owned.mem_of_mem_expiredEntries (q := q) he)
  exact ⟨t, ht⟩

/-- The loop of `reset` makes no timer, and changes neither the number of one nor whether it
repeats. -/
theorem foldl_resetEntry_heap (es : List Entry) (now : Int) (q : TimerQueue κ) :
    (es.foldl (resetEntry now) q).heap.born = q.heap.born ∧
      ∀ a t, (es.foldl (resetEntry now) q).heap.get? a = some t → ∃ u,
        q.heap.get? a = some u ∧ u.sequence = t.sequence ∧ u.repeat_ = t.repeat_ := by
  induction es generalizing q with
  | nil => exact ⟨rfl, fun a t ht => ⟨t, ht, rfl, rfl⟩⟩
  | cons e es ih =>
    obtain ⟨hborn, hheap⟩ := ih (resetEntry now q e)
    refine ⟨hborn.trans (born_resetEntry now e), fun a t ht => ?_⟩
    obtain ⟨u, hu, hseq, hrepeat⟩ := hheap a t ht
    obtain ⟨v, hv, -, hrepeat', -, hseq'⟩ := get?_resetEntry hu
    exact ⟨v, hv, hseq'.symm.trans hseq, hrepeat'.symm.trans hrepeat⟩

/-- A timer that does not repeat does not outlive the loop of `reset`. -/
theorem oneShot_foldl_resetEntry {es : List Entry} {now : Int} {t : Timer κ}
    (h : (es.foldl (resetEntry now) q).heap.get? a = some t) (hone : t.repeat_ = false) :
    a ∉ es.map Entry.timer ∧ q.heap.get? a = some t := by
  induction es generalizing q with
  | nil => exact ⟨List.not_mem_nil, h⟩
  | cons e es ih =>
    obtain ⟨hout, hmid⟩ := ih h
    have hstep : e.timer ≠ a ∧ q.heap.get? a = some t := by
      have hdelete (h : (q.delete e.timer).heap.get? a = some t) :
          e.timer ≠ a ∧ q.heap.get? a = some t := by
        rw [delete, Arena.get?_free] at h
        split at h
        · contradiction
        · rename_i hne
          exact ⟨hne, h⟩
      rw [resetEntry] at hmid
      split at hmid
      · rename_i hnone
        refine ⟨?_, hmid⟩
        rintro rfl
        rw [dangling, Arena.get?_fault, hnone] at hmid
        contradiction
      · split at hmid
        · exact hdelete hmid
        · split at hmid
          · exact hdelete hmid
          · split at hmid
            · rename_i u hu _ _ hrepeat
              rw [putBack, insert, Arena.get?_set] at hmid
              split at hmid
              · obtain rfl := Option.some.inj hmid
                rw [Timer.restart, if_pos hrepeat] at hone
                rw [hrepeat] at hone
                contradiction
              · rename_i hne
                exact ⟨hne, hmid⟩
            · exact hdelete hmid
    refine ⟨?_, hstep.2⟩
    rw [List.map_cons, List.mem_cons, not_or]
    exact ⟨Ne.symm hstep.1, hout⟩

/-- What the end of a batch does to the log and to the timers that do not repeat. -/
theorem endBatch_frame (q : TimerQueue κ) (expired : List Entry) (now clock : Int) :
    startedIn (q.endBatch expired now clock).log = startedIn q.log ∧
      (q.endBatch expired now clock).cancelligTimer = ∅ ∧
      (q.endBatch expired now clock).heap =
        (expired.foldl (resetEntry now) { q with handleTimer := false }).heap ∧
      (q.endBatch expired now clock).timers =
        (expired.foldl (resetEntry now) { q with handleTimer := false }).timers := by
  obtain ⟨heap, timers, activeTimers, he⟩ :=
    foldl_resetEntry_frame expired now { q with handleTimer := false }
  rw [endBatch, reset, he]
  split
  · exact ⟨rfl, rfl, rfl, rfl⟩
  · refine ⟨?_, rfl, rfl, rfl⟩
    dsimp only [resetTimerFd, note]
    rw [startedIn_append]
    exact List.append_nil _

end TimerQueue

/-! ## One batch -/

namespace TimerLoop

variable {s s' s₁ s₂ s₃ : TimerLoop κ} {a : Action κ} {as before : List (Action κ)}

/-- No callback cancels a timer, and the batch is not over. -/
def KeepsBatch (_ : TimerLoop κ) : Action κ → Prop
  | .cancel _ | .endBatch => False
  | _ => True

/-- The order of the books between two batches. -/
structure Clean (s : TimerLoop κ) : Prop where
  inv : s.Inv
  uncancelled : s.queue.Uncancelled
  cancelling : s.batch = none → s.queue.cancelligTimer = ∅

/-- What the batch that began in `s` has done by the time the steps `as` are over. -/
structure Working (s : TimerLoop κ) (expired : List Entry) (as : List (Action κ))
    (s' : TimerLoop κ) : Prop where
  inv : s'.Inv
  uncancelled : s'.queue.Uncancelled
  cancelling : s'.queue.cancelligTimer = ∅
  batch : ∃ done rest running, s'.batch = some ⟨s.clock, expired, rest, running⟩ ∧
    expired = done ++ rest ∧ startedIn s'.queue.log = startedIn s.queue.log ++
      done.filterMap fun e => (s.queue.heap.get? e.timer).map (·.sequence)
  heap : ∀ a t, s.queue.heap.get? a = some t → s'.queue.heap.get? a = some t
  timers : ∀ e, e ∈ s'.queue.timers ↔
    (e ∈ s.queue.timers ∧ s.clock < e.expiration) ∨ e ∈ addedBy as

/-- So are the timers added off a run. -/
theorem addedBy_append (as bs : List (Action κ)) :
    addedBy (as ++ bs) = addedBy as ++ addedBy bs :=
  List.filterMap_append

/-- A batch begins with the timers that expire by now. -/
theorem working_handleRead (hs : s.Clean) (hstep : s.step .handleRead = some s₁) :
    Working s (s.queue.expiredEntries s.clock) [] s₁ := by
  have hm := moves_of_step hstep
  have hinv := hs.inv.moves hm
  cases hm with
  | handleRead hb =>
    have howned := hs.inv.owned
    rw [expired, hb] at howned
    obtain ⟨hget, hmem, -⟩ := TimerQueue.beginBatch_spec howned s.clock
    obtain ⟨-, hcancelling, hlog⟩ := s.queue.beginBatch_frame s.clock
    refine ⟨hinv, hs.uncancelled.beginBatch howned _, hcancelling.trans (hs.cancelling hb),
      ⟨[], _, _, rfl, rfl, ?_⟩, fun a t ht => (hget a).trans ht, fun e => ?_⟩
    · rw [hlog]
      exact (List.append_nil _).symm
    · have hexpired := TimerQueue.mem_expiredEntries howned s.clock e
      change e ∈ (s.queue.beginBatch s.clock).2.timers ↔ _
      rw [hmem]
      change e ∈ s.queue.timers ∧ e ∉ s.queue.expiredEntries s.clock ↔ _
      rw [hexpired]
      constructor
      · rintro ⟨he, hnot⟩
        exact .inl ⟨he, not_le.mp fun hle => hnot ⟨he, hle⟩⟩
      · rintro (⟨he, hlt⟩ | he)
        · exact ⟨he, fun h => absurd h.2 (not_le.mpr hlt)⟩
        · exact absurd he List.not_mem_nil

/-- The timers of the vector are live when the batch begins. -/
theorem live_of_expired (hs : s.Clean) (hb : s.batch = none) {e : Entry}
    (he : e ∈ s.queue.expiredEntries s.clock) :
    ∃ t, s.queue.heap.get? e.timer = some t ∧ t.expiration = e.expiration := by
  have howned := hs.inv.owned
  rw [expired, hb] at howned
  exact howned.key (Owned.mem_of_mem_expiredEntries he)

/-- A step of the batch that does not end it inserts what it is asked to, or starts the next timer
of the vector, or changes nothing of this. -/
theorem Working.step {es : List Entry} (h : Working s es as s')
    (hlive : ∀ e ∈ es, ∃ t, s.queue.heap.get? e.timer = some t) (hkeep : KeepsBatch s' a)
    (hstep : s'.step a = some s₂) : Working s es (as ++ [a]) s₂ := by
  have hm := moves_of_step hstep
  have hinv := h.inv.moves hm
  obtain ⟨done, rest, running, hbatch, hsplit, hstarted⟩ := h.batch
  -- a step that asks for no insertion
  have hadded (hno : addedBy [a] = []) : addedBy (as ++ [a]) = addedBy as := by
    rw [addedBy_append, hno, List.append_nil]
  cases hm with
  | @addTimer cb when_ interval timer ha hu =>
    obtain ⟨hlog, hcancelling, -, hget⟩ := TimerQueue.addTimerInLoop_spec
      (s'.queue.addTimer cb when_ interval timer ha.free).2 timer s'.clock
    have hlog' : startedIn (s'.queue.addTimer cb when_ interval timer ha.free).2.log =
        startedIn s'.queue.log := by
      change startedIn (s'.queue.log ++ [.created _]) = _
      rw [startedIn_append]
      exact List.append_nil _
    refine ⟨hinv, h.uncancelled.add ha.free, hcancelling.trans h.cancelling,
      ⟨done, rest, running, hbatch, hsplit, hlog.trans (hlog'.trans hstarted)⟩, ?_, fun e => ?_⟩
    · intro b t ht
      have hnew := @TimerQueue.get?_add _ _ cb _ when_ s'.clock interval ha.free b
      rw [if_neg] at hnew
      · exact hnew.trans (h.heap b t ht)
      · rintro rfl
        exact Option.some_ne_none t ((h.heap _ t ht).symm.trans ha.free)
    · refine (TimerQueue.mem_timers_add ha.free e).trans ?_
      rw [h.timers, addedBy_append, List.mem_append]
      have hone : e ∈ addedBy [Action.addTimer cb when_ interval timer] ↔ e = ⟨when_, timer⟩ := by
        simp [addedBy]
      rw [hone]
      constructor
      · rintro (he | he | he)
        · exact .inr (.inr he)
        · exact .inl he
        · exact .inr (.inl he)
      · rintro (he | he | he)
        · exact .inr (.inl he)
        · exact .inr (.inr he)
        · exact .inl he
  | cancel hu => exact absurd hkeep id
  | @addTimerElsewhere cb when_ interval timer ha =>
    refine ⟨hinv, ?_, h.cancelling, ⟨done, rest, running, hbatch, hsplit, ?_⟩, ?_, fun e => ?_⟩
    · intro b t ht
      rw [TimerQueue.get?_addTimer] at ht
      split at ht
      · obtain rfl := Option.some.inj ht
        rfl
      · exact h.uncancelled b t ht
    · rw [← hstarted]
      change startedIn (s'.queue.log ++ [.created _]) = _
      rw [startedIn_append]
      exact List.append_nil _
    · intro b t ht
      refine (TimerQueue.get?_addTimer _ _ _ _ ha.free b).trans ?_
      rw [if_neg]
      · exact h.heap b t ht
      · rintro rfl
        exact Option.some_ne_none t ((h.heap _ t ht).symm.trans ha.free)
    · rw [hadded rfl]
      exact h.timers e
  | cancelElsewhere =>
    exact ⟨hinv, h.uncancelled, h.cancelling, ⟨done, rest, running, hbatch, hsplit, hstarted⟩,
      h.heap, fun e => by rw [hadded rfl]; exact h.timers e⟩
  | runFunctor hb hf =>
    rw [hbatch] at hb
    contradiction
  | handleRead hb =>
    rw [hbatch] at hb
    contradiction
  | @nextEntry now expired e rest' hb =>
    rw [hbatch] at hb
    obtain ⟨rfl, rfl, rfl, rfl⟩ := Batch.mk.inj (Option.some.inj hb)
    have he : e ∈ es := by
      rw [hsplit]
      exact List.mem_append_right _ List.mem_cons_self
    obtain ⟨t, ht⟩ := hlive e he
    have ht' := h.heap _ _ ht
    have hrun : s'.queue.runEntry e = (some t.callback, s'.queue.note (.started t.sequence)) := by
      rw [TimerQueue.runEntry, ht']
      dsimp only
      rw [h.uncancelled _ _ ht', if_neg Bool.false_ne_true]
    refine ⟨hinv, ?_, ?_, ⟨done ++ [e], rest', _, rfl, ?_, ?_⟩, ?_, fun f => ?_⟩
    · rw [hrun]
      exact h.uncancelled
    · rw [hrun]
      exact h.cancelling
    · rw [hsplit, List.append_assoc, List.singleton_append]
    · rw [hrun]
      change startedIn (s'.queue.log ++ [.started t.sequence]) = _
      rw [startedIn_append, hstarted, List.append_assoc, List.filterMap_append]
      simp [startedIn, ht]
    · rw [hrun]
      exact h.heap
    · rw [hadded rfl, hrun]
      exact h.timers f
  | callbackReturns hb =>
    rw [hbatch] at hb
    obtain ⟨rfl, rfl, rfl, rfl⟩ := Batch.mk.inj (Option.some.inj hb)
    exact ⟨hinv, h.uncancelled, h.cancelling, ⟨done, rest, _, rfl, hsplit, hstarted⟩, h.heap,
      fun e => by rw [hadded rfl]; exact h.timers e⟩
  | endBatch hb => exact absurd hkeep id
  | tick =>
    exact ⟨hinv, h.uncancelled, h.cancelling, ⟨done, rest, running, hbatch, hsplit, hstarted⟩,
      h.heap, fun e => by rw [hadded rfl]; exact h.timers e⟩

/-- The batch that began in `s` and ended in `s'` has started the callbacks of exactly the timers
that expired by then, each once and the earlier ones first; the queue holds the later timers, those
that the callbacks have added, and the repeating timers of the batch, put back. -/
def BatchDone (s : TimerLoop κ) (as : List (Action κ)) (s' : TimerLoop κ) : Prop :=
  ∃ expired : List Entry,
    (∀ e, e ∈ expired ↔ e ∈ s.queue.timers ∧ e.expiration ≤ s.clock) ∧
    (expired.map Entry.timer).Nodup ∧
    (expired.Pairwise fun e f => e.expiration ≤ f.expiration) ∧
    (∀ e ∈ expired, ∃ t, s.queue.heap.get? e.timer = some t ∧ t.expiration = e.expiration) ∧
    startedIn s'.queue.log = startedIn s.queue.log ++
      expired.filterMap (fun e => (s.queue.heap.get? e.timer).map (·.sequence)) ∧
    ∀ e, e ∈ s'.queue.timers ↔
      (e ∈ s.queue.timers ∧ s.clock < e.expiration) ∨ e ∈ addedBy as ∨
        ∃ f ∈ expired, ∃ t, s.queue.heap.get? f.timer = some t ∧ t.repeat_ = true ∧
          e = ⟨s.clock + t.interval.micros, f.timer⟩

/-- The end of the batch puts the repeating timers of the vector back. -/
theorem Working.endBatch {es : List Entry} (h : Working s es as s₂) (hs : s.Clean)
    (hb : s.batch = none) (hes : es = s.queue.expiredEntries s.clock)
    (hstep : s₂.step .endBatch = some s₃) : BatchDone s as s₃ := by
  subst hes
  have hsowned := hs.inv.owned
  rw [expired, hb] at hsowned
  have hm := moves_of_step hstep
  obtain ⟨done, rest, running, hbatch, hsplit, hstarted⟩ := h.batch
  cases hm with
  | @endBatch now es hb₂ =>
    rw [hbatch] at hb₂
    obtain ⟨rfl, rfl, rfl, rfl⟩ := Batch.mk.inj (Option.some.inj hb₂)
    rw [List.append_nil] at hsplit
    obtain ⟨hlog, -, -, htimers⟩ := s₂.queue.endBatch_frame
      (s.queue.expiredEntries s.clock) s.clock s₂.clock
    refine ⟨_, TimerQueue.mem_expiredEntries hsowned s.clock, hsowned.nodup_expiredEntries _,
      s.queue.pairwise_expiredEntries _, fun e he => live_of_expired hs hb he, ?_, fun e => ?_⟩
    · rw [← hsplit] at hstarted
      exact hlog.trans hstarted
    · have hfold := @TimerQueue.timers_foldl_resetEntry _ { s₂.queue with handleTimer := false }
        s.clock _ (hsowned.nodup_expiredEntries s.clock)
        (fun f hf => by
          obtain ⟨t, ht, -⟩ := live_of_expired hs hb hf
          exact ⟨t, h.heap _ _ ht, h.uncancelled _ _ (h.heap _ _ ht)⟩) h.cancelling e
      change e ∈ (s₂.queue.endBatch (s.queue.expiredEntries s.clock) s.clock s₂.clock).timers ↔ _
      rw [htimers, hfold]
      change (e ∈ s₂.queue.timers ∨ _) ↔ _
      rw [h.timers, or_assoc]
      -- the timers of the vector are those of the beginning
      have hsame : ∀ f ∈ s.queue.expiredEntries s.clock, ∀ t,
          s₂.queue.heap.get? f.timer = some t ↔ s.queue.heap.get? f.timer = some t := by
        intro f hf t
        obtain ⟨u, hu, -⟩ := live_of_expired hs hb hf
        rw [hu, h.heap _ _ hu]
      constructor
      · rintro (he | he | ⟨f, hf, t, ht, hrepeat, rfl⟩)
        · exact .inl he
        · exact .inr (.inl he)
        · exact .inr (.inr ⟨f, hf, t, (hsame f hf t).mp ht, hrepeat, rfl⟩)
      · rintro (he | he | ⟨f, hf, t, ht, hrepeat, rfl⟩)
        · exact .inl he
        · exact .inr (.inl he)
        · exact .inr (.inr ⟨f, hf, t, (hsame f hf t).mpr ht, hrepeat, rfl⟩)

/-- A whole batch. -/
theorem batchDone_of_run (hs : s.Clean) (hstart : s.step .handleRead = some s₁)
    (hrun : Run step KeepsBatch s₁ as s₂) (hend : s₂.step .endBatch = some s₃) :
    BatchDone s as s₃ := by
  have hb : s.batch = none := by
    have hm := moves_of_step hstart
    cases hm with
    | handleRead hb => exact hb
  have hworking : Working s (s.queue.expiredEntries s.clock) as s₂ := by
    have hfirst := working_handleRead hs hstart
    clear hend
    induction hrun with
    | nil => exact hfirst
    | snoc _ hkeep hstep ih =>
      refine ih.step (fun e he => ?_) hkeep hstep
      obtain ⟨t, ht, -⟩ := live_of_expired hs hb he
      exact ⟨t, ht⟩
  exact hworking.endBatch hs hb rfl hend

/-! ## Runs -/

/-- Nothing has run in a new queue. -/
theorem clean_init (clock : Int) : Clean ({ clock } : TimerLoop κ) where
  inv := inv_init clock
  uncancelled _ _ h := by simp [Arena.empty, Arena.get?] at h
  cancelling _ := rfl

/-- Outside a batch a cancellation leaves no note. -/
theorem cancelligTimer_cancelInLoop (q : TimerQueue κ) (id : TimerId) (h : q.handleTimer = false) :
    (q.cancelInLoop id).cancelligTimer = q.cancelligTimer := by
  rw [TimerQueue.cancelInLoop]
  split
  · split <;> rfl
  · rw [if_neg]
    · rfl
    · change ¬q.handleTimer = true
      rw [h]
      exact Bool.false_ne_true

/-- A step keeps what the log says of the batch. -/
theorem Clean.step (h : s.Clean) (hstep : s.step a = some s') : s'.Clean := by
  have hm := moves_of_step hstep
  have hinv := h.inv.moves hm
  cases hm with
  | @addTimer cb when_ interval timer ha hu =>
    refine ⟨hinv, h.uncancelled.add ha.free, fun hb => ?_⟩
    obtain ⟨-, hcancelling, -⟩ := TimerQueue.addTimerInLoop_spec
      (s.queue.addTimer cb when_ interval timer ha.free).2 timer s.clock
    exact hcancelling.trans (h.cancelling hb)
  | @cancel id hu =>
    refine ⟨hinv, h.uncancelled.cancelInLoop h.inv.owned id, fun hb => ?_⟩
    have hhandle := h.inv.handle
    rw [show s.batch = none from hb] at hhandle
    exact (cancelligTimer_cancelInLoop _ _ hhandle).trans (h.cancelling hb)
  | @addTimerElsewhere cb when_ interval timer ha =>
    refine ⟨hinv, fun b t ht => ?_, h.cancelling⟩
    rw [TimerQueue.get?_addTimer] at ht
    split at ht
    · obtain rfl := Option.some.inj ht
      rfl
    · exact h.uncancelled b t ht
  | cancelElsewhere => exact ⟨hinv, h.uncancelled, h.cancelling⟩
  | @runFunctor f fs hb hf =>
    have hhandle := h.inv.handle
    rw [hb] at hhandle
    cases f with
    | addTimerInLoop timer =>
      obtain ⟨-, hcancelling, -, hget⟩ := s.queue.addTimerInLoop_spec timer s.clock
      exact ⟨hinv, fun b t ht => h.uncancelled b t ((hget b).symm.trans ht),
        fun _ => hcancelling.trans (h.cancelling hb)⟩
    | cancelInLoop id =>
      exact ⟨hinv, h.uncancelled.cancelInLoop h.inv.owned id,
        fun _ => (cancelligTimer_cancelInLoop _ _ hhandle).trans (h.cancelling hb)⟩
  | handleRead hb =>
    have howned := h.inv.owned
    rw [expired, hb] at howned
    exact ⟨hinv, h.uncancelled.beginBatch howned _, by simp⟩
  | @nextEntry now es e rest hb =>
    refine ⟨hinv, ?_, by simp⟩
    change (s.queue.runEntry e).2.Uncancelled
    rw [TimerQueue.runEntry]
    split
    · exact h.uncancelled
    · split
      · exact h.uncancelled
      · exact h.uncancelled
  | callbackReturns hb => exact ⟨hinv, h.uncancelled, by simp⟩
  | @endBatch now es hb =>
    obtain ⟨-, hcancelling, hheap, -⟩ := s.queue.endBatch_frame es now s.clock
    refine ⟨hinv, ?_, fun _ => hcancelling⟩
    intro b t ht
    change (s.queue.endBatch es now s.clock).heap.get? b = some t at ht
    rw [hheap] at ht
    have hfold (es : List Entry) (q : TimerQueue κ) (hq : q.Uncancelled) :
        (es.foldl (TimerQueue.resetEntry now) q).Uncancelled := by
      induction es generalizing q with
      | nil => exact hq
      | cons e es ih => exact ih _ (hq.resetEntry now e)
    exact hfold es { s.queue with handleTimer := false } h.uncancelled b t ht
  | tick => exact ⟨hinv, h.uncancelled, h.cancelling⟩

/-- What is known of the timers made so far: each lives under the time it was made for until it is
restarted, and one that does not repeat is started once, and not before its time. -/
structure Once (s : TimerLoop κ) (made : List (Int × Interval)) : Prop where
  clean : s.Clean
  length : made.length = s.queue.heap.born
  made_of : ∀ a t, s.queue.heap.get? a = some t → ∃ w interval,
    made[t.sequence]? = some (w, interval) ∧ t.repeat_ = interval.positive ∧
      (t.repeat_ = false → t.expiration = w)
  started_lt : ∀ n ∈ startedIn s.queue.log, n < s.queue.heap.born
  done : ∀ a t, s.queue.heap.get? a = some t → t.repeat_ = false →
    t.sequence ∈ startedIn s.queue.log →
      a ∈ s.expired.map Entry.timer ∧ a ∉ s.rest.map Entry.timer
  once : ∀ n w interval, made[n]? = some (w, interval) → interval.positive = false →
    (startedIn s.queue.log).count n ≤ 1
  due : ∀ b, s.batch = some b → b.now ≤ s.clock ∧ ∀ e ∈ b.expired, e.expiration ≤ b.now

variable {made : List (Int × Interval)}

/-- Nothing was made, and nothing has run. -/
theorem once_init (clock : Int) : Once ({ clock } : TimerLoop κ) [] where
  clean := clean_init clock
  length := rfl
  made_of _ _ h := by simp [Arena.empty, Arena.get?] at h
  started_lt _ h := absurd h List.not_mem_nil
  done _ _ h := by simp [Arena.empty, Arena.get?] at h
  once _ _ _ h := by simp at h
  due _ h := by contradiction

/-- Steps that make no timer, start none, and work on no batch. -/
theorem Once.frame (h : s.Once made) (hclean : s'.Clean)
    (hborn : s'.queue.heap.born = s.queue.heap.born)
    (hget : ∀ a t, s'.queue.heap.get? a = some t → s.queue.heap.get? a = some t)
    (hlog : startedIn s'.queue.log = startedIn s.queue.log)
    (hbatch : s'.batch = s.batch) (hclock : s.clock ≤ s'.clock) : s'.Once made where
  clean := hclean
  length := h.length.trans hborn.symm
  made_of a t ht := h.made_of a t (hget a t ht)
  started_lt n hn := by
    rw [hlog] at hn
    rw [hborn]
    exact h.started_lt n hn
  done a t ht hone hn := by
    rw [hlog] at hn
    rw [expired, rest, hbatch]
    exact h.done a t (hget a t ht) hone hn
  once n w interval hn hone := by
    rw [hlog]
    exact h.once n w interval hn hone
  due b hb := by
    rw [hbatch] at hb
    exact ⟨(h.due b hb).1.trans hclock, (h.due b hb).2⟩

/-- A new timer has the next number, which was never started. -/
theorem Once.alloc (h : s.Once made) (hclean : s'.Clean) {cb : κ} {w : Int} {interval : Interval}
    {timer : Addr} (hborn : s'.queue.heap.born = s.queue.heap.born + 1)
    (hget : ∀ a, s'.queue.heap.get? a =
      if timer = a then some (.create cb w interval s.queue.heap.born) else s.queue.heap.get? a)
    (hlog : startedIn s'.queue.log = startedIn s.queue.log) (hbatch : s'.batch = s.batch)
    (hclock : s'.clock = s.clock) : s'.Once (made ++ [(w, interval)]) := by
  have hnew : (made ++ [(w, interval)])[s.queue.heap.born]? = some (w, interval) := by
    rw [← h.length, List.getElem?_append_right (le_refl _)]
    simp
  have hold {n : Nat} (hn : n < s.queue.heap.born) : (made ++ [(w, interval)])[n]? = made[n]? :=
    List.getElem?_append_left (by rw [h.length]; exact hn)
  refine ⟨hclean, ?_, fun a t ht => ?_, fun n hn => ?_, fun a t ht hone hn => ?_,
    fun n w' interval' hn hone => ?_, fun b hb => ?_⟩
  · rw [hborn, List.length_append, h.length]
    rfl
  · rw [hget] at ht
    split at ht
    · obtain rfl := Option.some.inj ht
      exact ⟨w, interval, hnew, rfl, fun _ => rfl⟩
    · obtain ⟨w', interval', hmade, hrest⟩ := h.made_of a t ht
      exact ⟨w', interval', (hold (s.queue.heap.serial_lt ht)).trans hmade, hrest⟩
  · rw [hlog] at hn
    rw [hborn]
    exact (h.started_lt n hn).trans (Nat.lt_succ_self _)
  · rw [hlog] at hn
    rw [hget] at ht
    split at ht
    · obtain rfl := Option.some.inj ht
      exact absurd (h.started_lt _ hn) (lt_irrefl _)
    · rw [expired, rest, hbatch]
      exact h.done a t ht hone hn
  · rw [hlog]
    by_cases hlt : n < s.queue.heap.born
    · exact h.once n w' interval' ((hold hlt).symm.trans hn) hone
    · rw [List.count_eq_zero_of_not_mem fun hmem => hlt (h.started_lt n hmem)]
      exact Nat.zero_le 1
  · rw [hbatch] at hb
    rw [hclock]
    exact h.due b hb

/-- The timers made are read off a run piece by piece. -/
theorem madeBy_append (as bs : List (Action κ)) : madeBy (as ++ bs) = madeBy as ++ madeBy bs :=
  List.filterMap_append

/-- Starting the next timer of the vector: one that does not repeat was not started before, and its
time has come. -/
theorem Once.nextEntry (h : s.Once made) (hstep : s.step .nextEntry = some s') :
    s'.Once made ∧ ∀ n w interval, made[n]? = some (w, interval) → interval.positive = false →
      startedIn s'.queue.log = startedIn s.queue.log ++ [n] →
        n ∉ startedIn s.queue.log ∧ w ≤ s.clock := by
  have hclean := h.clean.step hstep
  have hm := moves_of_step hstep
  cases hm with
  | @nextEntry now es e rest' hb =>
    have howned := h.clean.inv.owned
    have hsuffix := h.clean.inv.rest_suffix
    have hdone := h.done
    simp only [expired, TimerLoop.rest, hb] at howned hsuffix hdone
    have he : e ∈ es := hsuffix.subset List.mem_cons_self
    obtain ⟨t, ht, hexp, -⟩ := howned.taken_live (x := e.expiration) (a := e.timer) he
    have hnodup : ((e :: rest').map Entry.timer).Nodup :=
      howned.taken_nodup.sublist (hsuffix.sublist.map _)
    rw [List.map_cons, List.nodup_cons] at hnodup
    have hrun : s.queue.runEntry e = (some t.callback, s.queue.note (.started t.sequence)) := by
      rw [TimerQueue.runEntry, ht]
      dsimp only
      rw [h.clean.uncancelled _ _ ht, if_neg Bool.false_ne_true]
    have hlog : startedIn (s.queue.note (.started t.sequence)).log =
        startedIn s.queue.log ++ [t.sequence] := startedIn_append _ _
    -- a timer that does not repeat and stands in the vector has not been started
    have hfresh : t.repeat_ = false → t.sequence ∉ startedIn s.queue.log := by
      intro hone hn
      exact (hdone _ _ ht hone hn).2 (by simp)
    obtain ⟨w₀, interval₀, hmade₀, hrepeat₀, htime₀⟩ := h.made_of _ _ ht
    have hown {n : Nat} {w : Int} {interval : Interval} (hn : made[n]? = some (w, interval))
        (hone : interval.positive = false) (heq : n = t.sequence) :
        t.repeat_ = false ∧ t.expiration = w := by
      subst heq
      rw [hmade₀] at hn
      obtain ⟨rfl, rfl⟩ := Prod.mk.inj (Option.some.inj hn)
      have hno : t.repeat_ = false := hrepeat₀.trans hone
      exact ⟨hno, htime₀ hno⟩
    constructor
    · refine ⟨hclean, ?_, fun a u hu => ?_, fun n hn => ?_, fun a u hu hone hn => ?_,
        fun n w interval hn hone => ?_, fun b hb' => ?_⟩
      · rw [hrun]
        exact h.length
      · rw [hrun] at hu
        exact h.made_of a u hu
      · rw [hrun] at hn ⊢
        rw [hlog] at hn
        rcases List.mem_append.mp hn with hn | hn
        · exact h.started_lt n hn
        · rw [List.mem_singleton.mp hn]
          exact s.queue.heap.serial_lt ht
      · rw [hrun] at hu hn
        rw [hlog] at hn
        change a ∈ es.map Entry.timer ∧ a ∉ rest'.map Entry.timer
        rcases List.mem_append.mp hn with hn | hn
        · obtain ⟨hin, hout⟩ := hdone a u hu hone hn
          exact ⟨hin, fun hmem => hout (List.mem_cons_of_mem _ hmem)⟩
        · obtain rfl := s.queue.heap.serial_inj hu ht (List.mem_singleton.mp hn)
          exact ⟨List.mem_map_of_mem he, hnodup.1⟩
      · rw [hrun, hlog, List.count_append]
        have hbound := h.once n w interval hn hone
        by_cases heq : n = t.sequence
        · have hzero := List.count_eq_zero_of_not_mem (hfresh (hown hn hone heq).1)
          rw [heq, hzero, List.count_singleton_self]
        · rw [List.count_singleton, if_neg (by simpa using Ne.symm heq)]
          exact hbound
      · obtain rfl := Option.some.inj hb'
        have hdue := h.due _ hb
        exact hdue
    · intro n w interval hn hone hstarted
      change startedIn (s.queue.runEntry e).2.log = _ at hstarted
      rw [hrun, hlog] at hstarted
      have heq : t.sequence = n := by simpa using hstarted
      obtain ⟨hno, htime⟩ := hown hn hone heq.symm
      obtain ⟨hnow, hexpired⟩ := h.due _ hb
      have hle := hexpired e he
      refine ⟨heq ▸ hfresh hno, ?_⟩
      dsimp only at hnow hle
      omega

/-- A step runs no one-shot timer again. -/
theorem Once.step (h : s.Once (madeBy as)) (hstep : s.step a = some s') :
    s'.Once (madeBy (as ++ [a])) := by
  have hclean := h.clean.step hstep
  have hm := moves_of_step hstep
  -- a step that makes no timer
  have hmade (hno : madeBy [a] = []) : madeBy (as ++ [a]) = madeBy as := by
    rw [madeBy_append, hno, List.append_nil]
  cases hm with
  | @addTimer cb w interval timer ha hu =>
    obtain ⟨hlog, -, hborn, -⟩ := TimerQueue.addTimerInLoop_spec
      (s.queue.addTimer cb w interval timer ha.free).2 timer s.clock
    rw [madeBy_append]
    refine h.alloc hclean hborn (fun b => TimerQueue.get?_add ha.free b) ?_ rfl rfl
    refine hlog.trans ?_
    change startedIn (s.queue.log ++ [.created _]) = _
    rw [startedIn_append]
    exact List.append_nil _
  | @cancel id hu =>
    rw [hmade rfl]
    refine h.frame hclean (s.queue.born_cancelInLoop id) ?_
      (s.queue.startedIn_cancelInLoop id) rfl (le_refl _)
    exact (s.queue.cancelInLoop_frame id).1
  | @addTimerElsewhere cb w interval timer ha =>
    rw [madeBy_append]
    refine h.alloc hclean rfl (s.queue.get?_addTimer cb w interval ha.free) ?_ rfl rfl
    change startedIn (s.queue.log ++ [.created _]) = _
    rw [startedIn_append]
    exact List.append_nil _
  | cancelElsewhere =>
    rw [hmade rfl]
    exact h.frame hclean rfl (fun _ _ ht => ht) rfl rfl (le_refl _)
  | @runFunctor f fs hb hf =>
    rw [hmade rfl]
    cases f with
    | addTimerInLoop timer =>
      obtain ⟨hlog, -, hborn, hget⟩ := s.queue.addTimerInLoop_spec timer s.clock
      exact h.frame hclean hborn (fun b t ht => (hget b).symm.trans ht) hlog rfl (le_refl _)
    | cancelInLoop id =>
      exact h.frame hclean (s.queue.born_cancelInLoop id)
        (s.queue.cancelInLoop_frame id).1 (s.queue.startedIn_cancelInLoop id) rfl (le_refl _)
  | handleRead hb =>
    have howned := h.clean.inv.owned
    have hdone := h.done
    simp only [expired, TimerLoop.rest, hb] at howned hdone
    have hheap := TimerQueue.heap_beginBatch howned s.clock
    have hlog := (s.queue.beginBatch_frame s.clock).2.2
    rw [hmade rfl]
    refine ⟨hclean, h.length.trans (by rw [hheap]), fun a t ht => ?_, fun n hn => ?_,
      fun a t ht hone hn => ?_, fun n w interval hn hone => ?_, fun b hb' => ?_⟩
    · rw [hheap] at ht
      exact h.made_of a t ht
    · rw [hlog] at hn
      rw [hheap]
      exact h.started_lt n hn
    · rw [hheap] at ht
      rw [hlog] at hn
      exact absurd (hdone a t ht hone hn).1 List.not_mem_nil
    · rw [hlog]
      exact h.once n w interval hn hone
    · obtain rfl := Option.some.inj hb'
      refine ⟨le_refl _, fun e he => ?_⟩
      exact ((TimerQueue.mem_expiredEntries howned s.clock e).mp he).2
  | nextEntry hb =>
    rw [hmade rfl]
    exact (h.nextEntry hstep).1
  | @callbackReturns now es rest' hb =>
    rw [hmade rfl]
    have hdone := h.done
    have hdue := h.due _ hb
    simp only [expired, TimerLoop.rest, hb] at hdone
    refine ⟨hclean, h.length, h.made_of, h.started_lt, hdone, h.once, fun b hb' => ?_⟩
    obtain rfl := Option.some.inj hb'
    exact hdue
  | @endBatch now es hb =>
    have hdone := h.done
    simp only [expired, TimerLoop.rest, hb] at hdone
    obtain ⟨hlog, -, hheap, -⟩ := s.queue.endBatch_frame es now s.clock
    obtain ⟨hborn, hold⟩ :=
      TimerQueue.foldl_resetEntry_heap es now { s.queue with handleTimer := false }
    rw [hmade rfl]
    refine ⟨hclean, h.length.trans (by rw [hheap, hborn]), fun a t ht => ?_, fun n hn => ?_,
      fun a t ht hone hn => ?_, fun n w interval hn hone => ?_, by simp⟩
    · rw [hheap] at ht
      obtain ⟨u, hu, hseq, hrepeat⟩ := hold a t ht
      obtain ⟨w, interval, hw, hpositive, htime⟩ := h.made_of a u hu
      refine ⟨w, interval, hseq ▸ hw, hrepeat ▸ hpositive, fun hone => ?_⟩
      have hsame := (TimerQueue.oneShot_foldl_resetEntry ht hone).2
      obtain rfl : u = t := Option.some.inj (hu.symm.trans hsame)
      exact htime hone
    · rw [hlog] at hn
      rw [hheap, hborn]
      exact h.started_lt n hn
    · -- a timer of the vector that does not repeat has been deleted
      rw [hheap] at ht
      rw [hlog] at hn
      obtain ⟨hout, hsame⟩ := TimerQueue.oneShot_foldl_resetEntry ht hone
      exact absurd (hdone a t hsame hone hn).1 hout
    · rw [hlog]
      exact h.once n w interval hn hone
  | tick =>
    rw [hmade rfl]
    exact h.frame hclean rfl (fun _ _ ht => ht) rfl rfl (by dsimp only; omega)

/-- A one-shot timer runs at most once, in every run. -/
theorem once_of_run {clock : Int} (h : Run step anyStep { clock } as s) : s.Once (madeBy as) := by
  induction h with
  | nil => exact once_init clock
  | snoc _ _ hstep ih => exact ih.step hstep

/-- From any state of a run, a batch in which no callback cancels runs exactly the timers whose time
has come and leaves exactly the others, the new ones and the repeating ones; and over the whole run
a timer that does not repeat is started at most once, and never before the time it was made for. -/
theorem batch_of_run {clock : Int} (h : Run step anyStep { clock } as s) :
    (∀ s₁ bs s₂ s₃, s.step .handleRead = some s₁ → Run step KeepsBatch s₁ bs s₂ →
      s₂.step .endBatch = some s₃ → BatchDone s bs s₃) ∧
    ∀ n w interval, (madeBy as)[n]? = some (w, interval) → interval.positive = false →
      (startedIn s.queue.log).count n ≤ 1 ∧
        ∀ s', s.step .nextEntry = some s' →
          startedIn s'.queue.log = startedIn s.queue.log ++ [n] → w ≤ s.clock := by
  have honce := once_of_run h
  constructor
  · intro s₁ bs s₂ s₃ hstart hrun hend
    exact batchDone_of_run honce.clean hstart hrun hend
  · intro n w interval hn hone
    refine ⟨honce.once n w interval hn hone, fun s' hstep hstarted => ?_⟩
    exact ((honce.nextEntry hstep).2 n w interval hn hone hstarted).2

/-- One timer expires now and a repeating one has expired, a third one is for later. -/
def dueNow : List (Action Unit) :=
  [.addTimer () 50 .zero 1, .addTimer () 40 ⟨true, 8, fun _ => by decide⟩ 2,
    .addTimer () 60 .zero 3, .tick 50]

/-- The batch; the first callback adds a timer that has expired already. -/
def dueNowBatch : List (Action Unit) :=
  [.nextEntry, .addTimer () 10 .zero 4, .callbackReturns, .nextEntry, .callbackReturns]

/-- A timer due now and one due later: a batch runs the first alone. -/
theorem batch_of_run_dueNow :
    ∃ s s₁ s₂ s₃ : TimerLoop Unit, Run step anyStep { clock := 0 } dueNow s ∧
      s.step .handleRead = some s₁ ∧ Run step KeepsBatch s₁ dueNowBatch s₂ ∧
      s₂.step .endBatch = some s₃ ∧ BatchDone s dueNowBatch s₃ := by
  obtain ⟨s, hs⟩ := Option.isSome_iff_exists.mp
    (show (replay step anyStep { clock := 0 } dueNow).isSome by decide +kernel)
  have hall : ((replay step anyStep { clock := 0 } dueNow).bind fun s =>
      (s.step .handleRead).bind fun s₁ => (replay step anyStep s₁ dueNowBatch).bind fun s₂ =>
        s₂.step .endBatch).isSome := by
    decide +kernel
  obtain ⟨s₃, hs₃⟩ := Option.isSome_iff_exists.mp hall
  rw [hs, Option.bind_some] at hs₃
  obtain ⟨s₁, hs₁, hs₃⟩ := Option.bind_eq_some_iff.mp hs₃
  obtain ⟨s₂, hs₂, hs₃⟩ := Option.bind_eq_some_iff.mp hs₃
  have hrun : Run step KeepsBatch s₁ dueNowBatch s₂ := by
    refine ((Run.of_replay hs₂).restrict (P := fun a => ∀ s, KeepsBatch s a) ?_).mono
      fun _ _ h => h _
    simp [dueNowBatch, KeepsBatch]
  exact ⟨s, s₁, s₂, s₃, .of_replay hs, hs₁, hrun, hs₃,
    (batch_of_run (.of_replay hs)).1 s₁ dueNowBatch s₂ s₃ hs₁ hrun hs₃⟩

end TimerLoop

end ClearMoon.Timer

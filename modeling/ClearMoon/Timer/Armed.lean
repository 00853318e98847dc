import ClearMoon.Timer.Ownership

/-!
# Armed timers

What a user of the queue sees of it: an id is *armed* while its timer stands in the sets, and *due*
while its timer stands in the batch in progress and has not been started. Each operation is
described by what it does to these two relations, so that a user need not know how the queue
works. Callbacks that are only used with `runAfter` belong to timers that do not repeat.
-/

namespace ClearMoon.Timer

variable {κ : Type}

namespace TimerQueue

variable {q : TimerQueue κ} {id : TimerId} {cb : κ}

/-- The live timer that an id stands for. -/
def timer? (q : TimerQueue κ) (id : TimerId) : Option (Timer κ) :=
  (q.heap.get? id.timer).filter (·.sequence = id.sequence)

/-- A handle finds its timer when the cell holds one of the same number. -/
theorem timer?_eq_some {t : Timer κ} :
    q.timer? id = some t ↔ q.heap.get? id.timer = some t ∧ t.sequence = id.sequence := by
  simp [timer?, Option.filter_eq_some_iff]

/-- The timer of the id is in the queue, with this callback. -/
def Armed (q : TimerQueue κ) (id : TimerId) (cb : κ) : Prop :=
  (∃ t, q.timer? id = some t ∧ t.callback = cb) ∧ ⟨id.sequence, id.timer⟩ ∈ q.activeTimers

/-- The timer of the id is one of these entries. -/
def DueIn (q : TimerQueue κ) (rest : List Entry) (id : TimerId) (cb : κ) : Prop :=
  ∃ t, q.timer? id = some t ∧ t.callback = cb ∧ ⟨t.expiration, id.timer⟩ ∈ rest

/-- Timers with such a callback do not repeat. -/
def OneShot (q : TimerQueue κ) (p : κ → Prop) : Prop :=
  ∀ a t, q.heap.get? a = some t → p t.callback → t.repeat_ = false

/-- `Timer::cancel` is never called. -/
def Uncancelled (q : TimerQueue κ) : Prop := ∀ a t, q.heap.get? a = some t → t.cancelled = false

/-- Operations that leave the timers and the set of active ones. -/
theorem armed_congr {q' : TimerQueue κ} (hheap : ∀ a, q'.heap.get? a = q.heap.get? a)
    (hactive : ∀ k, k ∈ q'.activeTimers ↔ k ∈ q.activeTimers) :
    q'.Armed id cb ↔ q.Armed id cb := by
  rw [Armed, Armed, timer?, timer?, hheap, hactive]

/-- What is due depends on the cells alone. -/
theorem dueIn_congr {q' : TimerQueue κ} (hheap : ∀ a, q'.heap.get? a = q.heap.get? a)
    {rest : List Entry} : q'.DueIn rest id cb ↔ q.DueIn rest id cb := by
  rw [DueIn, DueIn, timer?, timer?, hheap]

/-- A due handle has one callback. -/
theorem DueIn.callback_eq {rest : List Entry} {cb' : κ} (h : q.DueIn rest id cb)
    (h' : q.DueIn rest id cb') : cb = cb' := by
  obtain ⟨t, ht, rfl, -⟩ := h
  obtain ⟨t', ht', rfl, -⟩ := h'
  rw [ht] at ht'
  rw [Option.some.inj ht']

/-- The armed timers with a callback. -/
def armedWith [DecidableEq κ] (q : TimerQueue κ) (cb : κ) : List ActiveTimer :=
  q.activeTimers.toList.filter fun k => (q.timer? ⟨k.timer, k.sequence⟩).any (·.callback = cb)

/-- The list `armedWith` has the armed timers of a callback. -/
theorem mem_armedWith [DecidableEq κ] {k : ActiveTimer} :
    k ∈ q.armedWith cb ↔ q.Armed ⟨k.timer, k.sequence⟩ cb := by
  simp only [armedWith, List.mem_filter, Std.ExtTreeSet.mem_toList, Option.any_eq_true,
    decide_eq_true_eq, Armed]
  exact and_comm

/-- It lists none of them twice. -/
theorem nodup_armedWith [DecidableEq κ] : (q.armedWith cb).Nodup := by
  refine List.Nodup.filter _ (Std.ExtTreeSet.ordered_toList.imp fun hlt he => ?_)
  simp [he] at hlt

/-! ## Adding -/

section AddTimer

variable {a : Addr} {when_ now : Int} {interval : Interval} {rest : List Entry}

/-- `addTimer` and `addTimerInLoop` in the loop thread. -/
def add (q : TimerQueue κ) (cb : κ) (when_ : Int) (interval : Interval) (timer : Addr)
    (h : q.heap.get? timer = none) (now : Int) : TimerQueue κ :=
  (q.addTimer cb when_ interval timer h).2.addTimerInLoop timer now

/-- A new timer stands at its own address. -/
theorem get?_add (h : q.heap.get? a = none) (b : Addr) :
    (q.add cb when_ interval a h now).heap.get? b =
      if a = b then some (.create cb when_ interval q.heap.born) else q.heap.get? b := by
  have hinsert (q : TimerQueue κ) : (q.addTimerInLoop a now).heap.get? b = q.heap.get? b := by
    rw [addTimerInLoop]
    split
    · rfl
    · dsimp only
      split <;> rfl
  rw [add, hinsert, get?_addTimer]

/-- It is the only one that became active. -/
theorem mem_activeTimers_add (h : q.heap.get? a = none) (k : ActiveTimer) :
    k ∈ (q.add cb when_ interval a h now).activeTimers ↔
      k = ⟨q.heap.born, a⟩ ∨ k ∈ q.activeTimers := by
  have hget := q.get?_addTimer cb when_ interval h a
  rw [if_pos rfl] at hget
  rw [add, addTimerInLoop, hget]
  have hinsert : k ∈ q.activeTimers.insert ⟨q.heap.born, a⟩ ↔
      k = ⟨q.heap.born, a⟩ ∨ k ∈ q.activeTimers := by
    rw [Std.ExtTreeSet.mem_insert, Std.LawfulEqOrd.compare_eq_iff_eq, eq_comm]
  dsimp only
  split
  · exact hinsert
  · exact hinsert

/-- A new timer is armed under its id, which was never in use. -/
theorem armed_add (h : q.heap.get? a = none) (c : κ) :
    (q.add cb when_ interval a h now).Armed id c ↔
      (id = ⟨a, q.heap.born⟩ ∧ c = cb) ∨ q.Armed id c := by
  have hlt {b : Addr} {t : Timer κ} : q.heap.get? b = some t → t.sequence < q.heap.born :=
    q.heap.serial_lt
  obtain ⟨b, n⟩ := id
  simp only [Armed, timer?_eq_some, get?_add, mem_activeTimers_add]
  by_cases hab : a = b
  · subst hab
    simp only [if_pos, Option.some.injEq, h]
    grind [Timer.create]
  · grind

/-- A timer added in a callback is not due in the batch under way. -/
theorem dueIn_add {taken : List Entry} {waiting : List Addr} (howned : Owned q taken waiting)
    (hrest : ∀ e ∈ rest, e ∈ taken) (h : q.heap.get? a = none) (c : κ) :
    (q.add cb when_ interval a h now).DueIn rest id c ↔ q.DueIn rest id c := by
  have hlive := @howned.taken_live
  obtain ⟨b, n⟩ := id
  simp only [DueIn, timer?_eq_some, get?_add]
  grind

/-- A timer of such a callback that does not repeat may be added. -/
theorem OneShot.add {p : κ → Prop} (hone : q.OneShot p) (h : q.heap.get? a = none)
    (hp : p cb → interval.positive = false) : (q.add cb when_ interval a h now).OneShot p := by
  intro b t ht hcb
  rw [get?_add] at ht
  split at ht
  · obtain rfl := Option.some.inj ht
    exact hp hcb
  · exact hone _ _ ht hcb

/-- An addition cancels nothing. -/
theorem Uncancelled.add (hq : q.Uncancelled) (h : q.heap.get? a = none) :
    (q.add cb when_ interval a h now).Uncancelled := by
  intro b t ht
  rw [get?_add] at ht
  split at ht
  · obtain rfl := Option.some.inj ht
    rfl
  · exact hq _ _ ht

end AddTimer

/-! ## Cancelling -/

section Cancel

variable {taken : List Entry} {waiting : List Addr}

/-- What `cancelInLoop` does to a timer that is in the queue, and to the others. -/
theorem get?_cancelInLoop (h : Owned q taken waiting) (id : TimerId) (a : Addr) :
    (q.cancelInLoop id).heap.get? a =
      if ⟨id.sequence, id.timer⟩ ∈ q.activeTimers ∧ id.timer = a then none
      else q.heap.get? a := by
  rw [cancelInLoop]
  by_cases hmem : ⟨id.sequence, id.timer⟩ ∈ q.activeTimers
  · obtain ⟨t, ht, -⟩ := h.active.mp hmem
    rw [if_pos (show _ ∈ (q.note _).activeTimers from hmem)]
    simp only [note, ht, delete, Arena.get?_free, hmem, true_and]
  · rw [if_neg (show _ ∉ (q.note _).activeTimers from hmem)]
    simp only [hmem, false_and, if_false]
    split <;> rfl

/-- A cancellation takes its own timer out and no other. -/
theorem mem_activeTimers_cancelInLoop (h : Owned q taken waiting) (id : TimerId)
    (k : ActiveTimer) : k ∈ (q.cancelInLoop id).activeTimers ↔
      k ∈ q.activeTimers ∧ k ≠ ⟨id.sequence, id.timer⟩ := by
  rw [cancelInLoop]
  by_cases hmem : ⟨id.sequence, id.timer⟩ ∈ q.activeTimers
  · obtain ⟨t, ht, hseq, -⟩ := h.active.mp hmem
    rw [if_pos (show _ ∈ (q.note _).activeTimers from hmem)]
    simp only [note, ht, delete, Std.ExtTreeSet.mem_erase, ne_eq,
      Std.LawfulEqOrd.compare_eq_iff_eq, hseq]
    grind
  · rw [if_neg (show _ ∉ (q.note _).activeTimers from hmem)]
    have hne (hk : k ∈ q.activeTimers) : k ≠ ⟨id.sequence, id.timer⟩ := fun he => hmem (he ▸ hk)
    split
    · exact ⟨fun hk => ⟨hk, hne hk⟩, fun hk => hk.1⟩
    · exact ⟨fun hk => ⟨hk, hne hk⟩, fun hk => hk.1⟩

/-- The cancelled id is armed no longer; of all others nothing changes. -/
theorem armed_cancelInLoop (h : Owned q taken waiting) (id' : TimerId) :
    (q.cancelInLoop id').Armed id cb ↔ q.Armed id cb ∧ id ≠ id' := by
  obtain ⟨a, n⟩ := id
  obtain ⟨b, m⟩ := id'
  have hactive := @h.active
  simp only [Armed, timer?_eq_some, get?_cancelInLoop h, mem_activeTimers_cancelInLoop h]
  grind

/-- A due timer cannot be cancelled any more. -/
theorem dueIn_cancelInLoop {rest : List Entry} (h : Owned q taken waiting)
    (hrest : ∀ e ∈ rest, e ∈ taken) (id' : TimerId) :
    (q.cancelInLoop id').DueIn rest id cb ↔ q.DueIn rest id cb := by
  obtain ⟨a, n⟩ := id
  obtain ⟨b, m⟩ := id'
  have hactive := @h.active
  have hlive := @h.taken_live
  simp only [DueIn, timer?_eq_some, get?_cancelInLoop h]
  grind

/-- A cancellation makes no timer repeat. -/
theorem OneShot.cancelInLoop {p : κ → Prop} (hone : q.OneShot p) (h : Owned q taken waiting)
    (id : TimerId) : (q.cancelInLoop id).OneShot p := by
  intro a t ht
  rw [get?_cancelInLoop h] at ht
  split at ht
  · contradiction
  · exact hone _ _ ht

/-- Outside a batch a cancellation is not remembered. -/
theorem Uncancelled.cancelInLoop (hq : q.Uncancelled) (h : Owned q taken waiting) (id : TimerId) :
    (q.cancelInLoop id).Uncancelled := by
  intro a t ht
  rw [get?_cancelInLoop h] at ht
  split at ht
  · contradiction
  · exact hq _ _ ht

end Cancel

/-! ## Batches -/

section Batch

variable {taken : List Entry} {waiting : List Addr} {now clock : Int}

/-- Taking out the expired timers: the heap stays, and their entries leave the sets. -/
theorem getExpired_spec (h : Owned q [] waiting) (now : Int) :
    (∀ a, (q.getExpired now).2.heap.get? a = q.heap.get? a) ∧
      (∀ e, e ∈ (q.getExpired now).2.timers ↔ e ∈ q.timers ∧ e ∉ (q.getExpired now).1) ∧
      ∀ e ∈ (q.getExpired now).1, e ∈ q.timers := by
  obtain ⟨hheap, htimers, -, -⟩ := Owned.foldl_deactivate (q := q) (q.expiredEntries now) (by
    rintro ⟨x, b⟩ he
    obtain ⟨t, ht, -⟩ := h.key (Owned.mem_of_mem_expiredEntries he)
    exact ⟨t, ht⟩)
  refine ⟨fun a => congrArg (Arena.get? · a) hheap, fun e => ?_,
    fun e he => Owned.mem_of_mem_expiredEntries he⟩
  rw [← htimers]
  exact Owned.mem_foldl_erase _ _ _

/-- The batch takes timers out of the set, and no cell changes. -/
theorem beginBatch_spec (h : Owned q [] waiting) (now : Int) :
    (∀ a, (q.beginBatch now).2.heap.get? a = q.heap.get? a) ∧
      (∀ e, e ∈ (q.beginBatch now).2.timers ↔ e ∈ q.timers ∧ e ∉ (q.beginBatch now).1) ∧
      ∀ e ∈ (q.beginBatch now).1, e ∈ q.timers :=
  getExpired_spec (q := { q with timerfd := q.timerfd.read, handleTimer := true })
    (h.frame rfl rfl rfl .rfl .rfl) now

/-- The expired timers are due instead of armed, the others stay armed. -/
theorem armed_beginBatch (h : Owned q [] waiting) (now : Int) :
    q.Armed id cb ↔ (q.beginBatch now).2.Armed id cb ∨
      (q.beginBatch now).2.DueIn (q.beginBatch now).1 id cb := by
  have hactive := @h.active
  have hactive' := @(h.beginBatch now).active
  obtain ⟨hget, hmem, hsub⟩ := beginBatch_spec h now
  obtain ⟨a, n⟩ := id
  simp only [Armed, DueIn, timer?_eq_some, hget] at *
  grind

/-- No timer is both armed and due. -/
theorem not_armed_of_dueIn {rest : List Entry} (h : Owned q taken waiting)
    (hrest : ∀ e ∈ rest, e ∈ taken) (hdue : q.DueIn rest id cb) (c : κ) : ¬q.Armed id c := by
  have hactive := @h.active
  have hlive := @h.taken_live
  obtain ⟨a, n⟩ := id
  simp only [Armed, DueIn, timer?_eq_some] at *
  grind

/-- The start of a batch makes no timer repeat. -/
theorem OneShot.beginBatch {p : κ → Prop} (hone : q.OneShot p) (h : Owned q [] waiting)
    (now : Int) : (q.beginBatch now).2.OneShot p := by
  intro a t ht
  rw [(beginBatch_spec h now).1] at ht
  exact hone _ _ ht

/-- It forgets the cancellations of the batch before it. -/
theorem Uncancelled.beginBatch (hq : q.Uncancelled) (h : Owned q [] waiting) (now : Int) :
    (q.beginBatch now).2.Uncancelled := by
  intro a t ht
  rw [(beginBatch_spec h now).1] at ht
  exact hq _ _ ht

/-- The first due timer is started, and is due no longer. -/
theorem runEntry_spec {e : Entry} {rest : List Entry} (h : Owned q taken waiting)
    (hrest : e :: rest <:+ taken) (hq : q.Uncancelled) :
    ∃ id cb, (q.runEntry e).1 = some cb ∧
      (q.heap.get? e.timer).map (fun t => ⟨e.timer, t.sequence⟩) = some id ∧
      q.DueIn (e :: rest) id cb ∧
      (∀ id' cb', q.DueIn rest id' cb' ↔ q.DueIn (e :: rest) id' cb' ∧ id' ≠ id) ∧
      (∀ a, (q.runEntry e).2.heap.get? a = q.heap.get? a) ∧
      (q.runEntry e).2.activeTimers = q.activeTimers := by
  obtain ⟨x, a⟩ := e
  obtain ⟨t, ht, hexp, -⟩ := h.taken_live (hrest.subset List.mem_cons_self)
  have hnodup : ((⟨x, a⟩ :: rest : List Entry).map Entry.timer).Nodup :=
    h.taken_nodup.sublist (hrest.sublist.map _)
  have hout : ∀ y, (⟨y, a⟩ : Entry) ∉ rest := by
    intro y hy
    exact (List.nodup_cons.mp hnodup).1 (List.mem_map.mpr ⟨_, hy, rfl⟩)
  refine ⟨⟨a, t.sequence⟩, t.callback, ?_, ?_, ?_, ?_, ?_, ?_⟩
  · simp [runEntry, ht, hq _ _ ht]
  · simp [ht]
  · exact ⟨t, timer?_eq_some.mpr ⟨ht, rfl⟩, rfl, by simp [hexp]⟩
  · rintro ⟨b, n⟩ cb'
    simp only [DueIn, timer?_eq_some]
    grind
  · intro b
    simp [runEntry, ht, hq _ _ ht, note]
  · simp [runEntry, ht, hq _ _ ht, note]

/-- One entry of the loop of `reset`: a timer that does not repeat is deleted, the others keep
their place. -/
theorem armed_resetEntry {p : κ → Prop} {e : Entry} (h : Owned q (e :: taken) waiting)
    (hone : q.OneShot p) (hcb : p cb) (now : Int) :
    (resetEntry now q e).Armed id cb ↔ q.Armed id cb := by
  have hactive := @h.active
  obtain ⟨x, a⟩ := e
  obtain ⟨t, ht, hexp, hout⟩ := h.taken_live List.mem_cons_self
  obtain ⟨b, n⟩ := id
  have hdelete : (q.delete a).Armed ⟨b, n⟩ cb ↔ q.Armed ⟨b, n⟩ cb := by
    simp only [Armed, timer?_eq_some, delete, Arena.get?_free]
    grind
  rw [resetEntry]
  split
  · rename_i hnone
    rw [ht] at hnone
    contradiction
  · rename_i t' ht'
    split
    · exact hdelete
    · split
      · exact hdelete
      · split
        · rename_i hrepeat
          have hne : t'.callback ≠ cb := by
            rintro rfl
            rw [hone _ _ ht' hcb] at hrepeat
            contradiction
          have hrestart : (t'.restart now).callback = t'.callback := by
            rw [Timer.restart]
            split <;> rfl
          have hseq := t'.sequence_restart now
          simp only [Armed, timer?_eq_some, putBack, insert, Arena.get?_set,
            Std.ExtTreeSet.mem_insert, Std.LawfulEqOrd.compare_eq_iff_eq]
          grind
        · exact hdelete

/-- What the loop of `reset` keeps of a timer. -/
theorem get?_resetEntry {now : Int} {e : Entry} {a : Addr} {t' : Timer κ}
    (h : (resetEntry now q e).heap.get? a = some t') :
    ∃ t, q.heap.get? a = some t ∧ t'.callback = t.callback ∧ t'.repeat_ = t.repeat_ ∧
      t'.cancelled = t.cancelled ∧ t'.sequence = t.sequence := by
  have hdelete (h : (q.delete e.timer).heap.get? a = some t') : q.heap.get? a = some t' := by
    rw [delete, Arena.get?_free] at h
    split at h
    · contradiction
    · exact h
  rw [resetEntry] at h
  split at h
  · exact ⟨t', h, rfl, rfl, rfl, rfl⟩
  · rename_i t ht
    split at h
    · exact ⟨t', hdelete h, rfl, rfl, rfl, rfl⟩
    · split at h
      · exact ⟨t', hdelete h, rfl, rfl, rfl, rfl⟩
      · split at h
        · rw [putBack, insert, Arena.get?_set] at h
          split at h
          · rename_i he
            subst he
            obtain rfl := Option.some.inj h
            refine ⟨t, ht, ?_⟩
            rw [Timer.restart]
            split <;> exact ⟨rfl, rfl, rfl, rfl⟩
          · exact ⟨t', h, rfl, rfl, rfl, rfl⟩
        · exact ⟨t', hdelete h, rfl, rfl, rfl, rfl⟩

/-- A timer put back repeats, so that it is none of those which do not. -/
theorem OneShot.resetEntry {p : κ → Prop} (hone : q.OneShot p) (now : Int) (e : Entry) :
    (resetEntry now q e).OneShot p := by
  intro a t ht hp
  obtain ⟨u, hu, hcb, hrepeat, -⟩ := get?_resetEntry ht
  rw [hrepeat]
  exact hone _ _ hu (hcb ▸ hp)

/-- To put a timer back cancels nothing. -/
theorem Uncancelled.resetEntry (hq : q.Uncancelled) (now : Int) (e : Entry) :
    (resetEntry now q e).Uncancelled := by
  intro a t ht
  obtain ⟨u, hu, -, -, hcancelled, -⟩ := get?_resetEntry ht
  rw [hcancelled]
  exact hq _ _ hu

/-- The end of a batch arms no timer that does not repeat, and disarms none. -/
theorem endBatch_spec {p : κ → Prop} (h : Owned q taken waiting) (hone : q.OneShot p)
    (hq : q.Uncancelled) (now clock : Int) :
    (∀ id cb, p cb → ((q.endBatch taken now clock).Armed id cb ↔ q.Armed id cb)) ∧
      (q.endBatch taken now clock).OneShot p ∧ (q.endBatch taken now clock).Uncancelled := by
  have hfold (es : List Entry) (q : TimerQueue κ) (h : Owned q es waiting) (hone : q.OneShot p)
      (hq : q.Uncancelled) :
      (∀ id cb, p cb → ((es.foldl (TimerQueue.resetEntry now) q).Armed id cb ↔ q.Armed id cb)) ∧
        (es.foldl (TimerQueue.resetEntry now) q).OneShot p ∧
        (es.foldl (TimerQueue.resetEntry now) q).Uncancelled := by
    induction es generalizing q with
    | nil => exact ⟨fun _ _ _ => Iff.rfl, hone, hq⟩
    | cons e es ih =>
      obtain ⟨harmed, hone', hq'⟩ :=
        ih _ (h.resetEntry now) (hone.resetEntry now e) (hq.resetEntry now e)
      exact ⟨fun id cb hcb => (harmed id cb hcb).trans (armed_resetEntry h hone hcb now),
        hone', hq'⟩
  have := hfold taken { q with handleTimer := false } (h.frame rfl rfl rfl .rfl .rfl) hone hq
  rw [endBatch, reset]
  split
  · exact this
  · exact this

end Batch

/-! ## Ids that have been given out -/

section Issued

variable {q' q'' : TimerQueue κ} {a : Addr} {now clock : Int}

/-- The id was given out for this callback: it is not given out again, and its timer has no other
callback as long as it lives. -/
structure Issued (q : TimerQueue κ) (id : TimerId) (cb : κ) : Prop where
  lt : id.sequence < q.heap.born
  own : ∀ t, q.timer? id = some t → t.callback = cb

/-- Timers keep their callbacks, and new ones get new numbers. -/
structure Keeps (q q' : TimerQueue κ) : Prop where
  born_le : q.heap.born ≤ q'.heap.born
  old : ∀ {a t'}, q'.heap.get? a = some t' → t'.sequence < q.heap.born →
    ∃ t, q.heap.get? a = some t ∧ t'.sequence = t.sequence ∧ t'.callback = t.callback

/-- What two steps keep, both together keep. -/
theorem Keeps.trans (h : Keeps q q') (h' : Keeps q' q'') : Keeps q q'' where
  born_le := h.born_le.trans h'.born_le
  old ht hlt := by
    obtain ⟨t, ht, hseq, hcb⟩ := h'.old ht (hlt.trans_le h.born_le)
    obtain ⟨u, hu, hseq', hcb'⟩ := h.old ht (hseq ▸ hlt)
    exact ⟨u, hu, hseq.trans hseq', hcb.trans hcb'⟩

/-- Operations that leave every timer, or delete it. -/
theorem Keeps.ofDeletes (hborn : q'.heap.born = q.heap.born)
    (h : ∀ {a t}, q'.heap.get? a = some t → q.heap.get? a = some t) : Keeps q q' :=
  ⟨hborn.ge, fun ht _ => ⟨_, h ht, rfl, rfl⟩⟩

/-- A handle that was given out stays given out. -/
theorem Issued.keeps (h : q.Issued id cb) (hk : Keeps q q') : q'.Issued id cb where
  lt := h.lt.trans_le hk.born_le
  own t ht := by
    obtain ⟨ht, hseq⟩ := timer?_eq_some.mp ht
    obtain ⟨u, hu, hseq', hcb⟩ := hk.old ht (hseq ▸ h.lt)
    exact hcb.trans (h.own u (timer?_eq_some.mpr ⟨hu, hseq'.symm.trans hseq⟩))

/-- A handle is armed only for the callback for which it was given out. -/
theorem Issued.of_armed (h : q.Issued id cb) {c : κ} (harmed : q.Armed id c) : c = cb := by
  obtain ⟨⟨t, ht, rfl⟩, -⟩ := harmed
  exact h.own t ht

/-- An addition keeps every timer that was there, and its number. -/
theorem keeps_add {when_ : Int} {interval : Interval} (h : q.heap.get? a = none) :
    Keeps q (q.add cb when_ interval a h now) where
  born_le := by
    rw [add, addTimerInLoop]
    split
    · exact Nat.le_succ _
    · dsimp only
      split <;> exact Nat.le_succ _
  old ht hlt := by
    rw [get?_add] at ht
    split at ht
    · obtain rfl := Option.some.inj ht
      exact absurd hlt (Nat.lt_irrefl _)
    · exact ⟨_, ht, rfl, rfl⟩

/-- The id of a new timer is given out for its callback. -/
theorem issued_add {when_ : Int} {interval : Interval} (h : q.heap.get? a = none) :
    (q.add cb when_ interval a h now).Issued ⟨a, q.heap.born⟩ cb where
  lt := by
    rw [add, addTimerInLoop]
    split
    · exact Nat.lt_succ_self _
    · dsimp only
      split <;> exact Nat.lt_succ_self _
  own t ht := by
    obtain ⟨ht, -⟩ := timer?_eq_some.mp ht
    rw [get?_add, if_pos rfl] at ht
    obtain rfl := Option.some.inj ht
    rfl

/-- A cancellation gives no number away. -/
theorem keeps_cancelInLoop (id : TimerId) : Keeps q (q.cancelInLoop id) := by
  rw [cancelInLoop]
  split
  · split
    · exact .ofDeletes rfl fun h => h
    · refine .ofDeletes Arena.born_free fun ht => ?_
      rw [delete, Arena.get?_free] at ht
      split at ht
      · contradiction
      · exact ht
  · split <;> exact .ofDeletes rfl fun h => h

/-- Nor does the start of a batch. -/
theorem keeps_beginBatch (now : Int) : Keeps q (q.beginBatch now).2 := by
  have hfold (es : List Entry) (q : TimerQueue κ) : Keeps q (es.foldl deactivate q) := by
    induction es generalizing q with
    | nil => exact .ofDeletes rfl fun h => h
    | cons e es ih =>
      refine Keeps.trans ?_ (ih _)
      rw [deactivate]
      split <;> exact .ofDeletes rfl fun h => h
  obtain ⟨hborn, hold⟩ := hfold
    ({ q with timerfd := q.timerfd.read, handleTimer := true }.expiredEntries now)
    { q with timerfd := q.timerfd.read, handleTimer := true }
  exact ⟨hborn, hold⟩

/-- Nor does a callback's start. -/
theorem keeps_runEntry (e : Entry) : Keeps q (q.runEntry e).2 := by
  rw [runEntry]
  split
  · exact .ofDeletes rfl fun h => h
  · split <;> exact .ofDeletes rfl fun h => h

/-- A timer put back keeps its number. -/
theorem born_resetEntry (now : Int) (e : Entry) :
    (resetEntry now q e).heap.born = q.heap.born := by
  rw [resetEntry]
  split
  · rfl
  · split
    · exact Arena.born_free
    · split
      · exact Arena.born_free
      · split
        · rfl
        · exact Arena.born_free

/-- Nor does the end of a batch. -/
theorem keeps_endBatch (expired : List Entry) (now clock : Int) :
    Keeps q (q.endBatch expired now clock) := by
  have hfold (es : List Entry) (q : TimerQueue κ) : Keeps q (es.foldl (resetEntry now) q) := by
    induction es generalizing q with
    | nil => exact .ofDeletes rfl fun h => h
    | cons e es ih =>
      refine Keeps.trans ⟨(born_resetEntry now e).ge, fun ht _ => ?_⟩ (ih _)
      obtain ⟨t, ht, hcb, -, -, hseq⟩ := get?_resetEntry ht
      exact ⟨t, ht, hseq, hcb⟩
  obtain ⟨hborn, hold⟩ := hfold expired { q with handleTimer := false }
  rw [endBatch, reset]
  split <;> exact ⟨hborn, hold⟩

end Issued

end TimerQueue

/-! ## The loop -/

namespace TimerLoop

variable {s s' : TimerLoop κ} {id : TimerId} {cb : κ} {p : κ → Prop}

/-- The timer of the id is in the queue. -/
def Armed (s : TimerLoop κ) (id : TimerId) (cb : κ) : Prop := s.queue.Armed id cb

/-- The timer of the id is in the batch in progress, and has not been started. -/
def Due (s : TimerLoop κ) (id : TimerId) (cb : κ) : Prop := s.queue.DueIn s.rest id cb

/-- The books of the queue are in order, and timers with the callbacks `p` do not repeat. -/
structure Tidy (s : TimerLoop κ) (p : κ → Prop) : Prop where
  inv : s.Inv
  oneShot : s.queue.OneShot p
  uncancelled : s.queue.Uncancelled

/-- A new queue is tidy. -/
theorem tidy_init (clock : Int) (p : κ → Prop) : Tidy ({ clock } : TimerLoop κ) p where
  inv := inv_init clock
  oneShot _ _ h := by simp [Arena.empty, Arena.get?] at h
  uncancelled _ _ h := by simp [Arena.empty, Arena.get?] at h

/-- It has no timer. -/
theorem not_armed_init (clock : Int) : ¬({ clock } : TimerLoop κ).Armed id cb := by
  rintro ⟨⟨t, ht, -⟩, -⟩
  simp [TimerQueue.timer?, Arena.empty, Arena.get?] at ht

/-- Outside a batch nothing is due. -/
theorem not_due_of_batch (hb : s.batch = none) : ¬s.Due id cb := by
  rintro ⟨t, -, -, ht⟩
  simp [rest, hb] at ht

variable (h : s.Tidy p)
include h

/-- A timer due in the batch is not armed. -/
theorem Tidy.not_armed_of_due (hdue : s.Due id cb) (c : κ) : ¬s.Armed id c :=
  TimerQueue.not_armed_of_dueIn h.inv.owned (fun _ he => h.inv.rest_suffix.subset he) hdue c

/-- `addTimer` in the loop thread, anywhere in it. -/
theorem Tidy.add {when_ : Int} {interval : Interval} {a : Addr} (ha : s.AddressOk a)
    (hp : p cb → interval.positive = false) :
    Tidy { s with queue := s.queue.add cb when_ interval a ha.free s.clock } p where
  inv :=
    ⟨(h.inv.owned.addTimer _ _ _ ha.free ha.lt).addTimerInLoop _,
      by simpa [TimerQueue.add] using h.inv.handle, h.inv.rest_suffix⟩
  oneShot := h.oneShot.add ha.free hp
  uncancelled := h.uncancelled.add ha.free

/-- An addition makes nothing due. -/
theorem Tidy.due_add {when_ : Int} {interval : Interval} {a : Addr} (ha : s.AddressOk a)
    (c : κ) : Due { s with queue := s.queue.add cb when_ interval a ha.free s.clock } id c ↔
      s.Due id c :=
  TimerQueue.dueIn_add h.inv.owned (fun _ he => h.inv.rest_suffix.subset he) ha.free c

/-- `cancel` in the loop thread, anywhere in it. -/
theorem Tidy.cancelInLoop (id : TimerId) :
    Tidy { s with queue := s.queue.cancelInLoop id } p where
  inv := ⟨h.inv.owned.cancelInLoop _, by simpa using h.inv.handle, h.inv.rest_suffix⟩
  oneShot := h.oneShot.cancelInLoop h.inv.owned id
  uncancelled := h.uncancelled.cancelInLoop h.inv.owned id

/-- A cancellation disarms its own timer only. -/
theorem Tidy.armed_cancelInLoop (id' : TimerId) :
    Armed { s with queue := s.queue.cancelInLoop id' } id cb ↔ s.Armed id cb ∧ id ≠ id' :=
  TimerQueue.armed_cancelInLoop h.inv.owned id'

/-- It takes nothing out of the batch under way. -/
theorem Tidy.due_cancelInLoop (id' : TimerId) :
    Due { s with queue := s.queue.cancelInLoop id' } id cb ↔ s.Due id cb :=
  TimerQueue.dueIn_cancelInLoop h.inv.owned (fun _ he => h.inv.rest_suffix.subset he) id'

/-- Time passes. -/
theorem Tidy.tick {micros : Nat} (hstep : s.step (.tick micros) = some s') : s'.Tidy p ∧
    (∀ id cb, s'.Armed id cb ↔ s.Armed id cb) ∧ ∀ id cb, s'.Due id cb ↔ s.Due id cb := by
  have hinv := h.inv.moves (moves_of_step hstep)
  obtain rfl := Option.some.inj hstep
  exact ⟨⟨hinv, h.oneShot, h.uncancelled⟩, fun _ _ => Iff.rfl, fun _ _ => Iff.rfl⟩

/-- A batch begins: what was armed is armed or due. -/
theorem Tidy.handleRead (hstep : s.step .handleRead = some s') : s'.Tidy p ∧
    (∀ id cb, s.Armed id cb ↔ s'.Armed id cb ∨ s'.Due id cb) ∧
    s.batch = none ∧ s'.batch.isSome := by
  have hmoves := moves_of_step hstep
  have hinv := h.inv.moves hmoves
  cases hmoves with
  | handleRead hb =>
    have howned := h.inv.owned
    rw [expired, hb] at howned
    exact ⟨⟨hinv, h.oneShot.beginBatch howned _, h.uncancelled.beginBatch howned _⟩,
      fun id cb => TimerQueue.armed_beginBatch howned s.clock, hb, rfl⟩

/-- The next due timer is started. -/
theorem Tidy.nextEntry {now : Int} {es : List Entry} {e : Entry} {rest : List Entry}
    (hb : s.batch = some ⟨now, es, e :: rest, false⟩) (hstep : s.step .nextEntry = some s') :
    ∃ id cb, (s.queue.runEntry e).1 = some cb ∧
      (s.queue.heap.get? e.timer).map (fun t => ⟨e.timer, t.sequence⟩) = some id ∧
      s.Due id cb ∧ s'.Tidy p ∧
      (∀ id' cb', s'.Armed id' cb' ↔ s.Armed id' cb') ∧
      (∀ id' cb', s'.Due id' cb' ↔ s.Due id' cb' ∧ id' ≠ id) ∧
      s'.batch = some ⟨now, es, rest, true⟩ := by
  have hinv := h.inv.moves (moves_of_step hstep)
  have howned := h.inv.owned
  have hsuffix := h.inv.rest_suffix
  rw [expired, hb] at howned
  rw [TimerLoop.rest, expired, hb] at hsuffix
  obtain ⟨id, cb, hrun, hid, hdue, hrest, hget, hactive⟩ :=
    TimerQueue.runEntry_spec howned hsuffix h.uncancelled
  simp only [step, hb, Option.some.injEq] at hstep
  subst hstep
  refine ⟨id, cb, hrun, hid, ?_, ⟨hinv, ?_, ?_⟩, ?_, ?_, ?_⟩
  · rwa [Due, TimerLoop.rest, hb]
  · intro a t ht
    rw [hget] at ht
    exact h.oneShot _ _ ht
  · intro a t ht
    rw [hget] at ht
    exact h.uncancelled _ _ ht
  · exact fun _ _ => TimerQueue.armed_congr hget fun k => by rw [hactive]
  · intro id' cb'
    rw [Due, TimerQueue.dueIn_congr hget, Due, TimerLoop.rest, TimerLoop.rest, hb]
    exact hrest id' cb'
  · rw [hrun]
    rfl

/-- The return of a callback arms nothing. -/
theorem Tidy.callbackReturns (hstep : s.step .callbackReturns = some s') : s'.Tidy p ∧
    (∀ id cb, s'.Armed id cb ↔ s.Armed id cb) ∧ ∀ id cb, s'.Due id cb ↔ s.Due id cb := by
  have hmoves := moves_of_step hstep
  have hinv := h.inv.moves hmoves
  cases hmoves with
  | callbackReturns hb =>
    refine ⟨⟨hinv, h.oneShot, h.uncancelled⟩, fun _ _ => Iff.rfl, fun _ _ => ?_⟩
    rw [Due, Due, TimerLoop.rest, TimerLoop.rest, hb]

/-- A batch ends: nothing is due, and timers that do not repeat are armed as they were. -/
theorem Tidy.endBatch (hstep : s.step .endBatch = some s') : s'.Tidy p ∧
    (∀ id cb, p cb → (s'.Armed id cb ↔ s.Armed id cb)) ∧ (∀ id cb, ¬s.Due id cb) ∧
    s'.batch = none := by
  have hmoves := moves_of_step hstep
  have hinv := h.inv.moves hmoves
  cases hmoves with
  | endBatch hb =>
    have howned := h.inv.owned
    rw [expired, hb] at howned
    obtain ⟨harmed, hone, hq⟩ := TimerQueue.endBatch_spec howned h.oneShot h.uncancelled _ s.clock
    refine ⟨⟨hinv, hone, hq⟩, harmed, ?_, rfl⟩
    rintro id cb ⟨t, -, -, ht⟩
    simp [TimerLoop.rest, hb] at ht

/-- What cancelling the timers of some ids does. -/
structure Cancelled (s : TimerLoop κ) (p : κ → Prop) (ids : TimerId → Prop)
    (s' : TimerLoop κ) : Prop where
  tidy : s'.Tidy p
  keeps : s.queue.Keeps s'.queue
  batch : s'.batch = s.batch
  address : ∀ {a}, s.AddressOk a → s'.AddressOk a
  armed : ∀ id cb, s'.Armed id cb ↔ s.Armed id cb ∧ ¬ids id
  due : ∀ id cb, s'.Due id cb ↔ s.Due id cb

/-- What a new timer does. -/
structure Added (s : TimerLoop κ) (p : κ → Prop) (id : TimerId) (cb : κ)
    (s' : TimerLoop κ) : Prop where
  tidy : s'.Tidy p
  keeps : s.queue.Keeps s'.queue
  batch : s'.batch = s.batch
  issued : s'.queue.Issued id cb
  armed : ∀ id' c, s'.Armed id' c ↔ (id' = id ∧ c = cb) ∨ s.Armed id' c
  due : ∀ id' c, s'.Due id' c ↔ s.Due id' c

/-- Nothing changes where nothing is cancelled. -/
theorem Tidy.cancelled_none {ids : TimerId → Prop} (hids : ∀ id, ¬ids id) :
    s.Cancelled p ids s where
  tidy := h
  keeps := .ofDeletes rfl fun ht => ht
  batch := rfl
  address ha := ha
  armed id cb := by simp [hids id]
  due id cb := Iff.rfl

/-- One cancellation disarms its timer. -/
theorem Tidy.cancelled (id : TimerId) :
    s.Cancelled p (id = ·) { s with queue := s.queue.cancelInLoop id } where
  tidy := h.cancelInLoop id
  keeps := TimerQueue.keeps_cancelInLoop id
  batch := rfl
  address ha := by
    refine ⟨?_, ha.pos, ha.lt⟩
    change (s.queue.cancelInLoop id).heap.get? _ = none
    rw [TimerQueue.get?_cancelInLoop h.inv.owned]
    split
    · rfl
    · exact ha.free
  armed id' cb := (h.armed_cancelInLoop id).trans (and_congr_right' ne_comm)
  due id' cb := h.due_cancelInLoop id

omit h in
/-- Cancellations one behind the other disarm the timers of both. -/
theorem Cancelled.trans {ids ids' : TimerId → Prop} {s'' : TimerLoop κ}
    (hc : s.Cancelled p ids s') (hc' : s'.Cancelled p ids' s'') :
    s.Cancelled p (fun id => ids id ∨ ids' id) s'' where
  tidy := hc'.tidy
  keeps := hc.keeps.trans hc'.keeps
  batch := hc'.batch.trans hc.batch
  address ha := hc'.address (hc.address ha)
  armed id cb := by rw [hc'.armed, hc.armed, not_or, and_assoc]
  due id cb := (hc'.due id cb).trans (hc.due id cb)

/-- One addition arms its timer. -/
theorem Tidy.added {when_ : Int} {interval : Interval} {a : Addr} (ha : s.AddressOk a)
    (hp : p cb → interval.positive = false) :
    s.Added p ⟨a, s.queue.heap.born⟩ cb
      { s with queue := s.queue.add cb when_ interval a ha.free s.clock } where
  tidy := h.add ha hp
  keeps := TimerQueue.keeps_add ha.free
  batch := rfl
  issued := TimerQueue.issued_add ha.free
  armed id' c := TimerQueue.armed_add ha.free c
  due id' c := h.due_add ha c

omit h in
/-- Whatever the loop thread does, ids that have been given out stay so. -/
theorem keeps_of_step {a : Action κ} (hstep : s.step a = some s') :
    s.queue.Keeps s'.queue := by
  cases moves_of_step hstep with
  | addTimer ha hu => exact TimerQueue.keeps_add ha.free
  | cancel hu => exact TimerQueue.keeps_cancelInLoop _
  | addTimerElsewhere ha =>
    refine ⟨Nat.le_succ _, fun ht hlt => ?_⟩
    rw [TimerQueue.get?_addTimer] at ht
    split at ht
    · obtain rfl := Option.some.inj ht
      exact absurd hlt (Nat.lt_irrefl _)
    · exact ⟨_, ht, rfl, rfl⟩
  | cancelElsewhere => exact .ofDeletes rfl fun h => h
  | @runFunctor f fs hb hf =>
    cases f with
    | addTimerInLoop timer =>
      rw [runFunctor, TimerQueue.addTimerInLoop]
      split
      · exact .ofDeletes rfl fun h => h
      · dsimp only
        split <;> exact .ofDeletes rfl fun h => h
    | cancelInLoop id => exact TimerQueue.keeps_cancelInLoop _
  | handleRead hb => exact TimerQueue.keeps_beginBatch _
  | nextEntry hb => exact TimerQueue.keeps_runEntry _
  | callbackReturns hb => exact .ofDeletes rfl fun h => h
  | endBatch hb => exact TimerQueue.keeps_endBatch _ _ _
  | tick => exact .ofDeletes rfl fun h => h

end TimerLoop

end ClearMoon.Timer

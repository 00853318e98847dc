import ClearMoon.Timer.Batch

/-!
# When a timer expires

A timer that does not repeat keeps the expiration it was made with, until it is started or
cancelled; and the loop starts no timer before the clock has reached its expiration. So whoever
makes the timers of a callback at known times knows the times at which they may be started.
-/

namespace ClearMoon.Timer

variable {κ : Type}

namespace TimerQueue

variable {q q' : TimerQueue κ} {p : κ → Prop}

/-- Timers with such callbacks that are not new are as they were. -/
def Spares (q : TimerQueue κ) (p : κ → Prop) (q' : TimerQueue κ) : Prop :=
  ∀ a t, q'.heap.get? a = some t → t.sequence < q.heap.born → p t.callback →
    q.heap.get? a = some t

/-- To do nothing spares every timer. -/
theorem Spares.refl (q : TimerQueue κ) (p : κ → Prop) : q.Spares p q :=
  fun _ _ ht _ _ => ht

/-- What two steps spare, both together spare. -/
theorem Spares.trans {q'' : TimerQueue κ} (h : q.Spares p q') (hk : q.Keeps q')
    (h' : q'.Spares p q'') : q.Spares p q'' :=
  fun a t ht hlt hp => h a t (h' a t ht (hlt.trans_le hk.born_le) hp) hlt hp

/-- An addition moves no timer that was there. -/
theorem spares_add {cb : κ} {when_ now : Int} {interval : Interval} {a : Addr}
    (h : q.heap.get? a = none) : q.Spares p (q.add cb when_ interval a h now) := by
  intro b t ht hlt _
  rw [get?_add] at ht
  split at ht
  · obtain rfl := Option.some.inj ht
    exact absurd hlt (Nat.lt_irrefl _)
  · exact ht

/-- A cancellation moves none of those it leaves. -/
theorem spares_cancelInLoop {taken : List Entry} {waiting : List Addr}
    (h : Owned q taken waiting) (id : TimerId) : q.Spares p (q.cancelInLoop id) := by
  intro a t ht _ _
  rw [get?_cancelInLoop h] at ht
  split at ht
  · contradiction
  · exact ht

/-- The loop of `reset` deletes timers that do not repeat, and alters none of them. -/
theorem spares_resetEntry (hone : q.OneShot p) (now : Int) (e : Entry) :
    q.Spares p (resetEntry now q e) := by
  intro a t ht _ hp
  have hdelete (h : (q.delete e.timer).heap.get? a = some t) : q.heap.get? a = some t := by
    rw [delete, Arena.get?_free] at h
    split at h
    · contradiction
    · exact h
  rw [resetEntry] at ht
  split at ht
  · exact ht
  · rename_i u hu
    split at ht
    · exact hdelete ht
    · split at ht
      · exact hdelete ht
      · split at ht
        · rename_i hrepeat
          rw [putBack, insert, Arena.get?_set] at ht
          split at ht
          · obtain rfl := Option.some.inj ht
            have hcb : (u.restart now).callback = u.callback := by
              rw [Timer.restart]
              split <;> rfl
            rw [hone _ _ hu (hcb ▸ hp)] at hrepeat
            contradiction
          · exact ht
        · exact hdelete ht

/-- The end of a batch restarts only the timers that repeat. -/
theorem spares_endBatch (hone : q.OneShot p) (expired : List Entry) (now clock : Int) :
    q.Spares p (q.endBatch expired now clock) := by
  have hfold (es : List Entry) (q : TimerQueue κ) (hone : q.OneShot p) :
      q.Spares p (es.foldl (resetEntry now) q) := by
    induction es generalizing q with
    | nil => exact Spares.refl q p
    | cons e es ih =>
      refine Spares.trans (spares_resetEntry hone now e) ?_ (ih _ (hone.resetEntry now e))
      refine ⟨(born_resetEntry now e).ge, fun ht _ => ?_⟩
      obtain ⟨t, ht, hcb, -, -, hseq⟩ := get?_resetEntry ht
      exact ⟨t, ht, hseq, hcb⟩
  have := hfold expired { q with handleTimer := false } hone
  rw [endBatch, reset]
  split
  · exact this
  · exact this

end TimerQueue

namespace TimerLoop

variable {s s' : TimerLoop κ} {id : TimerId} {cb : κ} {p : κ → Prop} {P : Int → Prop}

/-- The timer of the id has not been started. -/
def Standing (s : TimerLoop κ) (id : TimerId) (cb : κ) : Prop := s.Armed id cb ∨ s.Due id cb

/-- The timers of the callback that have not been started expire at such times. -/
def Expires (s : TimerLoop κ) (cb : κ) (P : Int → Prop) : Prop :=
  ∀ id t, s.Standing id cb → s.queue.timer? id = some t → P t.expiration

/-- What is due has expired. -/
def Punctual (s : TimerLoop κ) : Prop := ∀ e ∈ s.rest, e.expiration ≤ s.clock

/-- A standing timer has its cell, with its callback. -/
theorem Standing.live (h : s.Standing id cb) :
    ∃ t, s.queue.timer? id = some t ∧ t.callback = cb := by
  rcases h with ⟨ht, -⟩ | ⟨t, ht, hcb, -⟩
  · exact ht
  · exact ⟨t, ht, hcb⟩

/-- No timer of the callback is new, and none is altered. -/
theorem Expires.spares (h : s.Expires cb P) (hp : p cb) (hs : s.queue.Spares p s'.queue)
    (hsub : ∀ id, s'.Standing id cb → s.Standing id cb) : s'.Expires cb P := by
  intro id t hstanding ht
  obtain ⟨u, hu, hcb⟩ := (hsub id hstanding).live
  obtain ⟨ht', hseq⟩ := TimerQueue.timer?_eq_some.mp ht
  obtain ⟨hu, hseq'⟩ := TimerQueue.timer?_eq_some.mp hu
  have hlt : t.sequence < s.queue.heap.born := by
    rw [hseq, ← hseq']
    exact s.queue.heap.serial_lt hu
  have hcb' : t.callback = cb := by
    obtain ⟨t', ht'', hcb'⟩ := hstanding.live
    obtain rfl := Option.some.inj (ht.symm.trans ht'')
    exact hcb'
  exact h id t (hsub id hstanding)
    (TimerQueue.timer?_eq_some.mpr ⟨hs _ _ ht' hlt (hcb' ▸ hp), hseq⟩)

/-- Nothing stands at the start. -/
theorem not_standing_init (clock : Int) : ¬({ clock } : TimerLoop κ).Standing id cb := by
  rintro (harmed | hdue)
  · exact not_armed_init clock harmed
  · exact not_due_of_batch rfl hdue

/-- Without a batch there is nothing to be late. -/
theorem punctual_init (clock : Int) : Punctual ({ clock } : TimerLoop κ) := nofun

/-- Outside a batch a timer that has not been started is armed. -/
theorem standing_iff (hb : s.batch = none) : s.Standing id cb ↔ s.Armed id cb :=
  or_iff_left (not_due_of_batch hb)

/-- Punctuality is read off the batch and the clock. -/
theorem Punctual.congr (h : s.Punctual) (hbatch : s'.batch = s.batch)
    (hclock : s'.clock = s.clock) :
    s'.Punctual := by
  rw [Punctual, rest, hbatch, hclock]
  exact h

/-- Batches begin with what has expired, and time does not go back. -/
theorem Punctual.step {a : Action κ} (h : s.Punctual) (hinv : s.Inv) (hstep : s.step a = some s') :
    s'.Punctual := by
  cases moves_of_step hstep with
  | handleRead hb =>
    intro e he
    have howned : Timer.Owned { s.queue with
        timerfd := s.queue.timerfd.read, handleTimer := true } s.expired s.queued :=
      hinv.owned.frame rfl rfl rfl .rfl .rfl
    exact ((TimerQueue.mem_expiredEntries howned s.clock e).mp he).2
  | @nextEntry now expired e rest hb =>
    intro f hf
    refine h f ?_
    rw [TimerLoop.rest, hb]
    exact List.mem_cons_of_mem e hf
  | callbackReturns hb =>
    rw [Punctual, TimerLoop.rest, hb] at h
    exact h
  | endBatch hb => simp [Punctual, TimerLoop.rest]
  | @tick micros => exact fun e he => (h e he).trans (by simp)
  | addTimer ha hu => exact h
  | cancel hu => exact h
  | addTimerElsewhere ha => exact h
  | cancelElsewhere => exact h
  | runFunctor hb hf => exact h

/-- Whatever the loop thread does, timers that do not repeat are not altered. -/
theorem Tidy.spares {a : Action κ} (h : s.Tidy p) (hstep : s.step a = some s') :
    s.queue.Spares p s'.queue := by
  have howned := h.inv.owned
  cases moves_of_step hstep with
  | addTimer ha hu => exact TimerQueue.spares_add ha.free
  | cancel hu => exact TimerQueue.spares_cancelInLoop howned _
  | addTimerElsewhere ha =>
    intro b t ht hlt _
    rw [TimerQueue.get?_addTimer] at ht
    split at ht
    · obtain rfl := Option.some.inj ht
      exact absurd hlt (Nat.lt_irrefl _)
    · exact ht
  | cancelElsewhere => exact .refl _ p
  | @runFunctor f fs hb hf =>
    cases f with
    | addTimerInLoop timer =>
      rw [runFunctor, TimerQueue.addTimerInLoop]
      split
      · exact fun _ _ ht _ _ => ht
      · dsimp only
        split
        · exact fun _ _ ht _ _ => ht
        · exact fun _ _ ht _ _ => ht
    | cancelInLoop id => exact TimerQueue.spares_cancelInLoop howned _
  | handleRead hb =>
    rw [expired, hb] at howned
    intro a t ht _ _
    rwa [(TimerQueue.beginBatch_spec howned s.clock).1] at ht
  | @nextEntry now expired e rest hb =>
    rw [TimerQueue.runEntry]
    split
    · exact fun _ _ ht _ _ => ht
    · split
      · exact .refl _ p
      · exact fun _ _ ht _ _ => ht
  | callbackReturns hb => exact .refl _ p
  | endBatch hb => exact TimerQueue.spares_endBatch h.oneShot _ _ _
  | tick => exact fun _ _ ht _ _ => ht

/-- A timer is started when it has expired. -/
theorem Punctual.expired (h : s.Punctual) (hdue : s.Due id cb) :
    ∃ t, s.queue.timer? id = some t ∧ t.expiration ≤ s.clock := by
  obtain ⟨t, ht, -, hmem⟩ := hdue
  exact ⟨t, ht, h _ hmem⟩

end TimerLoop

end ClearMoon.Timer

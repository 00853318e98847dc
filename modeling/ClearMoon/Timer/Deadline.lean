import ClearMoon.Timer.Machine

/-!
# No timer is forgotten

Between operations the timerfd has expired, or it runs until a time that is early enough for every
timer of the queue. An insertion sets it only for a new earliest timer and a cancellation never
does, so the invariant speaks of all timers and not of the earliest: what is early enough for one
timer is early enough for every later one. During a batch the timerfd may be off; the end of the
batch sets it again.
-/

namespace ClearMoon.Timer

variable {κ : Type}

/-! ## Setting the timerfd -/

/-- The value passed to `timerfd_settime` is valid, is not zero, and denotes the time to go, at
least a tenth of a millisecond. -/
theorem howMuchTimeFromNow_spec (when_ now : Int) :
    (howMuchTimeFromNow when_ now).valid ∧ howMuchTimeFromNow when_ now ≠ ⟨0, 0⟩ ∧
      (howMuchTimeFromNow when_ now).micros = max 100 (when_ - now) := by
  have hmicro : (if when_ - now < 100 then 100 else when_ - now) = max 100 (when_ - now) := by
    split <;> omega
  simp only [howMuchTimeFromNow, hmicro, Timespec.valid, Timespec.micros, ne_eq,
    Timespec.mk.injEq]
  omega

/-- The time of the last call of `resetTimerFd`. -/
def lastReset (log : List TimerEvent) : Option Int :=
  (log.filterMap fun
    | .reset now => some now
    | _ => none).getLast?

/-- The last reset is the last one of the log. -/
@[simp] theorem lastReset_append_reset (log : List TimerEvent) (now : Int) :
    lastReset (log ++ [.reset now]) = some now := by
  simp [lastReset]

/-- No other event counts as a reset. -/
theorem lastReset_append {log : List TimerEvent} {e : TimerEvent} (he : ∀ now, e ≠ .reset now) :
    lastReset (log ++ [e]) = lastReset log := by
  cases e with
  | reset now => exact absurd rfl (he now)
  | _ => simp [lastReset]

namespace TimerQueue

/-- The timerfd has expired, or is armed with a valid setting that runs out early enough for a
timer of this expiration. -/
def Covers (q : TimerQueue κ) (expiration : Int) : Prop :=
  q.timerfd.readable = true ∨ ∃ value deadline last,
    q.timerfd.armed = some (value, deadline) ∧ value.valid ∧ value ≠ ⟨0, 0⟩ ∧
      lastReset q.log = some last ∧ deadline ≤ max expiration (last + 100)

variable {q q' : TimerQueue κ} {x y : Int}

/-- What is early enough for one timer is early enough for a later one. -/
theorem Covers.mono (h : q.Covers x) (hxy : x ≤ y) : q.Covers y := by
  rcases h with h | ⟨value, deadline, last, harmed, hvalid, hzero, hlast, hle⟩
  · exact .inl h
  · exact .inr ⟨value, deadline, last, harmed, hvalid, hzero, hlast, by omega⟩

/-- What covers a timer stays while neither the descriptor nor the last reset changes. -/
theorem Covers.frame (h : q.Covers x) (hfd : q'.timerfd = q.timerfd)
    (hlast : lastReset q'.log = lastReset q.log) : q'.Covers x := by
  rwa [Covers, hfd, hlast]

/-- Setting the timerfd covers the timer it is set for. -/
theorem covers_resetTimerFd (q : TimerQueue κ) (expiration now : Int) :
    (q.resetTimerFd expiration now).Covers expiration := by
  obtain ⟨hvalid, hzero, hmicros⟩ := howMuchTimeFromNow_spec expiration now
  refine .inr ⟨howMuchTimeFromNow expiration now,
    now + (howMuchTimeFromNow expiration now).micros, now, ?_, hvalid, hzero,
    lastReset_append_reset _ _, by omega⟩
  simp only [resetTimerFd, note, TimerFd.settime, hvalid, not_true_eq_false, ite_false,
    if_neg hzero]

/-- Time only makes the timerfd expire. -/
theorem Covers.elapse (h : q.Covers x) (now : Int) :
    ({ q with timerfd := q.timerfd.elapse now } : TimerQueue κ).Covers x := by
  rcases h with h | ⟨value, deadline, last, harmed, hvalid, hzero, hlast, hle⟩
  · left
    dsimp only [TimerFd.elapse]
    split
    · split
      · rfl
      · exact h
    · exact h
  · by_cases hpast : deadline ≤ now
    · exact .inl (by simp only [TimerFd.elapse, harmed, if_pos hpast])
    · refine .inr ⟨value, deadline, last, ?_, hvalid, hzero, hlast, hle⟩
      simp only [TimerFd.elapse, harmed, if_neg hpast]

/-! ## The earliest timer -/

/-- Where there is no first timer there is none. -/
theorem notMem_of_first?_eq_none (h : q.first? = none) (e : Entry) : e ∉ q.timers := by
  rw [first?, List.head?_eq_none_iff, Std.ExtTreeSet.toList_eq_nil_iff] at h
  rw [h]
  exact Std.ExtTreeSet.not_mem_empty

/-- `timers_.begin()` is a timer of the queue, and no timer expires before it. -/
theorem first?_le {first : Entry} (h : q.first? = some first) :
    first ∈ q.timers ∧ ∀ e ∈ q.timers, first.expiration ≤ e.expiration := by
  rw [first?, ← Std.ExtTreeSet.min?_eq_head?_toList,
    Std.ExtTreeSet.min?_eq_some_iff_mem_and_forall] at h
  refine ⟨h.1, fun e he => ?_⟩
  have hle := h.2 e he
  rw [Entry.compare_eq] at hle
  exact Int.isLE_compare.mp (Ordering.isLE_left_of_isLE_then hle)

/-! ## The operations -/

/-- Every timer of the queue is covered. -/
def AllCovered (q : TimerQueue κ) : Prop := ∀ e ∈ q.timers, q.Covers e.expiration

/-- An addition resets the descriptor when the new timer is the earliest, so all stay covered. -/
theorem AllCovered.addTimerInLoop (h : q.AllCovered) (timer : Addr) (now : Int) :
    (q.addTimerInLoop timer now).AllCovered := by
  rw [TimerQueue.addTimerInLoop]
  split
  · exact h
  · rename_i t ht
    dsimp only
    have hmem (e : Entry) : e ∈ ((q.insert t timer).note (.inserted t.sequence)).timers →
        e.expiration = t.expiration ∨ e ∈ q.timers := by
      intro he
      rcases Std.ExtTreeSet.mem_insert.mp he with heq | he
      · rw [Std.LawfulEqOrd.compare_eq_iff_eq] at heq
        exact .inl (heq ▸ rfl)
      · exact .inr he
    split
    · -- the timerfd is set for the new timer, which is the earliest
      rename_i hearliest
      intro e he
      refine (covers_resetTimerFd _ _ _).mono ?_
      rcases hmem e he with hx | he
      · exact hx.ge
      · rw [isEarliest] at hearliest
        split at hearliest
        · rename_i hfirst
          exact absurd he (notMem_of_first?_eq_none hfirst e)
        · rename_i first hfirst
          have := (first?_le hfirst).2 e he
          have := of_decide_eq_true hearliest
          omega
    · -- a timer that is not later is covered already
      rename_i hearliest
      have hlast : lastReset (q.log ++ [.inserted t.sequence]) = lastReset q.log :=
        lastReset_append (by simp)
      intro e he
      rcases hmem e he with hx | he
      · rw [isEarliest] at hearliest
        split at hearliest
        · contradiction
        · rename_i first hfirst
          have hle : first.expiration ≤ t.expiration := by simpa using hearliest
          exact ((h first (first?_le hfirst).1).mono (hx ▸ hle)).frame rfl hlast
      · exact (h e he).frame rfl hlast

/-- A cancellation leaves the descriptor armed no later than before. -/
theorem AllCovered.cancelInLoop (h : q.AllCovered) (id : TimerId) :
    (q.cancelInLoop id).AllCovered := by
  have hlast : lastReset (q.log ++ [.cancelled id]) = lastReset q.log := lastReset_append (by simp)
  rw [TimerQueue.cancelInLoop]
  split
  · split
    · exact fun e he => (h e he).frame rfl hlast
    · exact fun e he => (h e (Std.ExtTreeSet.mem_erase.mp he).2).frame rfl hlast
  · split
    · exact fun e he => (h e he).frame rfl hlast
    · exact fun e he => (h e he).frame rfl hlast

/-- The end of a batch covers whatever the queue holds by then. -/
theorem allCovered_endBatch (q : TimerQueue κ) (expired : List Entry) (now clock : Int) :
    (q.endBatch expired now clock).AllCovered := by
  have hreset (q : TimerQueue κ) : (q.reset expired now clock).AllCovered := by
    rw [reset]
    split
    · rename_i hfirst
      exact fun e he => absurd he (notMem_of_first?_eq_none hfirst e)
    · rename_i first hfirst
      exact fun e he => (covers_resetTimerFd _ _ _).mono ((first?_le hfirst).2 e he)
  exact fun e he => (hreset _ e he).frame rfl rfl

end TimerQueue

/-! ## Runs -/

namespace TimerLoop

variable {s s' : TimerLoop κ} {a : Action κ}

/-- Outside a batch, every step keeps all timers covered. -/
theorem allCovered_moves (h : s.batch = none → s.queue.AllCovered) (hm : s.Moves a s')
    (hidle : s'.batch = none) : s'.queue.AllCovered := by
  cases hm with
  | addTimer ha hu =>
    refine TimerQueue.AllCovered.addTimerInLoop (fun e he => ?_) _ _
    exact (h hidle e he).frame rfl (lastReset_append (by simp))
  | cancel hu => exact (h hidle).cancelInLoop _
  | addTimerElsewhere ha =>
    exact fun e he => (h hidle e he).frame rfl (lastReset_append (by simp))
  | cancelElsewhere => exact h hidle
  | @runFunctor f fs hb hf =>
    cases f with
    | addTimerInLoop timer => exact (h hb).addTimerInLoop _ _
    | cancelInLoop id => exact (h hb).cancelInLoop _
  | handleRead hb => contradiction
  | nextEntry hb => contradiction
  | callbackReturns hb => contradiction
  | endBatch hb => exact TimerQueue.allCovered_endBatch _ _ _ _
  | tick => exact fun e he => (h hidle e he).elapse _

/-- In every state between operations with a timer in the queue, the timerfd is readable, or armed
with a valid setting other than zero whose deadline is no later than the earliest expiration or,
if that is later, a tenth of a millisecond after the last `resetTimerFd`. -/
theorem armed_of_run {clock : Int} {as : List (Action κ)} (h : Run step anyStep { clock } as s)
    (hidle : s.batch = none) {first : Entry} (hfirst : s.queue.first? = some first) :
    s.queue.timerfd.readable = true ∨ ∃ value deadline last,
      s.queue.timerfd.armed = some (value, deadline) ∧ value.valid ∧ value ≠ ⟨0, 0⟩ ∧
        lastReset s.queue.log = some last ∧ deadline ≤ max first.expiration (last + 100) := by
  have hcovered : s.batch = none → s.queue.AllCovered :=
    h.invariant (I := fun s => s.batch = none → s.queue.AllCovered)
      (fun _ e he => absurd he Std.ExtTreeSet.not_mem_empty)
      fun _ _ _ hs _ hstep => allCovered_moves hs (moves_of_step hstep)
  exact hcovered hidle first (TimerQueue.first?_le hfirst).1

/-- The earliest timer is cancelled while a later one stays. -/
def cancelEarliest : List (Action Unit) :=
  [.addTimer () 5000 .zero 1, .addTimer () 9000 .zero 2, .tick 40, .cancel ⟨1, 0⟩]

/-- The earliest timer is cancelled, and the next one is covered all the same. -/
theorem armed_of_run_cancelEarliest :
    ∃ s : TimerLoop Unit, Run step anyStep { clock := 0 } cancelEarliest s ∧
      (s.queue.timerfd.readable = true ∨ ∃ value deadline last,
        s.queue.timerfd.armed = some (value, deadline) ∧ value.valid ∧ value ≠ ⟨0, 0⟩ ∧
          lastReset s.queue.log = some last ∧ deadline ≤ max 9000 (last + 100)) := by
  obtain ⟨s, hs⟩ := Option.isSome_iff_exists.mp
    (show (replay step anyStep { clock := 0 } cancelEarliest).isSome by decide +kernel)
  have hfirst : (replay step anyStep { clock := 0 } cancelEarliest).bind (·.queue.first?) =
      some ⟨9000, 2⟩ := by
    decide +kernel
  have hidle : (replay step anyStep { clock := 0 } cancelEarliest).any (·.batch.isNone) := by
    decide +kernel
  rw [hs] at hfirst hidle
  exact ⟨s, .of_replay hs, armed_of_run (.of_replay hs) (by simpa using hidle) hfirst⟩

end TimerLoop

end ClearMoon.Timer

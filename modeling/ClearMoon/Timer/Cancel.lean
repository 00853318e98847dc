import ClearMoon.Core.Log
import ClearMoon.Timer.Ownership

/-!
# When cancelling is final

`cancelInLoop` finds a timer only in the two sets. It does not reach a timer whose insertion is
still queued, and for a timer of the batch in progress it leaves a note that `reset` reads after
the callbacks have run: `isCancelled()`, which the loop of `handleRead` asks, is never set. In
every other case the timer is deleted, or deleted at the end of the batch in which it has run
already, and never started again.
-/

namespace ClearMoon.Timer

variable {κ : Type}

/-! ## The property of a log -/

/-- `cancelInLoop` has executed for an id that `addTimer` had returned. -/
def Cancelled (log : List TimerEvent) (id : TimerId) : Prop :=
  ∃ before after, log = before ++ .cancelled id :: after ∧ .created id ∈ before

/-- No callback is started after its timer was cancelled. -/
def CancelFinal (log : List TimerEvent) : Prop :=
  ∀ before after n, log = before ++ .started n :: after → ∀ id, id.sequence = n →
    ¬Cancelled before id

/-- A cancelled timer was created before. -/
theorem Cancelled.created_mem {log : List TimerEvent} {id : TimerId} (h : Cancelled log id) :
    .created id ∈ log := by
  obtain ⟨before, after, rfl, hc⟩ := h
  exact List.mem_append_left _ hc

/-- What an event adds to the cancelled timers. -/
theorem cancelled_append {log : List TimerEvent} {e : TimerEvent} {id : TimerId} :
    Cancelled (log ++ [e]) id ↔ Cancelled log id ∨ (e = .cancelled id ∧ .created id ∈ log) := by
  constructor
  · rintro ⟨before, after, he, hc⟩
    rcases append_cons_eq_concat he.symm with ⟨after', rfl, rfl⟩ | ⟨rfl, rfl, rfl⟩
    · exact .inl ⟨before, after', rfl, hc⟩
    · exact .inr ⟨rfl, hc⟩
  · rintro (⟨before, after, rfl, hc⟩ | ⟨rfl, hc⟩)
    · exact ⟨before, after ++ [e], by simp, hc⟩
    · exact ⟨log, [], rfl, hc⟩

/-- What an event must not be for cancelling to stay final. -/
theorem cancelFinal_append {log : List TimerEvent} {e : TimerEvent} (h : CancelFinal log)
    (he : ∀ id, e = .started id.sequence → ¬Cancelled log id) : CancelFinal (log ++ [e]) := by
  intro before after n hlog id hid
  rcases append_cons_eq_concat hlog.symm with ⟨after', rfl, rfl⟩ | ⟨rfl, rfl, rfl⟩
  · exact h before after' n rfl id hid
  · exact he id (by rw [hid])

/-- An event that neither cancels nor starts a timer. -/
def TimerEvent.Quiet (e : TimerEvent) : Prop :=
  (∀ id, e ≠ .cancelled id) ∧ ∀ n, e ≠ .started n

/-- Events that neither create, cancel nor run leave the property alone. -/
theorem append_quiet (log : List TimerEvent) {es : List TimerEvent} (hes : ∀ e ∈ es, e.Quiet) :
    (CancelFinal log → CancelFinal (log ++ es)) ∧
      ∀ id, Cancelled (log ++ es) id ↔ Cancelled log id := by
  induction es generalizing log with
  | nil => simp
  | cons e es ih =>
    obtain ⟨hcancelled, hstarted⟩ := hes e List.mem_cons_self
    obtain ⟨hfinal, hiff⟩ := ih (log ++ [e]) fun f hf => hes f (List.mem_cons_of_mem _ hf)
    rw [List.append_assoc, List.singleton_append] at hfinal hiff
    refine ⟨fun h => hfinal (cancelFinal_append h fun id he => absurd he (hstarted _)),
      fun id => ?_⟩
    rw [hiff, cancelled_append]
    exact ⟨fun h => h.resolve_right fun he => hcancelled id he.1, .inl⟩

/-! ## What the operations do to the timers and to the log -/

namespace TimerQueue

variable {q : TimerQueue κ}

/-- Inserting a timer writes no cancellation and no start to the log. -/
theorem addTimerInLoop_frame (q : TimerQueue κ) (timer : Addr) (now : Int) :
    (∀ a, (q.addTimerInLoop timer now).heap.get? a = q.heap.get? a) ∧
      (q.addTimerInLoop timer now).cancelligTimer = q.cancelligTimer ∧
      ∃ es, (q.addTimerInLoop timer now).log = q.log ++ es ∧ ∀ e ∈ es, e.Quiet := by
  rw [addTimerInLoop]
  split
  · exact ⟨fun _ => rfl, rfl, [], by simp [dangling]⟩
  · rename_i t ht
    dsimp only
    split
    · refine ⟨fun _ => rfl, rfl, [.inserted t.sequence, .reset now], ?_⟩
      simp [resetTimerFd, note, insert, TimerEvent.Quiet]
    · refine ⟨fun _ => rfl, rfl, [.inserted t.sequence], ?_⟩
      simp [note, insert, TimerEvent.Quiet]

/-- Cancelling creates no timer and forgets no note. -/
theorem cancelInLoop_frame (q : TimerQueue κ) (id : TimerId) :
    (∀ a t, (q.cancelInLoop id).heap.get? a = some t → q.heap.get? a = some t) ∧
      (∀ k ∈ q.cancelligTimer, k ∈ (q.cancelInLoop id).cancelligTimer) ∧
      (q.cancelInLoop id).log = q.log ++ [.cancelled id] := by
  rw [cancelInLoop]
  split
  · split
    · exact ⟨fun _ _ h => h, fun _ h => h, rfl⟩
    · refine ⟨fun a t h => ?_, fun _ h => h, rfl⟩
      rw [delete, Arena.get?_free] at h
      split at h
      · contradiction
      · exact h
  · split
    · exact ⟨fun _ _ h => h, fun _ h => Std.ExtTreeSet.mem_insert.mpr (.inr h), rfl⟩
    · exact ⟨fun _ _ h => h, fun _ h => h, rfl⟩

/-- A timer that a cancellation leaves alive is in neither set, and during a batch it has been
noted. -/
theorem live_cancelInLoop {taken : List Entry} {waiting : List Addr} (h : Owned q taken waiting)
    {id : TimerId} {t : Timer κ} (ht : (q.cancelInLoop id).heap.get? id.timer = some t)
    (hseq : t.sequence = id.sequence) :
    (⟨t.expiration, id.timer⟩ : Entry) ∉ q.timers ∧
      (q.handleTimer = true → ⟨id.sequence, id.timer⟩ ∈ (q.cancelInLoop id).cancelligTimer) := by
  have hlive := (cancelInLoop_frame q id).1 _ _ ht
  rw [cancelInLoop] at ht ⊢
  split at ht
  · rename_i hactive
    change _ ∈ q.activeTimers at hactive
    split at ht
    · rename_i hnone
      change q.heap.get? id.timer = none at hnone
      rw [hlive] at hnone
      contradiction
    · rw [delete, Arena.get?_free, if_pos rfl] at ht
      contradiction
  · rename_i hactive
    refine ⟨fun hin => hactive (h.active.mpr ⟨t, hlive, hseq, hin⟩), fun hhandle => ?_⟩
    rw [if_neg hactive, if_pos (show (q.note (.cancelled id)).handleTimer = true from hhandle)]
    exact Std.ExtTreeSet.mem_insert_self

/-- Taking out the expired timers frees none. -/
theorem beginBatch_frame (q : TimerQueue κ) (now : Int) :
    (∀ a, (q.beginBatch now).2.heap.get? a = q.heap.get? a) ∧
      (q.beginBatch now).2.cancelligTimer = q.cancelligTimer ∧
      (q.beginBatch now).2.log = q.log := by
  have hfold (es : List Entry) (q : TimerQueue κ) (a : Addr) :
      (es.foldl deactivate q).heap.get? a = q.heap.get? a := by
    induction es generalizing q with
    | nil => rfl
    | cons e es ih =>
      rw [List.foldl_cons, ih, deactivate]
      split <;> rfl
  obtain ⟨heap, activeTimers, he⟩ := foldl_deactivate_frame
    ({ q with timerfd := q.timerfd.read, handleTimer := true }.expiredEntries now)
    { q with timerfd := q.timerfd.read, handleTimer := true }
  refine ⟨fun a => hfold _ { q with timerfd := q.timerfd.read, handleTimer := true } a, ?_, ?_⟩
  · rw [beginBatch, getExpired, he]
  · rw [beginBatch, getExpired, he]

/-- A timer that is live after one step of `reset` was live before, and was not to be cancelled if
it is the one the step is about. -/
theorem live_resetEntry {now : Int} {e : Entry} {a : Addr} {t' : Timer κ}
    (h : (resetEntry now q e).heap.get? a = some t') :
    ∃ t, q.heap.get? a = some t ∧ t.sequence = t'.sequence ∧
      (e.timer = a → ⟨t.sequence, a⟩ ∉ q.cancelligTimer) := by
  rw [resetEntry] at h
  split at h
  · rename_i hnone
    refine ⟨t', h, rfl, ?_⟩
    rintro rfl
    rw [dangling, Arena.get?_fault, hnone] at h
    contradiction
  · rename_i t ht
    have hdelete (h : (q.delete e.timer).heap.get? a = some t') : q.heap.get? a = some t' ∧
        e.timer ≠ a := by
      rw [delete, Arena.get?_free] at h
      split at h
      · contradiction
      · rename_i hne
        exact ⟨h, hne⟩
    split at h
    · obtain ⟨h, hne⟩ := hdelete h
      exact ⟨t', h, rfl, fun he => absurd he hne⟩
    · rename_i hcancelling
      split at h
      · obtain ⟨h, hne⟩ := hdelete h
        exact ⟨t', h, rfl, fun he => absurd he hne⟩
      · split at h
        · rw [putBack, insert, Arena.get?_set] at h
          split at h
          · rename_i he
            subst he
            obtain rfl := Option.some.inj h
            exact ⟨t, ht, (t.sequence_restart now).symm, fun _ => hcancelling⟩
          · rename_i hne
            exact ⟨t', h, rfl, fun he => absurd he hne⟩
        · obtain ⟨h, hne⟩ := hdelete h
          exact ⟨t', h, rfl, fun he => absurd he hne⟩

/-- The same for the whole loop: what is to be cancelled does not survive it. -/
theorem live_foldl_resetEntry {now : Int} {es : List Entry} {a : Addr} {t' : Timer κ}
    (h : (es.foldl (resetEntry now) q).heap.get? a = some t') :
    ∃ t, q.heap.get? a = some t ∧ t.sequence = t'.sequence ∧
      (a ∈ es.map Entry.timer → ⟨t.sequence, a⟩ ∉ q.cancelligTimer) := by
  induction es generalizing q with
  | nil => exact ⟨t', h, rfl, by simp⟩
  | cons e es ih =>
    obtain ⟨t₁, ht₁, hseq₁, hout₁⟩ := ih h
    obtain ⟨t, ht, hseq, hout⟩ := live_resetEntry ht₁
    obtain ⟨heap, timers, activeTimers, hframe⟩ := foldl_resetEntry_frame [e] now q
    rw [List.foldl_cons, List.foldl_nil] at hframe
    rw [hframe] at hout₁
    refine ⟨t, ht, hseq.trans hseq₁, fun ha => ?_⟩
    rcases List.mem_cons.mp ha with he | ha
    · exact hout he.symm
    · exact hseq ▸ hout₁ ha

end TimerQueue

/-! ## Runs -/

namespace TimerLoop

/-- The id points to a timer that the batch in progress has still to run, or whose insertion is
still queued. -/
def OutOfReach (s : TimerLoop κ) (id : TimerId) : Prop :=
  (s.queue.heap.get? id.timer).any (·.sequence = id.sequence) = true ∧
    (id.timer ∈ s.rest.map Entry.timer ∨ id.timer ∈ s.queued)

instance (s : TimerLoop κ) (id : TimerId) : Decidable (s.OutOfReach id) := by
  unfold OutOfReach
  infer_instance

/-- The id for which a step executes `cancelInLoop`. -/
def cancels (s : TimerLoop κ) : Action κ → Option TimerId
  | .cancel id => some id
  | .runFunctor =>
    match s.pendingFunc with
    | .cancelInLoop id :: _ => some id
    | _ => none
  | _ => none

/-- Whenever `cancelInLoop` executes, the timer is within its reach. -/
def CancelsInReach (s : TimerLoop κ) (a : Action κ) : Prop :=
  ∀ id ∈ s.cancels a, ¬s.OutOfReach id

instance (s : TimerLoop κ) (a : Action κ) : Decidable (s.CancelsInReach a) := by
  unfold CancelsInReach
  infer_instance

/-- A cancelled timer is dead, or has run in the batch in progress and dies at its end. -/
def Doomed (s : TimerLoop κ) (id : TimerId) : Prop :=
  ∀ t, s.queue.heap.get? id.timer = some t → t.sequence = id.sequence →
    id.timer ∈ s.expired.map Entry.timer ∧ id.timer ∉ s.rest.map Entry.timer ∧
      ⟨id.sequence, id.timer⟩ ∈ s.queue.cancelligTimer

/-- What holds in every state of a run that cancels within reach only. -/
structure CancelInv (s : TimerLoop κ) : Prop where
  inv : s.Inv
  final : CancelFinal s.queue.log
  doomed : ∀ id, Timer.Cancelled s.queue.log id → s.Doomed id

variable {s s' : TimerLoop κ} {a : Action κ}

/-- Executing `cancelInLoop` within reach dooms its timer and spares no other. -/
theorem CancelInv.cancelInLoop (h : s.CancelInv) {id : TimerId} (hreach : ¬s.OutOfReach id)
    (hinv : s'.Inv) (hqueue : s'.queue = s.queue.cancelInLoop id) (hbatch : s'.batch = s.batch) :
    s'.CancelInv := by
  obtain ⟨hlive, hnotes, hlog⟩ := TimerQueue.cancelInLoop_frame s.queue id
  have hexpired : s'.expired = s.expired := by rw [expired, hbatch, expired]
  have hrest : s'.rest = s.rest := by rw [rest, hbatch, rest]
  refine ⟨hinv, ?_, ?_⟩
  · rw [hqueue, hlog]
    exact cancelFinal_append h.final (by simp)
  · intro id' hid' t ht hseq
    rw [hqueue] at hid' ht ⊢
    rw [hlog, cancelled_append] at hid'
    rw [hexpired, hrest]
    rcases hid' with hid' | ⟨he, -⟩
    · obtain ⟨hin, hout, hnote⟩ := h.doomed id' hid' t (hlive _ _ ht) hseq
      exact ⟨hin, hout, hnotes _ hnote⟩
    · obtain rfl : id = id' := by simpa using he
      obtain ⟨hsets, hnote⟩ := TimerQueue.live_cancelInLoop h.inv.owned ht hseq
      have hmine : (s.queue.heap.get? id.timer).any (·.sequence = id.sequence) = true := by
        rw [hlive _ _ ht]
        simpa using hseq
      rcases h.inv.owned.placed (hlive _ _ ht) with hin | hin | hin
      · exact absurd hin hsets
      · refine ⟨List.mem_map_of_mem hin, fun hin => hreach ⟨hmine, .inl hin⟩, hnote ?_⟩
        rw [h.inv.handle]
        rw [expired] at hin
        split at hin
        · contradiction
        · rename_i hb
          rw [hb]
          rfl
      · exact absurd ⟨hmine, .inr hin⟩ hreach

/-- Steps that keep the live timers and their notes, and write nothing of interest to the log. -/
theorem CancelInv.quiet (h : s.CancelInv) (hinv : s'.Inv)
    (hlive : ∀ a t, s'.queue.heap.get? a = some t → t.sequence < s.queue.heap.born →
      s.queue.heap.get? a = some t)
    (hnotes : s'.queue.cancelligTimer = s.queue.cancelligTimer)
    (hlog : ∃ es, s'.queue.log = s.queue.log ++ es ∧ ∀ e ∈ es, e.Quiet)
    (hplaces : s.expired ≠ [] → s'.expired = s.expired ∧ s'.rest = s.rest) : s'.CancelInv := by
  obtain ⟨es, hlog, hes⟩ := hlog
  obtain ⟨hfinal, hcancelled⟩ := append_quiet s.queue.log hes
  refine ⟨hinv, by rw [hlog]; exact hfinal h.final, ?_⟩
  intro id hid t ht hseq
  rw [hlog, hcancelled] at hid
  have hborn := (h.inv.owned.created hid.created_mem).1
  obtain ⟨hin, hout, hnote⟩ := h.doomed id hid t (hlive _ _ ht (by omega)) hseq
  obtain ⟨hexpired, hrest⟩ := hplaces (by rintro hnil; simp [hnil] at hin)
  rw [hexpired, hrest, hnotes]
  exact ⟨hin, hout, hnote⟩

/-- Coming to an entry starts no cancelled timer. -/
theorem CancelInv.nextEntry (h : s.CancelInv) (hinv : s'.Inv) {now : Int} {es : List Entry}
    {e : Entry} {rest : List Entry} {running : Bool}
    (hb : s.batch = some ⟨now, es, e :: rest, false⟩)
    (hqueue : s'.queue = (s.queue.runEntry e).2)
    (hb' : s'.batch = some ⟨now, es, rest, running⟩) : s'.CancelInv := by
  have hexpired : s.expired = es ∧ s'.expired = es := by simp [expired, hb, hb']
  have hrest : s.rest = e :: rest ∧ s'.rest = rest := by simp [TimerLoop.rest, hb, hb']
  have hmem : e ∈ s.expired := h.inv.rest_suffix.subset (by simp [hrest.1])
  obtain ⟨t, ht, -⟩ := h.inv.owned.taken_live hmem
  have hstarted (id : TimerId) (hid : Timer.Cancelled s.queue.log id) :
      id.sequence ≠ t.sequence := by
    intro hseq
    have haddr : e.timer = id.timer := (h.inv.owned.created hid.created_mem).2 ht hseq.symm
    have hout := (h.doomed id hid t (haddr ▸ ht) hseq.symm).2.1
    exact hout (by simp [hrest.1, haddr])
  have hrun : (s.queue.runEntry e).2 = s.queue ∨
      (s.queue.runEntry e).2 = s.queue.note (.started t.sequence) := by
    rw [TimerQueue.runEntry, ht]
    dsimp only
    split
    · exact .inl rfl
    · exact .inr rfl
  rcases hrun with hrun | hrun
  · rw [hrun] at hqueue
    refine ⟨hinv, by rw [hqueue]; exact h.final, fun id hid u hu hseq => ?_⟩
    rw [hqueue] at hid hu ⊢
    obtain ⟨hin, hout, hnote⟩ := h.doomed id hid u hu hseq
    rw [hexpired.1] at hin
    rw [hrest.1] at hout
    exact ⟨hexpired.2 ▸ hin, fun hr => hout (List.mem_cons_of_mem _ (hrest.2 ▸ hr)), hnote⟩
  · rw [hrun] at hqueue
    refine ⟨hinv, ?_, fun id hid u hu hseq => ?_⟩
    · rw [hqueue]
      exact cancelFinal_append h.final fun id he hid => hstarted id hid (by simpa using he.symm)
    · rw [hqueue] at hid hu ⊢
      rw [TimerQueue.note, cancelled_append] at hid
      obtain ⟨hin, hout, hnote⟩ := h.doomed id (hid.resolve_right (by simp)) u hu hseq
      rw [hexpired.1] at hin
      rw [hrest.1] at hout
      exact ⟨hexpired.2 ▸ hin, fun hr => hout (List.mem_cons_of_mem _ (hrest.2 ▸ hr)), hnote⟩

/-- At the end of a batch the doomed timers die. -/
theorem CancelInv.endBatch (h : s.CancelInv) (hinv : s'.Inv) {now clock : Int}
    (hqueue : s'.queue = s.queue.endBatch s.expired now clock) : s'.CancelInv := by
  obtain ⟨heap, timers, activeTimers, hframe⟩ :=
    TimerQueue.foldl_resetEntry_frame s.expired now { s.queue with handleTimer := false }
  have hlog : ∃ es, s'.queue.log = s.queue.log ++ es ∧ ∀ e ∈ es, e.Quiet := by
    rw [hqueue, TimerQueue.endBatch, TimerQueue.reset, hframe]
    split
    · exact ⟨[], by simp⟩
    · exact ⟨[.reset clock], by simp [TimerQueue.resetTimerFd, TimerQueue.note,
        TimerEvent.Quiet]⟩
  have hheap (a : Addr) : s'.queue.heap.get? a =
      (s.expired.foldl (TimerQueue.resetEntry now)
        { s.queue with handleTimer := false }).heap.get? a := by
    rw [hqueue, TimerQueue.endBatch, TimerQueue.reset]
    split <;> rfl
  obtain ⟨es, hlog, hes⟩ := hlog
  obtain ⟨hfinal, hcancelled⟩ := append_quiet s.queue.log hes
  refine ⟨hinv, by rw [hlog]; exact hfinal h.final, ?_⟩
  intro id hid t ht hseq
  rw [hlog, hcancelled] at hid
  rw [hheap] at ht
  obtain ⟨u, hu, husec, hout⟩ := TimerQueue.live_foldl_resetEntry ht
  obtain ⟨hin, -, hnote⟩ := h.doomed id hid u hu (husec.trans hseq)
  exact absurd ((husec.trans hseq) ▸ hnote) (hout hin)

/-- Every step that cancels within reach keeps the invariant. -/
theorem CancelInv.moves (h : s.CancelInv) (hreach : s.CancelsInReach a) (hm : s.Moves a s') :
    s'.CancelInv := by
  have hinv := h.inv.moves hm
  cases hm with
  | @addTimer cb when_ interval timer ha hu =>
    obtain ⟨hheap, hnotes, es, hlog, hes⟩ := TimerQueue.addTimerInLoop_frame
      (s.queue.addTimer cb when_ interval timer ha.free).2 timer s.clock
    refine h.quiet hinv (fun a t ht hlt => ?_) hnotes
      ⟨.created ⟨timer, s.queue.heap.born⟩ :: es, ?_, ?_⟩ fun _ => ⟨rfl, rfl⟩
    · rw [hheap, TimerQueue.get?_addTimer] at ht
      split at ht
      · obtain rfl := Option.some.inj ht
        exact absurd hlt (Nat.lt_irrefl _)
      · exact ht
    · rw [hlog]
      simp [TimerQueue.addTimer, TimerQueue.note]
    · rintro e (_ | ⟨_, he⟩)
      · exact ⟨by simp, by simp⟩
      · exact hes e he
  | cancel hu =>
    exact h.cancelInLoop (hreach _ rfl) hinv rfl rfl
  | @addTimerElsewhere cb when_ interval timer ha =>
    refine h.quiet hinv (fun a t ht hlt => ?_) rfl
      ⟨[.created ⟨timer, s.queue.heap.born⟩], rfl, by simp [TimerEvent.Quiet]⟩ fun _ => ⟨rfl, rfl⟩
    rw [TimerQueue.get?_addTimer] at ht
    split at ht
    · obtain rfl := Option.some.inj ht
      exact absurd hlt (Nat.lt_irrefl _)
    · exact ht
  | cancelElsewhere =>
    exact h.quiet hinv (fun _ _ ht _ => ht) rfl ⟨[], by simp⟩ fun _ => ⟨rfl, rfl⟩
  | @runFunctor f fs hb hf =>
    cases f with
    | addTimerInLoop timer =>
      obtain ⟨hheap, hnotes, hlog⟩ := TimerQueue.addTimerInLoop_frame s.queue timer s.clock
      exact h.quiet hinv (fun a t ht _ => (hheap a).symm.trans ht) hnotes hlog fun _ => ⟨rfl, rfl⟩
    | cancelInLoop id =>
      exact h.cancelInLoop (hreach id (by simp [cancels, hf])) hinv rfl rfl
  | handleRead hb =>
    obtain ⟨hheap, hnotes, hlog⟩ := TimerQueue.beginBatch_frame s.queue s.clock
    refine h.quiet hinv (fun a t ht _ => (hheap a).symm.trans ht) hnotes
      ⟨[], by simpa using hlog⟩ fun hne => absurd ?_ hne
    simp [expired, hb]
  | nextEntry hb => exact h.nextEntry hinv hb rfl rfl
  | callbackReturns hb =>
    refine h.quiet hinv (fun _ _ ht _ => ht) rfl ⟨[], by simp⟩ fun _ => ?_
    simp [expired, TimerLoop.rest, hb]
  | @endBatch now es hb =>
    have hexpired : s.expired = es := by simp [expired, hb]
    subst hexpired
    exact h.endBatch hinv rfl
  | tick => exact h.quiet hinv (fun _ _ ht _ => ht) rfl ⟨[], by simp⟩ fun _ => ⟨rfl, rfl⟩

/-- In every run that cancels within reach only, cancelling is final. -/
theorem cancelFinal_of_run {clock : Int} {as : List (Action κ)}
    (h : Run step CancelsInReach { clock } as s) : CancelFinal s.queue.log := by
  refine CancelInv.final (h.invariant ⟨inv_init clock, ?_, ?_⟩
    fun _ _ _ hs hg hstep => hs.moves hg (moves_of_step hstep))
  · intro before after n hlog
    simp at hlog
  · rintro id ⟨before, after, hlog, -⟩
    simp at hlog

/-- A repeating timer that cancels itself, and one that is cancelled before it expires. -/
def cancelReachable : List (Action Unit) :=
  [.addTimer () 10 ⟨true, 7, by decide⟩ 1, .addTimer () 900 .zero 2, .cancel ⟨2, 1⟩, .tick 200,
    .handleRead, .nextEntry, .cancel ⟨1, 0⟩, .callbackReturns, .endBatch, .tick 900, .handleRead]

/-- A timer cancelled while it is in the set does not run any more. -/
theorem cancelFinal_of_run_cancelReachable :
    ∃ s : TimerLoop Unit, Run step CancelsInReach { clock := 0 } cancelReachable s ∧
      CancelFinal s.queue.log := by
  obtain ⟨s, hs⟩ := Option.isSome_iff_exists.mp
    (show (replay step CancelsInReach { clock := 0 } cancelReachable).isSome by decide +kernel)
  exact ⟨s, .of_replay hs, cancelFinal_of_run (.of_replay hs)⟩

/-- Two timers expire together, and the callback of the first cancels the second. -/
def cancelInBatch : List (Action Unit) :=
  [.addTimer () 10 .zero 1, .addTimer () 10 .zero 2, .tick 200, .handleRead, .nextEntry,
    .cancel ⟨2, 1⟩, .callbackReturns, .nextEntry]

/-- Another thread adds a timer, and the loop cancels it before it runs the insertion. -/
def cancelBeforeInsertion : List (Action Unit) :=
  [.addTimerElsewhere () 10 .zero 1, .cancel ⟨1, 0⟩, .runFunctor, .tick 200, .handleRead,
    .nextEntry]

/-- In both cases the callback of the cancelled timer is started. -/
theorem cancel_not_final :
    (∃ s : TimerLoop Unit, Run step anyStep { clock := 0 } cancelInBatch s ∧
      ¬CancelFinal s.queue.log) ∧
    ∃ s : TimerLoop Unit, Run step anyStep { clock := 0 } cancelBeforeInsertion s ∧
      ¬CancelFinal s.queue.log := by
  constructor
  · have hlog : (replay step anyStep { clock := 0 } cancelInBatch).map (·.queue.log) =
        some ([.created ⟨1, 0⟩, .inserted 0, .reset 0, .created ⟨2, 1⟩, .inserted 1, .started 0,
          .cancelled ⟨2, 1⟩] ++ [.started 1]) := by
      decide +kernel
    obtain ⟨s, hs, hlog⟩ := Option.map_eq_some_iff.mp hlog
    refine ⟨s, .of_replay hs, fun hfinal => ?_⟩
    exact hfinal _ [] 1 hlog ⟨2, 1⟩ rfl ⟨[.created ⟨1, 0⟩, .inserted 0, .reset 0, .created ⟨2, 1⟩,
      .inserted 1, .started 0], [], rfl, by simp⟩
  · have hlog : (replay step anyStep { clock := 0 } cancelBeforeInsertion).map (·.queue.log) =
        some ([.created ⟨1, 0⟩, .cancelled ⟨1, 0⟩, .inserted 0, .reset 0] ++ [.started 0]) := by
      decide +kernel
    obtain ⟨s, hs, hlog⟩ := Option.map_eq_some_iff.mp hlog
    refine ⟨s, .of_replay hs, fun hfinal => ?_⟩
    exact hfinal _ [] 0 hlog ⟨1, 0⟩ rfl ⟨[.created ⟨1, 0⟩], [.inserted 0, .reset 0], rfl, by simp⟩

end TimerLoop

end ClearMoon.Timer

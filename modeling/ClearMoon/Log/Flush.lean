import ClearMoon.Log.AsyncLogger

/-!
# What a stopped logger has written

`stop` clears `running_` and joins the back thread. A thread that waits then still takes all
buffers; a thread that is anywhere else leaves its loop at the next test, and what stands in the
buffers is not written. The runs in which no `stop` meets the second case write every message.
-/

namespace ClearMoon.Log

open ClearMoon.Net

/-- The back thread enters its critical section before it tests `running_` again. -/
def Back.willTake : Back → Bool
  | .wait | .locked => true
  | _ => false

namespace AsyncLogger

/-- A `stop` finds nothing that the back thread is not to take, one that does not join a thread
finds nothing at all, and nobody appends while a stopped thread is to take the rest. -/
def Flushes (w : AsyncLogger) : Action → Prop
  | .stop =>
    if w.running then w.back.willTake = true ∨ w.untaken = []
    else w.unwritten = [] ∧ w.untaken = []
  | .append data => w.stopping.isSome → w.back.willTake = true → data = []
  | _ => True

instance (w : AsyncLogger) (a : Action) : Decidable (w.Flushes a) := by
  cases a <;> unfold Flushes <;> infer_instance

/-- What a call of `stop` saw will have been written when it returns. -/
structure Flushing (w : AsyncLogger) : Prop where
  stopping : ∀ snapshot ∈ w.stopping, w.running = false ∧
    (w.back.willTake = true → w.appended = snapshot) ∧
    (w.back.willTake = false → w.file.bytes ++ w.unwritten = snapshot)
  stopped : ∀ p ∈ w.stopped, p.1 = p.2

variable {w w' : AsyncLogger} {now : Date}

/-- A new logger has promised nothing. -/
theorem flushing_new (file : LogFile) : (new file).Flushing :=
  ⟨by simp [new], by simp [new]⟩

/-- The critical section of a stopped thread leaves nothing. -/
theorem untaken_critical (h : w.Inv) (hlocked : w.back = .locked) (hrunning : w.running = false) :
    w.critical.untaken = [] ∧ w.critical.back.willTake = false := by
  have hleft := h.contents_toWrite (by rw [emptied, hlocked])
  have ha : contents [w.buffA] = [] := contents_eq_nil (by simpa using h.a_empty)
  rw [critical, h.checkCurrent_eq]
  dsimp only
  by_cases htake : w.somethingToTake = true
  · rw [if_pos htake, takeAll]
    dsimp only
    have hleftover : contents w.buffersToWrite ++ contents [w.buffA] = [] := by
      rw [hleft, ha, List.append_nil]
    split <;> exact ⟨hleftover, rfl⟩
  · rw [if_neg htake, if_pos (by simp [hrunning])]
    obtain ⟨b, hb⟩ := Option.isSome_iff_exists.mp h.current
    simp only [somethingToTake, hb, Option.elim_some, Bool.or_eq_true, Bool.not_eq_true',
      decide_eq_true_eq, not_or, Nat.not_lt] at htake
    obtain ⟨hbuffers, hreadable⟩ := htake
    have hempty : b.readable = [] := by
      rw [← List.length_eq_zero_iff, Buffer.length_readable]
      omega
    have hnil : contents w.buffers ++ contents [w.currentBuffer] = [] := by
      rw [show w.buffers = [] by simpa using hbuffers, hb, contents_cons, Option.elim_some, hempty]
      rfl
    exact ⟨hnil, rfl⟩

/-- A stopped thread reaches its critical section only from its wait. -/
theorem willTake_backStep (hstep : w.backStep now = some w') (hrunning : w.running = false)
    (hlocked : w.back ≠ .locked) : w'.back.willTake = true ↔ w.back.willTake = true := by
  rw [backStep] at hstep
  split at hstep
  · contradiction
  · contradiction
  · rename_i hback
    cases hstep
    simp [hback, Back.willTake]
  · rename_i hback
    cases hstep
    rw [if_neg (by simp [hrunning]), hback]
    simp [exit, Back.willTake]
  · rename_i hback
    obtain ⟨-, hw'⟩ := Option.ite_none_right_eq_some.mp hstep
    cases hw'
    simp [hback, Back.willTake]
  · contradiction
  · rename_i i hback
    split at hstep <;> cases hstep <;> simp [hback, Back.willTake]
  · rename_i i hback
    split at hstep <;> cases hstep <;> simp [hback, Back.willTake]
  · rename_i hback
    cases hstep
    simp [hback, Back.willTake]

/-- A back thread that has been told to stop writes everything before it leaves. -/
theorem Flushing.backStep (hinv : w.Inv) (h : w.Flushing) (hstep : w.backStep now = some w') :
    w'.Flushing := by
  have hframe := backStep_frame hstep
  have hinv' := hinv.backStep hstep
  refine ⟨fun snapshot hsnapshot => ?_, by rw [hframe.stopped]; exact h.stopped⟩
  rw [hframe.stopping] at hsnapshot
  obtain ⟨hrunning, hwill, hwont⟩ := h.stopping snapshot hsnapshot
  refine ⟨hframe.running.trans hrunning, ?_⟩
  have hconserved := hinv'.conserved
  by_cases hlocked : w.back = .locked
  · have hcritical : w.critical = w' := by
      rw [AsyncLogger.backStep, hlocked] at hstep
      exact Option.some.inj hstep
    obtain ⟨huntaken, htake⟩ := untaken_critical hinv hlocked hrunning
    rw [hcritical] at huntaken htake
    rw [huntaken, List.append_nil, hframe.appended, hwill (by rw [hlocked]; rfl)] at hconserved
    exact ⟨fun ht => absurd ht (by simp [htake]), fun _ => hconserved⟩
  · have hiff := willTake_backStep hstep hrunning hlocked
    refine ⟨fun ht => hframe.appended.trans (hwill (hiff.mp ht)), fun ht => ?_⟩
    -- what it has taken and what it has not are as they were
    rw [hframe.untaken hlocked, hframe.appended, ← hinv.conserved] at hconserved
    rw [List.append_cancel_right hconserved]
    refine hwont ?_
    rw [← Bool.not_eq_true] at ht ⊢
    rwa [← hiff]

/-- A stop that meets the condition finds, or will find, everything written. -/
theorem Flushing.step {a : Action} (hinv : w.Inv) (h : w.Flushing) (hguard : w.Flushes a)
    (hstep : w.step a = some w') : w'.Flushing := by
  have hconserved := hinv.conserved
  cases a with
  | start =>
    rw [AsyncLogger.step] at hstep
    split at hstep
    · cases hstep
      exact h
    · obtain ⟨⟨-, hnone⟩, hw'⟩ := Option.ite_none_right_eq_some.mp hstep
      cases hw'
      refine ⟨fun snapshot hsnapshot => ?_, h.stopped⟩
      rw [show w.stopping = some snapshot from hsnapshot] at hnone
      contradiction
  | append data =>
    obtain ⟨-, hw'⟩ := Option.ite_none_left_eq_some.mp hstep
    cases hw'
    obtain ⟨hfile, hback, htoWrite, hrunning, hstopping, hstopped⟩ := w.append_frame data
    have hunwritten : (w.append data).unwritten = w.unwritten := by
      rw [unwritten, hback, htoWrite, unwritten]
    refine ⟨fun snapshot hsnapshot => ?_, by rw [hstopped]; exact h.stopped⟩
    rw [hstopping] at hsnapshot
    obtain ⟨hstopped, hwill, hwont⟩ := h.stopping snapshot hsnapshot
    refine ⟨hrunning.trans hstopped, fun ht => ?_, fun ht => ?_⟩
    · rw [hback] at ht
      have hdata : data = [] :=
        hguard (by rw [show w.stopping = some snapshot from hsnapshot]; rfl) ht
      rw [AsyncLogger.append, hdata, List.append_nil]
      exact hwill ht
    · rw [hback] at ht
      rw [hfile, hunwritten]
      exact hwont ht
  | stop =>
    rw [AsyncLogger.step] at hstep
    rw [Flushes] at hguard
    split at hstep
    · rename_i hrunning
      cases hstep
      rw [if_pos hrunning] at hguard
      refine ⟨?_, h.stopped⟩
      intro snapshot hsnapshot
      obtain rfl := Option.some.inj hsnapshot
      refine ⟨rfl, fun _ => rfl, fun ht => ?_⟩
      have huntaken : w.untaken = [] :=
        hguard.resolve_left (by rw [show w.back.willTake = false from ht]; simp)
      rwa [huntaken, List.append_nil] at hconserved
    · rename_i hrunning
      cases hstep
      rw [if_neg hrunning] at hguard
      refine ⟨h.stopping, fun p hp => ?_⟩
      rcases List.mem_append.mp hp with hp | hp
      · exact h.stopped p hp
      · rw [List.mem_singleton.mp hp, ← hconserved, hguard.1, hguard.2]
        simp
  | stopReturns =>
    rw [AsyncLogger.step] at hstep
    split at hstep
    · rename_i snapshot hsnapshot
      obtain ⟨hback, hw'⟩ := Option.ite_none_right_eq_some.mp hstep
      cases hw'
      obtain ⟨-, -, hwont⟩ := h.stopping snapshot hsnapshot
      have hwritten := hwont (by rw [hback]; rfl)
      rw [unwritten, hback, List.append_nil] at hwritten
      refine ⟨fun snapshot hnone => absurd hnone (by simp), fun p hp => ?_⟩
      rcases List.mem_append.mp hp with hp | hp
      · exact h.stopped p hp
      · rw [List.mem_singleton.mp hp]
        exact hwritten.symm
    · contradiction
  | back now => exact h.backStep hinv hstep

/-- In a run whose stops leave nothing behind, the files hold exactly what was appended before a
`stop` when that `stop` returns. -/
theorem flushed_of_run {name : String} {rollSize : Nat} {logDir : String}
    {disk : String → Option Bytes} {sequence hasWritenBytes : Nat} {as : List Action}
    (hrun : Run step Flushes (new (.new name rollSize logDir disk sequence hasWritenBytes)) as w) :
    w.file.Recorded disk ∧ ∀ p ∈ w.stopped, p.2 = p.1 := by
  have hall : w.Inv ∧ w.Flushing := by
    refine hrun.invariant (I := fun w => w.Inv ∧ w.Flushing) ?_ ?_
    · exact ⟨inv_new (LogFile.coherent_new _ _ _ _ _ _) rfl, flushing_new _⟩
    · rintro w a w' ⟨hinv, hflushing⟩ hguard hstep
      exact ⟨hinv.step hstep, hflushing.step hinv hguard hstep⟩
  exact ⟨(inv_of_run hrun).2, fun p hp => (hall.2.stopped p hp).symm⟩

/-- A message that comes while the back thread waits, and a `stop` that finds it waiting. -/
def stopInWait : List Action :=
  [.start] ++ backSteps 2 ++ [.append [1], .stop] ++ backSteps 10 ++ [.stopReturns]

theorem flushed_of_run_stopInWait :
    ∃ w : AsyncLogger,
      Run step Flushes (new (.new "app" 100 "logs" (fun _ => none) 0 0)) stopInWait w ∧
      w.stopped = [([1], [1])] ∧
      w.file.Recorded (fun _ => none) ∧ ∀ p ∈ w.stopped, p.2 = p.1 := by
  obtain ⟨w, hw⟩ := Option.isSome_iff_exists.mp
    (show (replay step Flushes (new (.new "app" 100 "logs" (fun _ => none) 0 0))
      stopInWait).isSome by decide +kernel)
  have hstopped : (replay step Flushes (new (.new "app" 100 "logs" (fun _ => none) 0 0))
      stopInWait).map stopped = some [([1], [1])] := by decide +kernel
  rw [hw] at hstopped
  exact ⟨w, .of_replay hw, Option.some.inj hstopped, flushed_of_run (.of_replay hw)⟩

/-- A `stop` before the back thread first tests `running_`: the message is not written. -/
def stopAtOnce : List Action :=
  [.start, .append [1], .stop] ++ backSteps 2 ++ [.stopReturns]

/-- What is appended before the first round is lost when the logger is stopped at once. -/
theorem message_lost :
    ¬∀ w : AsyncLogger,
      Run step anyStep (new (.new "app" 100 "logs" (fun _ => none) 0 0)) stopAtOnce w →
      ∀ p ∈ w.stopped, p.2 = p.1 := by
  intro h
  obtain ⟨w, hw⟩ := Option.isSome_iff_exists.mp
    (show (replay step anyStep (new (.new "app" 100 "logs" (fun _ => none) 0 0))
      stopAtOnce).isSome by decide +kernel)
  have hstopped : (replay step anyStep (new (.new "app" 100 "logs" (fun _ => none) 0 0))
      stopAtOnce).map stopped = some [([1], [])] := by decide +kernel
  rw [hw] at hstopped
  have hlost := h w (.of_replay hw) ([1], []) (by rw [Option.some.inj hstopped]; simp)
  contradiction

end AsyncLogger

end ClearMoon.Log

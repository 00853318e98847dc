import ClearMoon.Tcp.Calls
import ClearMoon.Tcp.Calm
import ClearMoon.Tcp.Timers

/-!
# The bottom of the stack

`Channel::handleEvent` and the loop of `TimerQueue::handleRead` are called by the loop itself, so
their frames stand at the bottom of the stack, and never both. Everything else that the code of a
connection does stands above. So no event of the connection is handled inside a batch of timers.
-/

namespace ClearMoon.Tcp

open ClearMoon.Net ClearMoon.Timer

/-- A frame of what the loop itself has called. -/
def Frame.root : Frame → Bool
  | handleEvent _ | timerQueue => true
  | _ => false

namespace TcpLoop

variable {w v w' : TcpLoop}

/-- The stack grows by frames that are not the loop's, and the batch is left alone. -/
structure Stacks (w w' : TcpLoop) : Prop where
  stack : ∃ fs, w'.stack = fs ++ w.stack ∧ ∀ f ∈ fs, f.root = false
  todo : ∀ f ∈ w'.todo, f ∈ w.todo ∨ f.isCalled = true
  timing : w'.timing = w.timing

/-- A step that leaves stack and timers alone only stacks. -/
theorem Stacks.ofControl (h : w'.control = w.control) (htiming : w'.timing = w.timing) :
    w.Stacks w' := by
  obtain ⟨htodo, hstack⟩ := Prod.mk.inj h
  exact ⟨⟨[], hstack, nofun⟩, fun f hf => .inl (htodo ▸ hf), htiming⟩

/-- Frames are stacked upon frames. -/
theorem Stacks.trans (h : w.Stacks v) (h' : v.Stacks w') : w.Stacks w' where
  stack := by
    obtain ⟨fs, hfs, hroot⟩ := h.stack
    obtain ⟨gs, hgs, hroot'⟩ := h'.stack
    refine ⟨gs ++ fs, by rw [hgs, hfs, List.append_assoc], fun f hf => ?_⟩
    exact (List.mem_append.mp hf).elim (hroot' f) (hroot f)
  todo f hf := (h'.todo f hf).elim (h.todo f) .inr
  timing := h'.timing.trans h.timing

/-- A calm step stacks nothing. -/
theorem Calm.stacks (h : w.Calm w') : w.Stacks w' where
  stack := by
    obtain ⟨fs, hfs, hinner⟩ := h.stack
    refine ⟨fs, hfs, fun f hf => ?_⟩
    have := hinner f hf
    cases f with
    | user cb => rfl
    | handleWrite => rfl
    | handleWriteEnd => rfl
    | _ => contradiction
  todo f hf := by
    refine (h.todo f hf).imp_right fun hinner => ?_
    cases f with
    | sendInLoop data => rfl
    | sendFileInLoop filePath => rfl
    | shutdownInLoop => rfl
    | forceCloseInLoop => rfl
    | ackReceived seq => rfl
    | _ => contradiction
  timing := h.timing

/-- A frame that is no root may be stacked. -/
theorem stacks_push {frame : Frame} (h : frame.root = false) : w.Stacks (w.push frame) :=
  ⟨⟨[frame], rfl, by simpa using h⟩, fun _ hf => .inl hf, rfl⟩

/-- `connectDestroyed` stacks its callback at most. -/
theorem stacks_connectDestroyed : w.Stacks w.connectDestroyed := by
  have hclear (v : TcpLoop) : v.Stacks v.cancelIdleTimer.clearRetrans.removeChannel := by
    obtain ⟨queue, h⟩ := v.clear_frame
    rw [h]
    exact .ofControl rfl rfl
  rw [connectDestroyed]
  split
  · have hset : w.Stacks (w.setState .kDisConnected) := .ofControl rfl rfl
    exact hset.trans (hclear _)
  · exact hclear w

/-- A retransmission stacks its own rest, and what its send invokes. -/
theorem stacks_onRetransmitTimeout (seq : Nat) : w.Stacks (w.onRetransmitTimeout seq) := by
  rw [onRetransmitTimeout]
  split
  · exact .ofControl rfl rfl
  · rename_i node _
    split
    · have herase : w.Stacks { w with conn.pendingRetrans := w.conn.pendingRetrans.erase seq } :=
        .ofControl rfl rfl
      exact herase.trans calm_forceCloseInLoop.stacks
    · have hsend (v : TcpLoop)
          (hv : v.control = (w.push (.onRetransmitTimeout seq node.id)).control)
          (htiming : v.timing = w.timing) :
          w.Stacks { v with todo := some (.sendInLoop node.entry.data) } := by
        refine ⟨⟨[.onRetransmitTimeout seq node.id], (Prod.mk.inj hv).2, by simp [Frame.root]⟩,
          fun f hf => .inr ?_, htiming⟩
        obtain rfl := Option.some.inj hf
        rfl
      dsimp only
      split
      · exact hsend _ rfl rfl
      · exact hsend _ rfl rfl

/-- An ack stacks nothing. -/
theorem stacks_ackReceived (seq : Nat) : w.Stacks (w.ackReceived seq) := by
  obtain ⟨queue, pendingRetrans, h⟩ := w.ackReceived_frame seq
  rw [h]
  exact .ofControl rfl rfl

/-- A functor stacks what it invokes. -/
theorem stacks_run (env : Env) (f : Functor) : w.Stacks (w.run env f) := by
  cases f with
  | connectDestroyed => exact stacks_connectDestroyed
  | ackReceived seq => exact stacks_ackReceived seq
  | sendFunc data seq => exact (stacks_push rfl).trans (calm_send true data).stacks
  | onRetransmitTimeout seq => exact stacks_onRetransmitTimeout seq
  | _ => exact (calm_run rfl (by simp) (by simp) env).stacks

/-- So does a call. -/
theorem stacks_call (inThread : Bool) (c : ConnCall) : w.Stacks (w.call inThread c) := by
  by_cases h : inThread = false ∨ c.functor.neutral = true
  · exact (calm_call h).stacks
  · cases c with
    | sendWithRetransmit data seq =>
      cases inThread with
      | false => simp at h
      | true =>
        refine ⟨⟨[], rfl, nofun⟩, fun f hf => .inr ?_, rfl⟩
        obtain rfl := Option.some.inj hf
        rfl
    | _ => simp [ConnCall.functor, Functor.neutral] at h

/-- A call of another thread does not concern the stack and the timers. -/
theorem callElsewhere_frame (w : TcpLoop) (c : ConnCall) :
    (w.call false c).control = w.control ∧ (w.call false c).timers = w.timers := by
  cases c with
  | send data =>
    rw [call, send]
    split <;> exact ⟨rfl, rfl⟩
  | sendFile filePath =>
    rw [call, sendFile]
    split <;> exact ⟨rfl, rfl⟩
  | shutdown =>
    rw [call, shutdown]
    split <;> exact ⟨rfl, rfl⟩
  | forceClose =>
    rw [call, forceClose]
    split <;> exact ⟨rfl, rfl⟩
  | sendWithRetransmit data seq => exact ⟨rfl, rfl⟩
  | ackReceived seq => exact ⟨rfl, rfl⟩

/-- The frames of the loop stand at the bottom of the stack, and the one of a batch in progress
does. A connection is established outside of everything. -/
structure Rooted (w : TcpLoop) : Prop where
  above : ∀ f ∈ w.stack.dropLast, f.root = false
  batch : w.timers.batch.isSome → w.stack.getLast? = some .timerQueue
  establish : w.todo = some .connectEstablelished → w.stack = []

/-- What is stacked upon a root keeps it, where nothing is to be established. -/
theorem Rooted.stacks (h : w.Rooted) (hs : w.Stacks w')
    (hdone : w.todo ≠ some .connectEstablelished) : w'.Rooted where
  above := by
    obtain ⟨fs, hfs, hroot⟩ := hs.stack
    rw [hfs]
    intro f hf
    rcases List.eq_nil_or_concat w.stack with hnil | ⟨init, bottom, hcons⟩
    · rw [hnil, List.append_nil] at hf
      exact hroot f (List.dropLast_subset _ hf)
    · rw [hcons, List.concat_eq_append, ← List.append_assoc, List.dropLast_concat] at hf
      rcases List.mem_append.mp hf with hf | hf
      · exact hroot f hf
      · refine h.above f ?_
        rwa [hcons, List.concat_eq_append, List.dropLast_concat]
  batch := by
    obtain ⟨fs, hfs, -⟩ := hs.stack
    rw [show w'.timers.batch = w.timers.batch from (Prod.mk.inj hs.timing).1, hfs]
    intro hbatch
    rw [List.getLast?_append, h.batch hbatch]
    rfl
  establish htodo := by
    rcases hs.todo _ htodo with htodo | hcalled
    · exact absurd htodo hdone
    · contradiction

/-- Below a frame of the loop there is nothing. -/
theorem Rooted.bottom (h : w.Rooted) {frame : Frame} {rest : List Frame}
    (hstack : w.stack = frame :: rest) (hroot : frame.root = true) : rest = [] := by
  cases rest with
  | nil => rfl
  | cons f fs =>
    have := h.above frame (by rw [hstack, List.dropLast_cons_cons]; exact List.mem_cons_self)
    rw [hroot] at this
    contradiction

/-- No batch is in progress while the loop thread is in no callback. -/
theorem Rooted.batch_of_idle (h : w.Rooted) (hidle : w.idle = true) : w.timers.batch = none := by
  by_contra hbatch
  have := h.batch (Option.isSome_iff_ne_none.mpr hbatch)
  rw [(idle_iff.mp hidle).2] at this
  contradiction

/-- No batch is in progress while an event of the connection is handled. -/
theorem Rooted.batch_of_event (h : w.Rooted) {stage : EventStage} {rest : List Frame}
    (hstack : w.stack = .handleEvent stage :: rest) : w.timers.batch = none := by
  by_contra hbatch
  have := h.batch (Option.isSome_iff_ne_none.mpr hbatch)
  rw [hstack, h.bottom hstack rfl] at this
  simp at this

/-- While the connection is established no batch of timers is under way. -/
theorem Rooted.batch_of_establish (h : w.Rooted)
    (htodo : w.todo = some .connectEstablelished) : w.timers.batch = none := by
  by_contra hbatch
  have := h.batch (Option.isSome_iff_ne_none.mpr hbatch)
  rw [h.establish htodo] at this
  contradiction

/-- The frame on top is taken off. -/
theorem Rooted.pop (h : w.Rooted) {frame : Frame} {rest : List Frame}
    (hstack : w.stack = frame :: rest) (htodo : w.todo = none) (hroot : frame.root = false) :
    Rooted { w with stack := rest } where
  above f hf := by
    refine h.above f ?_
    rw [hstack]
    cases rest with
    | nil => contradiction
    | cons g gs =>
      rw [List.dropLast_cons_cons]
      exact List.mem_cons_of_mem _ hf
  batch hbatch := by
    have hlast := h.batch hbatch
    rw [hstack] at hlast
    cases rest with
    | nil =>
      obtain rfl := Option.some.inj hlast
      contradiction
    | cons g gs => rwa [List.getLast?_cons_cons] at hlast
  establish he := by
    rw [htodo] at he
    contradiction

/-- With a stack of one frame of the loop. -/
theorem rooted_singleton {frame : Frame} (hstack : w.stack = [frame])
    (hbatch : w.timers.batch.isSome → frame = .timerQueue)
    (htodo : w.todo ≠ some .connectEstablelished) : w.Rooted where
  above := by simp [hstack]
  batch hb := by rw [hstack, hbatch hb]; rfl
  establish he := absurd he htodo

/-- Without a frame and without a batch there is no root to look for. -/
theorem rooted_nil (hstack : w.stack = []) (hbatch : w.timers.batch = none) : w.Rooted where
  above := by simp [hstack]
  batch hb := by simp [hbatch] at hb
  establish _ := hstack

/-- No timer establishes a connection. -/
theorem functor_ne_connectEstablelished (cb : Task) : cb.functor ≠ .connectEstablelished := by
  cases cb with
  | onIdleTimeout => exact nofun
  | onRetransmitTimeout seq => exact nofun
  | user => exact nofun

/-- What goes on above the loop's frames. -/
theorem stacks_resumeFrame {env : Env} {frame : Frame} (hroot : frame.root = false)
    (hr : w.resumeFrame env frame = some w') : w.Stacks w' := by
  cases frame with
  | user cb => contradiction
  | handleEvent stage => contradiction
  | handleWrite =>
    obtain rfl := Option.some.inj hr
    exact (calm_handleWriteRest env).stacks
  | handleWriteEnd =>
    obtain rfl := Option.some.inj hr
    exact calm_handleWriteEnd.stacks
  | sendFunc data seq =>
    obtain rfl := Option.some.inj hr
    obtain ⟨queue, pendingRetrans, nextNode, he⟩ := w.sendFuncEnd_frame data seq env
    rw [he]
    exact .ofControl rfl rfl
  | onRetransmitTimeout seq node =>
    obtain rfl := Option.some.inj hr
    obtain ⟨queue, pendingRetrans, dangling, he⟩ := w.onRetransmitTimeoutEnd_frame seq node env
    rw [he]
    exact .ofControl rfl rfl
  | timerQueue => contradiction

/-- A frame that goes on leaves its root where it was. -/
theorem Rooted.resumeFrame {env : Env} {frame : Frame} {rest : List Frame} (h : w.Rooted)
    (htodo : w.todo = none) (hstack : w.stack = frame :: rest)
    (hr : { w with stack := rest }.resumeFrame env frame = some w') : w'.Rooted := by
  have hnot : w.todo ≠ some .connectEstablelished := by simp [htodo]
  by_cases hroot : frame.root = false
  · exact (h.pop hstack htodo hroot).stacks (stacks_resumeFrame hroot hr) hnot
  · obtain rfl := h.bottom hstack (Bool.not_eq_false _ ▸ hroot)
    cases frame with
    | handleEvent stage =>
      obtain rfl := Option.some.inj hr
      have hbatch := h.batch_of_event hstack
      have hnext : Rooted { w with stack := next stage ++ [] } := by
        cases stage with
        | write => exact rooted_nil rfl hbatch
        | _ => exact rooted_singleton rfl (by simp [hbatch]) hnot
      exact hnext.stacks (calm_handleEvent (w := { w with stack := [] }) env stage).stacks hnot
    | timerQueue =>
      unfold TcpLoop.resumeFrame handleTimers at hr
      dsimp only at hr
      split at hr
      · contradiction
      · obtain ⟨timers, -, rfl⟩ := Option.map_eq_some_iff.mp hr
        exact rooted_singleton rfl (fun _ => rfl) hnot
      · obtain ⟨timers, -, rfl⟩ := Option.map_eq_some_iff.mp hr
        refine rooted_singleton rfl (fun _ => rfl) fun he => ?_
        obtain ⟨cb, -, hcb⟩ := Option.map_eq_some_iff.mp he
        exact functor_ne_connectEstablelished cb hcb
      · obtain ⟨timers, ht, rfl⟩ := Option.map_eq_some_iff.mp hr
        cases TimerLoop.moves_of_step ht with
        | endBatch hb => exact rooted_nil rfl rfl
    | _ => simp [Frame.root] at hroot

/-- Every step keeps the frames of the loop at the bottom. -/
theorem Rooted.step {a : Action} (h : w.Rooted) (hstep : w.step a = some w') : w'.Rooted := by
  have huser (hu : w.inUserCode = true) : w.todo ≠ some .connectEstablelished := by
    rw [inUserCode, Bool.and_eq_true, Option.isNone_iff_eq_none] at hu
    simp [hu.1]
  have hbatch {timers : TimerLoop Task} (hb : timers.batch = w.timers.batch) :
      Rooted { w with timers } := ⟨h.above, by simpa [hb] using h.batch, h.establish⟩
  cases stepped_of_step hstep with
  | poll hidle hfunc hready hw' =>
    rcases hw' with rfl | rfl
    · exact ⟨h.above, h.batch, h.establish⟩
    · exact ⟨h.above, h.batch, h.establish⟩
  | @event rest hidle hactive =>
    have hb := h.batch_of_idle hidle
    obtain ⟨htodo, hstack⟩ := idle_iff.mp hidle
    exact rooted_singleton (congrArg _ hstack) (by simp [push, hb]) (by simp [push, htodo])
  | @timerEvent rest timers hidle hactive ht =>
    obtain ⟨htodo, hstack⟩ := idle_iff.mp hidle
    exact rooted_singleton (congrArg _ hstack) (fun _ => rfl) (by simp [push, htodo])
  | @otherEvent key rest hidle hactive =>
    have hb := h.batch_of_idle hidle
    obtain ⟨htodo, hstack⟩ := idle_iff.mp hidle
    exact rooted_singleton (congrArg _ hstack) (by simp [push, hb]) (by simp [push, htodo])
  | doPendingFuncs hidle hfunc => exact ⟨h.above, h.batch, h.establish⟩
  | nextFunc hidle hfunc => exact rooted_nil (idle_iff.mp hidle).2 (h.batch_of_idle hidle)
  | @run env f htodo henv =>
    have hclear : w.clearTodo.Rooted := ⟨h.above, h.batch, by simp [clearTodo]⟩
    exact hclear.stacks (stacks_run env f) (by simp [clearTodo])
  | resume htodo hstack henv hr => exact h.resumeFrame htodo hstack hr
  | call hu => exact h.stacks (stacks_call true _) (huser hu)
  | connectDestroyed hu =>
    refine h.stacks ⟨⟨[], rfl, by simp⟩, fun f hf => .inr ?_, rfl⟩ (huser hu)
    obtain rfl := Option.some.inj hf
    rfl
  | retrieve htodo hstack => exact ⟨h.above, h.batch, h.establish⟩
  | addTimer hu ht =>
    cases TimerLoop.moves_of_step ht with
    | addTimer ha hu => exact hbatch rfl
  | cancelTimer hu hid ht =>
    cases TimerLoop.moves_of_step ht with
    | cancel hu => exact hbatch rfl
  | ret htodo hstack => exact h.pop hstack htodo rfl
  | @callElsewhere c =>
    obtain ⟨hcontrol, htimers⟩ := w.callElsewhere_frame c
    obtain ⟨htodo, hstack⟩ := Prod.mk.inj hcontrol
    refine ⟨?_, ?_, ?_⟩
    · rw [hstack]
      exact h.above
    · rw [hstack, htimers]
      exact h.batch
    · rw [hstack, htodo]
      exact h.establish
  | connectDestroyedElsewhere => exact ⟨h.above, h.batch, h.establish⟩
  | runElsewhere => exact ⟨h.above, h.batch, h.establish⟩
  | tick ht =>
    cases TimerLoop.moves_of_step ht with
    | tick => exact hbatch rfl

/-- A new connection has no frame. -/
theorem rooted_start (fd : Nat) (callbacks : Callback → Bool) (disk : Bytes → Bytes) :
    (start fd callbacks disk).Rooted := rooted_nil rfl rfl

end TcpLoop

end ClearMoon.Tcp

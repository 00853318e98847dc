import ClearMoon.Tcp.Effect

/-!
# The queues of the loop

Functors are queued by other threads, swapped out by `doPendingFuncs`, and taken one by one. Nothing
else touches the queues.
-/

namespace ClearMoon.Tcp

open ClearMoon.Net ClearMoon.Timer

/-- What a call of another thread queues, if it is not refused. -/
def ConnCall.functor : ConnCall → Functor
  | send data => .sendInLoop data
  | sendFile filePath => .sendFileInLoop filePath
  | shutdown => .shutdownInLoop
  | forceClose => .forceCloseInLoop
  | sendWithRetransmit data seq => .sendFunc data seq
  | ackReceived seq => .ackReceived seq

/-- What another thread queues in a step. -/
def Action.functor? : Action → Option Functor
  | callElsewhere c => some c.functor
  | connectDestroyedElsewhere => some .connectDestroyed
  | runElsewhere => some .user
  | _ => none

namespace View

/-- No functor is queued, and none is taken from a queue. -/
structure SameQueues (v v' : View) : Prop where
  func : v'.func = v.func
  pendingFunc : v'.pendingFunc = v.pendingFunc

variable {v v' v'' : View}

/-- Nothing done, nothing queued. -/
theorem SameQueues.refl (v : View) : v.SameQueues v := ⟨rfl, rfl⟩

/-- Two steps that queue nothing, one behind the other. -/
theorem SameQueues.trans (h : v.SameQueues v') (h' : v'.SameQueues v'') : v.SameQueues v'' :=
  ⟨h'.func.trans h.func, h'.pendingFunc.trans h.pendingFunc⟩

/-- A close queues no functor. -/
theorem sameQueues_closes (hc : Closes v v') : v.SameQueues v' := by
  cases hc with
  | already hstate => exact .refl v
  | closed hstate => exact ⟨rfl, rfl⟩
  | aborted hstate => exact ⟨rfl, rfl⟩

/-- Nor does a passage of the output. -/
theorem sameQueues_flow (hf : Flow v v') : v.SameQueues v' := by
  cases hf with
  | quiet => exact .refl v
  | drain hbuffered hb => exact ⟨rfl, rfl⟩
  | transfer hbuffered hunsent hb => exact ⟨rfl, rfl⟩
  | close hu hc =>
    obtain ⟨hfunc, hpendingFunc⟩ := sameQueues_closes hc
    exact ⟨hfunc, hpendingFunc⟩

end View

namespace TcpLoop

variable {w w' : TcpLoop}

/-- Nor does a forced close in the loop. -/
theorem sameQueues_forceCloseInLoop {v : View} (h : v.SameQueues w.view) :
    v.SameQueues w.forceCloseInLoop.view := by
  rcases w.forceCloseInLoop_cases with hc | ⟨-, hsame⟩
  · exact h.trans (View.sameQueues_closes hc)
  · rwa [hsame]

/-- Nor does the part of a send behind its write. -/
theorem sameQueues_sendRest (rest : Bytes) : w.view.SameQueues (w.sendRest rest).view := by
  obtain ⟨todo, -, hview⟩ := view_sendRest (w := w) rest
  rw [hview]
  exact ⟨rfl, rfl⟩

/-- Nor does a whole send in the loop. -/
theorem sameQueues_sendInLoop (data : Bytes) (env : Env) :
    w.view.SameQueues (w.sendInLoop data env).view := by
  rw [sendInLoop]
  split
  · exact .refl _
  · have hnoted : w.view.SameQueues (w.note (.taken (.message data))).view := ⟨rfl, rfl⟩
    refine hnoted.trans ?_
    generalize w.note (.taken (.message data)) = v
    dsimp only
    split
    · split
      · rename_i n _
        have hwrote : v.view.SameQueues (v.note (.wrote (data.take n))).view := ⟨rfl, rfl⟩
        split
        · rw [view_invoke]
          exact hwrote
        · exact hwrote.trans (sameQueues_sendRest _)
      · exact sameQueues_sendRest _
      · exact sameQueues_sendRest _
    · exact sameQueues_sendRest _

/-- Nor does a file. -/
theorem sameQueues_sendFileInLoop (filePath : Bytes) (env : Env) :
    w.view.SameQueues (w.sendFileInLoop filePath env).view := by
  rw [sendFileInLoop]
  split
  · exact .refl _
  · have hnoted : w.view.SameQueues (w.note (.taken (.file filePath))).view := ⟨rfl, rfl⟩
    refine hnoted.trans ?_
    generalize w.note (.taken (.file filePath)) = v
    have hopened (fd : Addr) : v.view.SameQueues (v.openFile filePath fd).view := by
      rw [openFile]
      split <;> exact ⟨rfl, rfl⟩
    dsimp only
    split
    · exact sameQueues_forceCloseInLoop (.refl _)
    · rename_i fd _
      exact sameQueues_forceCloseInLoop ((hopened fd).trans ⟨rfl, rfl⟩)
    · rename_i fd _
      exact (hopened fd).trans ⟨rfl, rfl⟩

/-- A functor queues no other. -/
theorem sameQueues_run (env : Env) (f : Functor) : w.view.SameQueues (w.run env f).view := by
  cases f with
  | connectEstablelished =>
    rw [run, connectEstablelished]
    split
    · exact ⟨rfl, rfl⟩
    · rw [view_invoke, view_resetIdleTimer]
      exact ⟨rfl, rfl⟩
  | connectDestroyed =>
    rw [run, connectDestroyed, view_removeChannel, view_clearRetrans, view_cancelIdleTimer]
    split <;> exact ⟨rfl, rfl⟩
  | sendInLoop data => exact sameQueues_sendInLoop data env
  | sendFileInLoop filePath => exact sameQueues_sendFileInLoop filePath env
  | shutdownInLoop =>
    have hshut : w.view.SameQueues w.shutdownWrite.view := ⟨rfl, rfl⟩
    rw [run, shutdownInLoop]
    split
    · exact hshut.trans (View.sameQueues_closes closes_handleClose)
    · exact hshut
  | forceCloseInLoop => exact sameQueues_forceCloseInLoop (.refl _)
  | sendFunc data seq =>
    rw [run, sendFunc, send]
    split <;> exact ⟨rfl, rfl⟩
  | ackReceived seq =>
    rw [run, view_ackReceived]
    exact .refl _
  | onIdleTimeout => exact sameQueues_forceCloseInLoop (.refl _)
  | onRetransmitTimeout seq =>
    rw [run, onRetransmitTimeout]
    split
    · exact .refl _
    · split
      · exact sameQueues_forceCloseInLoop ⟨rfl, rfl⟩
      · dsimp only
        split <;> exact ⟨rfl, rfl⟩
  | user => exact ⟨rfl, rfl⟩

/-- A call in the loop's own thread works at once. -/
theorem sameQueues_call (c : ConnCall) : w.view.SameQueues (w.call true c).view := by
  cases c with
  | send data =>
    rw [call, send]
    split <;> exact ⟨rfl, rfl⟩
  | sendFile filePath =>
    rw [call, sendFile]
    split <;> exact ⟨rfl, rfl⟩
  | shutdown =>
    rw [call, shutdown]
    split <;> exact ⟨rfl, rfl⟩
  | forceClose =>
    rw [call, forceClose]
    split <;> exact ⟨rfl, rfl⟩
  | sendWithRetransmit data seq => exact ⟨rfl, rfl⟩
  | ackReceived seq => exact ⟨rfl, rfl⟩

/-- The functors that the loop has not come to. -/
def queue (w : TcpLoop) : List Functor := w.func ++ w.pendingFunc

/-- A call of another thread queues its functor at the end. -/
theorem queue_runInLoop (f : Functor) : (w.runInLoop false f).queue = w.queue ++ [f] :=
  (List.append_assoc ..).symm

/-- What a step does to the queues. -/
inductive Queues (w : TcpLoop) : Action → TcpLoop → Prop
  | same {a v} (hfunc : v.func = w.func) (hpending : v.pendingFunc = w.pendingFunc) : Queues w a v
  | swap {v} (hempty : w.func = []) (hfunc : v.func = w.pendingFunc)
      (hpending : v.pendingFunc = []) : Queues w .doPendingFuncs v
  | take {f fs} (htodo : w.todo = none) (hstack : w.stack = []) (hfunc : w.func = f :: fs) :
      Queues w .nextFunc { w with todo := some f, func := fs }
  | add {a f v} (ha : a.functor? = some f) (hfunc : v.func = w.func)
      (hpending : v.pendingFunc = w.pendingFunc ++ [f]) : Queues w a v

/-- A functor was queued before, or another thread has just queued it. -/
theorem Queues.mem {a : Action} {f : Functor} (h : Queues w a w') (hf : f ∈ w'.queue) :
    f ∈ w.queue ∨ a.functor? = some f := by
  cases h with
  | same hfunc hpending =>
    rw [queue, hfunc, hpending] at hf
    exact .inl hf
  | swap hempty hfunc hpending =>
    rw [queue, hfunc, hpending, List.append_nil] at hf
    exact .inl (List.mem_append_right _ hf)
  | take htodo hstack hfunc =>
    left
    rw [queue, hfunc]
    exact List.mem_cons_of_mem _ hf
  | @add a g w' ha hfunc hpending =>
    rw [queue, hfunc, hpending, ← List.append_assoc, List.mem_append, List.mem_singleton] at hf
    rcases hf with hf | rfl
    · exact .inl hf
    · exact .inr ha

/-- That is all such a call does to the queues. -/
theorem queues_call (c : ConnCall) : Queues w (.callElsewhere c) (w.call false c) := by
  have hadd {v : TcpLoop} (hfunc : v.func = w.func) (hpending : v.pendingFunc = w.pendingFunc) :
      Queues w (.callElsewhere c) (v.runInLoop false c.functor) :=
    .add (f := c.functor) rfl hfunc (congrArg (· ++ [c.functor]) hpending)
  cases c with
  | send data =>
    rw [call, send]
    split
    · exact .same rfl rfl
    · exact hadd rfl rfl
  | sendFile filePath =>
    rw [call, sendFile]
    split
    · exact .same rfl rfl
    · exact hadd rfl rfl
  | shutdown =>
    rw [call, shutdown]
    split
    · exact hadd rfl rfl
    · exact .same rfl rfl
  | forceClose =>
    rw [call, forceClose]
    split
    · exact hadd rfl rfl
    · exact .same rfl rfl
  | sendWithRetransmit data seq => exact hadd rfl rfl
  | ackReceived seq => exact hadd rfl rfl

/-- Functors are queued at one end, and taken at the other. -/
theorem queues_of_step {a : Action} (hsized : w.view.sized = true) (hstep : w.step a = some w') :
    Queues w a w' := by
  have hsame (h : w.view.SameQueues w'.view) : Queues w a w' := .same h.func h.pendingFunc
  cases stepped_of_step hstep with
  | poll hidle hfunc hready hw' =>
    rcases hw' with rfl | rfl
    · exact .same rfl rfl
    · exact .same rfl rfl
  | doPendingFuncs hidle hfunc => exact .swap hfunc rfl rfl
  | @nextFunc f fs hidle hfunc =>
    simp only [idle, Bool.and_eq_true, Option.isNone_iff_eq_none, List.isEmpty_iff] at hidle
    exact .take hidle.1 hidle.2 hfunc
  | @run env f htodo henv =>
    have hcleared : w.view.SameQueues w.clearTodo.view := ⟨rfl, rfl⟩
    exact hsame (hcleared.trans (sameQueues_run env f))
  | @resume env frame rest w' htodo hstack henv hr =>
    apply hsame
    rcases resumes_resumeFrame (w := { w with stack := rest }) htodo hsized hr with hf | ⟨f, -, hv⟩
    · exact View.sameQueues_flow hf
    · rw [hv]
      exact ⟨rfl, rfl⟩
  | call huser => exact hsame (sameQueues_call _)
  | callElsewhere => exact queues_call _
  | connectDestroyedElsewhere => exact .add (f := .connectDestroyed) rfl rfl rfl
  | runElsewhere => exact .add (f := .user) rfl rfl rfl
  | _ => exact .same rfl rfl

end TcpLoop

end ClearMoon.Tcp

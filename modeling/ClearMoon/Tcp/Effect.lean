import ClearMoon.Tcp.View

/-!
# What a step does to the output of a connection

`Effect` lists what a step of the machine can do to the view. The properties of the output are
proved from that list.
-/

namespace ClearMoon.Tcp

open ClearMoon.Net ClearMoon.Timer

namespace TcpLoop

variable {w : TcpLoop}

/-! ## The list of effects -/

/-- The output that the step accepts in the loop thread. -/
def accepts (w : TcpLoop) : Action → Option Output
  | .call (.send data) => if w.conn.state = .kConnected then some (.message data) else none
  | .call (.sendFile filePath) => if w.conn.state = .kConnected then some (.file filePath) else none
  | .run _ =>
    match w.todo with
    | some (.sendFunc data _) =>
      if w.conn.state = .kConnected then some (.message data) else none
    | some (.onRetransmitTimeout seq) =>
      match w.conn.pendingRetrans[seq]? with
      | some node =>
        if node.entry.retries < kMaxRetries ∧ w.conn.state ≠ .kDisConnected then
          some (.message node.entry.data)
        else none
      | none => none
    | _ => none
  | _ => none

/-- What one step does to the view. -/
inductive Effect (w : TcpLoop) : Action → View → Prop
  | quiet {a} : Effect w a w.view
  /-- An event handler runs. -/
  | flow {a v} (htodo : w.todo = none) (h : Flow w.view v) : Effect w a v
  /-- The loop thread is given something to run that carries no output, or is void. -/
  | start {a f} (htodo : ∀ g ∈ w.todo, g.output? = none ∧ g.closes = false)
      (hf : f.output? = none ∨ w.conn.state = .kDisConnected) :
      Effect w a { w.view with todo := some f }
  | nextFunc {f fs} (htodo : w.todo = none) (hfunc : w.func = f :: fs) :
      Effect w .nextFunc { w.view with todo := some f, func := fs }
  | doPendingFuncs (hfunc : w.func = []) :
      Effect w .doPendingFuncs { w.view with func := w.pendingFunc, pendingFunc := [] }
  /-- A functor that carries no output is queued. -/
  | queue {a f} (hf : f.output? = none) :
      Effect w a { w.view with pendingFunc := w.pendingFunc ++ [f] }
  /-- An output is accepted and queued. -/
  | queueOutput {a f o} (hf : f.output? = some o) (hstate : w.conn.state = .kConnected) :
      Effect w a { w.view with
        pendingFunc := w.pendingFunc ++ [f]
        trace := w.view.trace ++ [.accepted o] }
  /-- An output is accepted in the loop thread. -/
  | accept {a f o} (ho : w.accepts a = some o) (hf : f.output? = some o)
      (htodo : ∀ g ∈ w.todo, g.output? = none ∧ g.closes = false)
      (hstate : w.conn.state ≠ .kDisConnected)
      (hfile : w.conn.state = .kConnecting → ∃ data, o = .message data) :
      Effect w a { w.view with todo := some f, trace := w.view.trace ++ [.accepted o] }
  /-- `shutdown` or `forceClose`, in the loop thread or in another one. -/
  | disconnect {a f es todo pendingFunc} (hf : f.output? = none) (hcloses : f.closes = true)
      (hstate : w.conn.state = .kConnected ∨ w.conn.state = .kDisConnecting)
      (hes : es = [] ∨ es = [.shutdown])
      (hplace : (w.todo = none ∧ todo = some f ∧ pendingFunc = w.pendingFunc) ∨
        (todo = w.todo ∧ pendingFunc = w.pendingFunc ++ [f])) :
      Effect w a { w.view with
        state := .kDisConnecting
        todo
        pendingFunc
        trace := w.view.trace ++ es }
  /-- What was to be run has no effect. -/
  | drop {env f} (htodo : w.todo = some f) (hf : f.output? = none ∨ w.conn.state = .kDisConnected)
      (hcloses : f.closes = true → w.conn.state ≠ .kDisConnecting) :
      Effect w (.run env) { w.view with todo := none }
  | establish {env} (htodo : w.todo = some .connectEstablelished)
      (hstate : w.conn.state = .kConnecting) :
      Effect w (.run env) { w.view with state := .kConnected, todo := none }
  | abort {env} (htodo : w.todo = some .connectEstablelished) :
      Effect w (.run env) { w.view with aborted := true, todo := none }
  | destroy {env} (htodo : w.todo = some .connectDestroyed) (hstate : w.conn.state = .kConnected) :
      Effect w (.run env) { w.view with state := .kDisConnected, todo := none }
  /-- What was to be run closes the connection. -/
  | close {env v} (es : List Event) (hes : es = [] ∨ ∃ o, es = [.taken o])
      (h : Closes { w.view with todo := none, trace := w.view.trace ++ es } v) :
      Effect w (.run env) v
  /-- The end of `sendInLoop` after a `::write` of its own. -/
  | write {env todo} (hd tl : Bytes) (htodo : w.todo = some (.sendInLoop (hd ++ tl)))
      (hstate : w.conn.state ≠ .kDisConnected) (hwriting : w.view.writing = false)
      (hbuffered : w.view.buffered = []) (hnext : todo = none ∨ todo = some .shutdownInLoop) :
      Effect w (.run env) { w.view with
        buffered := w.view.buffered ++ tl
        writing := w.view.writing || tl ≠ []
        todo
        trace := w.view.trace ++ [.taken (.message (hd ++ tl))] ++ [.wrote hd] }
  /-- The end of `sendInLoop` without one. -/
  | append {env data todo} (htodo : w.todo = some (.sendInLoop data))
      (hstate : w.conn.state ≠ .kDisConnected)
      (hnext : todo = none ∨ todo = some .shutdownInLoop) :
      Effect w (.run env) { w.view with
        buffered := w.view.buffered ++ data
        writing := w.view.writing || data ≠ []
        todo
        trace := w.view.trace ++ [.taken (.message data)] }
  /-- A file could not be opened before the connection was established. -/
  | lose {env filePath} (htodo : w.todo = some (.sendFileInLoop filePath))
      (hstate : w.conn.state = .kConnecting) :
      Effect w (.run env) { w.view with
        todo := none
        trace := w.view.trace ++ [.taken (.file filePath)] }
  | openFile {env fd filePath} (htodo : w.todo = some (.sendFileInLoop filePath))
      (hopened : env.opened = .opened fd) (hstate : w.conn.state ≠ .kDisConnected) :
      Effect w (.run env) { w.view with
        unsent := w.disk filePath
        sized := true
        writing := true
        todo := none
        trace := w.view.trace ++ [.taken (.file filePath)] }
  | shutdownWriting {env} (htodo : w.todo = some .shutdownInLoop)
      (hwriting : w.view.writing = true) :
      Effect w (.run env) { w.view with todo := none, trace := w.view.trace ++ [.shutdownWrite] }
  | shutdown {env v} (htodo : w.todo = some .shutdownInLoop) (hwriting : w.view.writing = false)
      (h : Closes { w.view with todo := none, trace := w.view.trace ++ [.shutdownWrite] } v) :
      Effect w (.run env) v

/-! ## Every step has an effect of the list -/

/-- `handleClose` as something that is run. -/
theorem Effect.ofCloses {env : Env} {v : View} (h : Closes { w.view with todo := none } v) :
    Effect w (.run env) v := by
  refine .close [] (.inl rfl) ?_
  rwa [List.append_nil]

/-- A connection is closed, or there is nothing to do before it is established. -/
theorem effect_forceCloseInLoop {env : Env} {f : Functor} {v : TcpLoop} (htodo : w.todo = some f)
    (hf : f.output? = none) (hview : v.view = { w.view with todo := none }) :
    Effect w (.run env) v.forceCloseInLoop.view := by
  rcases v.forceCloseInLoop_cases with h | ⟨hstate, h⟩
  · rw [hview] at h
    exact .ofCloses h
  · have hstate : w.view.state = .kConnecting := by
      rw [← hstate]
      exact (congrArg View.state hview).symm
    rw [h, hview]
    exact .drop htodo (.inl hf) fun _ he => by
      rw [show w.conn.state = .kConnecting from hstate] at he
      contradiction

/-- A message is lost, written as a whole, or buffered in part. -/
theorem effect_sendInLoop {env : Env} {data : Bytes} (htodo : w.todo = some (.sendInLoop data)) :
    Effect w (.run env) (w.clearTodo.sendInLoop data env).view := by
  rw [sendInLoop]
  split
  · rename_i hstate
    exact .drop htodo (.inr hstate) nofun
  · rename_i hstate
    have hview : (w.clearTodo.note (.taken (.message data))).view = { w.view with
        todo := none
        trace := w.view.trace ++ [.taken (.message data)] } := view_note rfl
    generalize w.clearTodo.note (.taken (.message data)) = v at hview ⊢
    have htodo' : v.todo = none := congrArg View.todo hview
    have hrest : Effect w (.run env) (v.sendRest data).view := by
      obtain ⟨todo, hnext, hrest⟩ := view_sendRest (w := v) data
      rw [htodo'] at hnext
      rw [hrest, hview]
      exact .append htodo hstate hnext
    dsimp only
    split
    · rename_i hidle
      rw [Bool.and_eq_true, Bool.not_eq_true', beq_iff_eq, ← buffered_eq_nil] at hidle
      have hwriting : w.view.writing = false := (congrArg View.writing hview).symm.trans hidle.1
      have hbuffered : w.view.buffered = [] := (congrArg View.buffered hview).symm.trans hidle.2
      split
      · rename_i n _
        have hwrote : (v.note (.wrote (data.take n))).view = { w.view with
            todo := none
            trace := w.view.trace ++ [.taken (.message data)] ++ [.wrote (data.take n)] } := by
          rw [view_note rfl, hview]
        have hdata : w.todo = some (.sendInLoop (data.take n ++ data.drop n)) := by
          rw [htodo, List.take_append_drop]
        split
        · rename_i hlength
          have h : Effect w (.run env) _ :=
            .write (data.take n) (data.drop n) hdata hstate hwriting hbuffered (.inl rfl)
          rw [List.take_append_drop, List.drop_eq_nil_of_le hlength] at h
          rw [view_invoke, hwrote]
          simpa using h
        · obtain ⟨todo, hnext, hrest⟩ :=
            view_sendRest (w := v.note (.wrote (data.take n))) (data.drop n)
          rw [show (v.note _).todo = none from htodo'] at hnext
          have h : Effect w (.run env) _ :=
            .write (data.take n) (data.drop n) hdata hstate hwriting hbuffered hnext
          rw [List.take_append_drop] at h
          rw [hrest, hwrote]
          exact h
      · exact hrest
      · exact hrest
    · exact hrest

/-- A file is lost, given up with the connection, or unsent as a whole. -/
theorem effect_sendFileInLoop {env : Env} {filePath : Bytes}
    (htodo : w.todo = some (.sendFileInLoop filePath)) (henv : w.EnvOk env) :
    Effect w (.run env) (w.clearTodo.sendFileInLoop filePath env).view := by
  rw [sendFileInLoop]
  split
  · rename_i hstate
    exact .drop htodo (.inr hstate) nofun
  · rename_i hstate
    have hview : (w.clearTodo.note (.taken (.file filePath))).view = { w.view with
        todo := none
        trace := w.view.trace ++ [.taken (.file filePath)] } := view_note rfl
    have hfresh : ∀ fd ∈ env.opened.fd?,
      (w.clearTodo.note (.taken (.file filePath))).files.get? fd = none := henv.file
    have hdisk : (w.clearTodo.note (.taken (.file filePath))).disk = w.disk := rfl
    generalize w.clearTodo.note (.taken (.file filePath)) = v at hview hfresh hdisk ⊢
    -- without a file the connection is closed, unless it has not been established
    have hclose : ∀ u : TcpLoop, u.view = v.view → Effect w (.run env) u.forceCloseInLoop.view := by
      intro u hu
      rcases u.forceCloseInLoop_cases with h | ⟨hconnecting, h⟩
      · rw [hu, hview] at h
        exact .close [.taken (.file filePath)] (.inr ⟨_, rfl⟩) h
      · rw [h, hu, hview]
        exact .lose htodo ((congrArg View.state (hu.trans hview)).symm.trans hconnecting)
    dsimp only
    cases hopened : env.opened with
    | failed => exact hclose v rfl
    | fstatFailed fd => exact hclose _ (view_openFile_free _ (hfresh fd (by rw [hopened]; rfl)))
    | opened fd =>
      rw [view_enableWriting, view_setFile _ (hfresh fd (by rw [hopened]; rfl)), hview, hdisk]
      exact .openFile htodo hopened hstate

/-- A shutdown waits, or shuts the write side and closes the connection. -/
theorem effect_shutdownInLoop {env : Env} (htodo : w.todo = some .shutdownInLoop) :
    Effect w (.run env) w.clearTodo.shutdownInLoop.view := by
  have hview : w.clearTodo.shutdownWrite.view = { w.view with
      todo := none
      trace := w.view.trace ++ [.shutdownWrite] } := by
    rw [shutdownWrite, view_note rfl]
    rfl
  rw [shutdownInLoop]
  split
  · rename_i hwriting
    have h := closes_handleClose (w := w.clearTodo.shutdownWrite)
    rw [hview] at h
    have hwriting : w.clearTodo.conn.channel.isWriting = false := by simpa using hwriting
    exact .shutdown htodo hwriting h
  · rename_i hwriting
    have hwriting : w.clearTodo.conn.channel.isWriting = true := by simpa using hwriting
    rw [hview]
    exact .shutdownWriting htodo hwriting

/-- The loop thread accepts an output, and is to take it next. -/
theorem effect_accept {a : Action} {f : Functor} {o : Output} {v : TcpLoop}
    (ho : w.accepts a = some o) (hf : f.output? = some o)
    (htodo : ∀ g ∈ w.todo, g.output? = none ∧ g.closes = false)
    (hstate : w.conn.state ≠ .kDisConnected)
    (hfile : w.conn.state = .kConnecting → ∃ data, o = .message data)
    (hview : { v.view with todo := none } = { w.view with todo := none }) :
    Effect w a ((v.note (.accepted o)).runInLoop true f).view := by
  have h : ((v.note (.accepted o)).runInLoop true f).view =
      { w.view with todo := some f, trace := w.view.trace ++ [.accepted o] } := by
    rw [view_runInLoop_true, view_note rfl]
    exact congrArg (fun u : View =>
      { u with todo := some f, trace := u.trace ++ [Event.accepted o] }) hview
  rw [h]
  exact .accept ho hf htodo hstate hfile

/-- A timeout finds nothing, gives its number up with the connection, or sends again. -/
theorem effect_onRetransmitTimeout {env : Env} {seq : Nat}
    (htodo : w.todo = some (.onRetransmitTimeout seq)) :
    Effect w (.run env) (w.clearTodo.onRetransmitTimeout seq).view := by
  have hneutral : ∀ g ∈ w.todo, g.output? = none ∧ g.closes = false := by
    rw [htodo]
    rintro g ⟨⟩
    exact ⟨rfl, rfl⟩
  rw [onRetransmitTimeout]
  split
  · exact .drop htodo (.inl rfl) nofun
  · rename_i node hnode
    change w.conn.pendingRetrans[seq]? = some node at hnode
    split
    · exact effect_forceCloseInLoop htodo rfl rfl
    · rename_i hretries
      dsimp only
      split
      · rename_i hstate
        exact .start hneutral (.inr hstate)
      · rename_i hstate
        change w.conn.state ≠ .kDisConnected at hstate
        have ho : w.accepts (.run env) = some (.message node.entry.data) := by
          simp [accepts, htodo, hnode, hstate, Nat.lt_of_not_le hretries]
        exact effect_accept ho rfl hneutral hstate (fun _ => ⟨_, rfl⟩) rfl

/-- The lambda of `sendWithRetransmit` is refused, or has its data accepted. -/
theorem effect_sendFunc {env : Env} {data : Bytes} {seq : Nat}
    (htodo : w.todo = some (.sendFunc data seq)) :
    Effect w (.run env) (w.clearTodo.sendFunc data seq).view := by
  have hneutral : ∀ g ∈ w.todo, g.output? = none ∧ g.closes = false := by
    rw [htodo]
    rintro g ⟨⟩
    exact ⟨rfl, rfl⟩
  rw [sendFunc, send]
  split
  · exact .drop htodo (.inl rfl) nofun
  · rename_i hstate
    have hstate : w.conn.state = .kConnected := not_not.mp hstate
    have ho : w.accepts (.run env) = some (.message data) := by simp [accepts, htodo, hstate]
    exact effect_accept ho rfl hneutral (by simp [hstate]) (fun _ => ⟨_, rfl⟩) rfl

/-- A connection is established once. -/
theorem effect_connectEstablelished {env : Env} (htodo : w.todo = some .connectEstablelished) :
    Effect w (.run env) (w.clearTodo.connectEstablelished env).view := by
  rw [connectEstablelished]
  split
  · exact .abort htodo
  · rename_i hstate
    have hstate : w.conn.state = .kConnecting := not_not.mp hstate
    have hreading := view_enableReading (w := w.clearTodo)
    rw [view_invoke, view_resetIdleTimer]
    exact (congrArg (fun v : View => Effect w (.run env) { v with state := .kConnected })
      hreading).mpr (.establish htodo hstate)

/-- A connected connection that is destroyed is disconnected without further ado. -/
theorem effect_connectDestroyed {env : Env} (htodo : w.todo = some .connectDestroyed) :
    Effect w (.run env) w.clearTodo.connectDestroyed.view := by
  rw [connectDestroyed, view_removeChannel, view_clearRetrans, view_cancelIdleTimer]
  split
  · rename_i hstate
    exact .destroy htodo hstate
  · exact .drop htodo (.inl rfl) nofun

/-- Whatever the loop thread runs. -/
theorem effect_run {env : Env} {f : Functor} (htodo : w.todo = some f) (henv : w.EnvOk env) :
    Effect w (.run env) (w.clearTodo.run env f).view := by
  cases f with
  | connectEstablelished => exact effect_connectEstablelished htodo
  | connectDestroyed => exact effect_connectDestroyed htodo
  | sendInLoop data => exact effect_sendInLoop htodo
  | sendFileInLoop filePath => exact effect_sendFileInLoop htodo henv
  | shutdownInLoop => exact effect_shutdownInLoop htodo
  | forceCloseInLoop => exact effect_forceCloseInLoop htodo rfl rfl
  | sendFunc data seq => exact effect_sendFunc htodo
  | ackReceived seq =>
    rw [run, view_ackReceived]
    exact .drop htodo (.inl rfl) nofun
  | onIdleTimeout => exact effect_forceCloseInLoop htodo rfl rfl
  | onRetransmitTimeout seq => exact effect_onRetransmitTimeout htodo
  | user => exact .drop htodo (.inl rfl) nofun

/-- A call in the loop thread. -/
theorem effect_call (c : ConnCall) (htodo : w.todo = none) :
    Effect w (.call c) (w.call true c).view := by
  have hneutral : ∀ g ∈ w.todo, g.output? = none ∧ g.closes = false := by
    rw [htodo]
    nofun
  cases c with
  | send data =>
    rw [call, send]
    split
    · exact .quiet
    · rename_i hstate
      have hstate : w.conn.state = .kConnected := not_not.mp hstate
      have ho : w.accepts (.call (.send data)) = some (.message data) := by simp [accepts, hstate]
      exact effect_accept ho rfl hneutral (by simp [hstate]) (by simp [hstate]) rfl
  | sendFile filePath =>
    rw [call, sendFile]
    split
    · exact .quiet
    · rename_i hstate
      have hstate : w.conn.state = .kConnected := not_not.mp hstate
      have ho : w.accepts (.call (.sendFile filePath)) = some (.file filePath) := by
        simp [accepts, hstate]
      exact effect_accept ho rfl hneutral (by simp [hstate]) (by simp [hstate]) rfl
  | shutdown =>
    rw [call, shutdown]
    split
    · rename_i hstate
      rw [view_runInLoop_true, view_note rfl]
      exact .disconnect (f := .shutdownInLoop) rfl rfl (.inl hstate) (.inr rfl)
        (.inl ⟨htodo, rfl, rfl⟩)
    · exact .quiet
  | forceClose =>
    rw [call, forceClose]
    split
    · rename_i hstate
      have h : Effect w (.call .forceClose) _ := .disconnect (f := .forceCloseInLoop) rfl rfl hstate
        (.inl rfl) (.inl ⟨htodo, rfl, rfl⟩)
      rwa [List.append_nil] at h
    · exact .quiet
  | sendWithRetransmit data seq => exact .start hneutral (.inl rfl)
  | ackReceived seq => exact .start hneutral (.inl rfl)

/-- A call in another thread. -/
theorem effect_callElsewhere (c : ConnCall) :
    Effect w (.callElsewhere c) (w.call false c).view := by
  cases c with
  | send data =>
    rw [call, send]
    split
    · exact .quiet
    · rename_i hstate
      rw [view_runInLoop_false, view_note rfl]
      exact .queueOutput (f := .sendInLoop data) rfl (not_not.mp hstate)
  | sendFile filePath =>
    rw [call, sendFile]
    split
    · exact .quiet
    · rename_i hstate
      rw [view_runInLoop_false, view_note rfl]
      exact .queueOutput (f := .sendFileInLoop filePath) rfl (not_not.mp hstate)
  | shutdown =>
    rw [call, shutdown]
    split
    · rename_i hstate
      rw [view_runInLoop_false, view_note rfl]
      exact .disconnect (f := .shutdownInLoop) rfl rfl (.inl hstate) (.inr rfl) (.inr ⟨rfl, rfl⟩)
    · exact .quiet
  | forceClose =>
    rw [call, forceClose]
    split
    · rename_i hstate
      have h : Effect w (.callElsewhere .forceClose) _ :=
        .disconnect (f := .forceCloseInLoop) rfl rfl hstate (.inl rfl) (.inr ⟨rfl, rfl⟩)
      rwa [List.append_nil] at h
    · exact .quiet
  | sendWithRetransmit data seq => exact .queue (f := .sendFunc data seq) rfl
  | ackReceived seq => exact .queue (f := .ackReceived seq) rfl

/-- What the code on top of the stack does: an event handler runs, or the loop thread is given
something to run that carries no output. -/
def Resumes (v v' : View) : Prop :=
  Flow v v' ∨ ∃ f : Functor, f.output? = none ∧ v' = { v with todo := some f }

/-- What the timer queue runs next is about no output. -/
theorem resumes_handleTimers {w' : TcpLoop} (htodo : w.todo = none)
    (h : w.handleTimers = some w') : Resumes w.view w'.view := by
  rw [handleTimers] at h
  split at h
  · contradiction
  · obtain ⟨timers, -, rfl⟩ := Option.map_eq_some_iff.mp h
    exact .inl .quiet
  · rename_i e rest _
    obtain ⟨timers, -, rfl⟩ := Option.map_eq_some_iff.mp h
    cases htask : (w.timers.queue.runEntry e).1 with
    | none =>
      have hview : { w.view with todo := none } = w.view :=
        congrArg (fun todo => { w.view with todo }) htodo.symm
      exact .inl (hview.symm ▸ .quiet)
    | some task =>
      refine .inr ⟨task.functor, ?_, rfl⟩
      cases task <;> rfl
  · obtain ⟨timers, -, rfl⟩ := Option.map_eq_some_iff.mp h
    exact .inl .quiet

/-- What code that goes on does to the output. -/
theorem resumes_resumeFrame {env : Env} {frame : Frame} {w' : TcpLoop} (htodo : w.todo = none)
    (hsized : w.view.sized = true) (h : w.resumeFrame env frame = some w') :
    Resumes w.view w'.view := by
  cases frame with
  | user cb => contradiction
  | handleEvent stage =>
    obtain rfl := Option.some.inj h
    exact .inl (flow_handleEvent env stage hsized)
  | handleWrite =>
    obtain rfl := Option.some.inj h
    exact .inl (flow_handleWriteRest env hsized)
  | handleWriteEnd =>
    obtain rfl := Option.some.inj h
    rw [handleWriteEnd]
    split
    · exact .inr ⟨.shutdownInLoop, rfl, rfl⟩
    · exact .inl .quiet
  | sendFunc data seq =>
    obtain rfl := Option.some.inj h
    rw [view_sendFuncEnd]
    exact .inl .quiet
  | onRetransmitTimeout seq node =>
    obtain rfl := Option.some.inj h
    rw [view_onRetransmitTimeoutEnd]
    exact .inl .quiet
  | timerQueue => exact resumes_handleTimers htodo h

/-- Every step has one of the effects. -/
theorem effect_of_step {a : Action} {w' : TcpLoop} (hsized : w.view.sized = true)
    (h : w.step a = some w') : Effect w a w'.view := by
  have hneutral : w.todo = none → ∀ g ∈ w.todo, g.output? = none ∧ g.closes = false := by
    intro htodo
    rw [htodo]
    nofun
  have hidle : w.idle = true → w.todo = none := by
    simp only [idle, Bool.and_eq_true, Option.isNone_iff_eq_none]
    exact fun h => h.1
  have huser : w.inUserCode = true → w.todo = none := by
    simp only [inUserCode, Bool.and_eq_true, Option.isNone_iff_eq_none]
    exact fun h => h.1
  cases stepped_of_step h with
  | poll hidle' hfunc hready hw => obtain rfl | rfl := hw <;> exact .quiet
  | event | otherEvent => exact .quiet
  | timerEvent hidle' hactive htimers => exact .quiet
  | doPendingFuncs hidle' hfunc => exact .doPendingFuncs hfunc
  | nextFunc hidle' hfunc => exact .nextFunc (hidle hidle') hfunc
  | run htodo henv => exact effect_run htodo henv
  | @resume env frame rest _ htodo hstack henv hresume =>
    obtain hflow | ⟨f, hf, hview⟩ :=
      resumes_resumeFrame (w := { w with stack := rest }) htodo hsized hresume
    · exact .flow htodo hflow
    · rw [hview]
      exact .start (hneutral htodo) (.inl hf)
  | @call c hu => exact effect_call c (huser hu)
  | connectDestroyed hu => exact .start (f := .connectDestroyed) (hneutral (huser hu)) (.inl rfl)
  | retrieve | ret => exact .quiet
  | addTimer hu htimers => exact .quiet
  | cancelTimer hu hid htimers => exact .quiet
  | @callElsewhere c => exact effect_callElsewhere c
  | connectDestroyedElsewhere => exact .queue (f := .connectDestroyed) rfl
  | runElsewhere => exact .queue (f := .user) rfl
  | tick htimers => exact .quiet

/-! ## What no step changes -/

/-- No step brings a connection back. -/
theorem Effect.forward {a : Action} {v : View} (h : Effect w a v) :
    Forward w.conn.state v.state := by
  have hclosed : ∀ t : StateE, Forward t .kDisConnected :=
    fun t => ⟨fun _ => rfl, fun _ => .inr rfl⟩
  cases h with
  | flow htodo hflow =>
    cases hflow with
    | close hu hc =>
      cases hc with
      | closed hstate => exact hclosed _
      | _ => exact forward_rfl _
    | _ => exact forward_rfl _
  | disconnect hf hcloses hstate hes hplace =>
    refine ⟨fun hs => ?_, fun _ => .inl rfl⟩
    rcases hstate with hstate | hstate <;> simp [hstate] at hs
  | establish htodo hstate => simp [Forward, hstate]
  | destroy htodo hstate => exact hclosed _
  | close es hes hc =>
    cases hc with
    | closed hstate => exact hclosed _
    | _ => exact forward_rfl _
  | shutdown htodo hwriting hc =>
    cases hc with
    | closed hstate => exact hclosed _
    | _ => exact forward_rfl _
  | _ => exact forward_rfl _

/-- The files have the content that they had. -/
theorem Effect.disk {a : Action} {v : View} (h : Effect w a v) : v.disk = w.disk := by
  cases h with
  | flow htodo hflow =>
    cases hflow with
    | close hu hc => cases hc <;> rfl
    | _ => rfl
  | close es hes hc => cases hc <;> rfl
  | shutdown htodo hwriting hc => cases hc <;> rfl
  | _ => rfl

/-- A connection in which an assertion has failed takes no step. -/
theorem aborted_of_step {a : Action} {w' : TcpLoop} (h : w.step a = some w') :
    w.aborted = false := by
  simp only [step] at h
  split at h
  · contradiction
  · simp_all

end TcpLoop

/-! ## What is still to come -/

/-- The outputs that functors carry. -/
def outputs (fs : List Functor) : List Output := fs.filterMap Functor.output?

/-- A functor that carries no output does not count. -/
theorem outputs_none {f : Functor} (hf : f.output? = none) (fs : List Functor) :
    outputs (f :: fs) = outputs fs := by
  simp [outputs, hf]

/-- One that carries an output comes in its turn. -/
theorem outputs_some {f : Functor} {o : Output} (hf : f.output? = some o) (fs : List Functor) :
    outputs (f :: fs) = o :: outputs fs := by
  simp [outputs, hf]

@[simp] theorem outputs_nil : outputs [] = [] := rfl

/-- The outputs of two queues come one behind the other. -/
theorem outputs_append (fs gs : List Functor) :
    outputs (fs ++ gs) = outputs fs ++ outputs gs := List.filterMap_append

namespace View

/-- The functors that have not run, in the order in which they will. -/
def functors (v : View) : List Functor := v.todo.toList ++ (v.func ++ v.pendingFunc)

/-- The connection is past all output of its own. -/
def closed (v : View) : Prop := v.state = .kDisConnected ∨ v.aborted = true

/-- The outputs that have not been taken into the loop. -/
def coming (v : View) : List Output := outputs v.functors

/-- The output of the functor that runs was the first to come. -/
theorem coming_take {v v' : View} {f : Functor} {o : Output} (htodo : v.todo = some f)
    (hf : f.output? = some o) (hnone : outputs v'.todo.toList = []) (hfunc : v'.func = v.func)
    (hpendingFunc : v'.pendingFunc = v.pendingFunc) : v.coming = o :: v'.coming := by
  simp [coming, functors, outputs_append, htodo, hnone, hfunc, hpendingFunc, outputs_some hf]

/-- The file in progress has its size, and no file is to come before the connection is
established. -/
structure Sound (v : View) : Prop where
  sized : v.sized = true
  fresh : v.state = .kConnecting → ∀ filePath, .file filePath ∉ v.coming

end View

namespace TcpLoop

variable {w : TcpLoop}

/-- What comes to the loop is what is run next, then what is being run, then what is queued. -/
theorem coming_view (w : TcpLoop) :
    w.view.coming = outputs w.todo.toList ++ (outputs w.func ++ outputs w.pendingFunc) := by
  simp [View.coming, View.functors, outputs_append]

/-- What the loop thread runs without output is nothing to come. -/
theorem outputs_neutral (h : ∀ g ∈ w.todo, g.output? = none ∧ g.closes = false) :
    outputs w.todo.toList = [] := by
  cases htodo : w.todo with
  | none => rfl
  | some g => exact outputs_none (h g htodo).1 []

/-- A close makes nothing unsound. -/
theorem sound_closes {v v' : View} (hc : Closes v v') (h : v.Sound) : v'.Sound := by
  cases hc with
  | already hstate => exact h
  | closed hstate => exact ⟨rfl, nofun⟩
  | aborted hstate => exact ⟨h.sized, h.fresh⟩

/-- A view in which nothing is to come that was not to come before. -/
theorem sound_shrink {v v' : View} (h : v.Sound) (hsized : v'.sized = true)
    (hstate : v'.state = .kConnecting → v.state = .kConnecting)
    (hcoming : ∀ o ∈ v'.coming, o ∈ v.coming) : v'.Sound :=
  ⟨hsized, fun hc filePath hmem => h.fresh (hstate hc) filePath (hcoming _ hmem)⟩

/-- Every effect keeps the view sound. -/
theorem sound_effect {a : Action} {v : View} (h : w.view.Sound) (he : Effect w a v) : v.Sound := by
  have hcoming := coming_view w
  have hrest : ∀ o ∈ outputs w.func ++ outputs w.pendingFunc, o ∈ w.view.coming := by
    rw [hcoming]
    exact fun o => List.mem_append_right _
  have hdiscard : ∀ {v : View}, v.sized = true →
      (v.state = .kConnecting → w.conn.state = .kConnecting) → outputs v.todo.toList = [] →
      v.func = w.func → v.pendingFunc = w.pendingFunc → v.Sound := by
    intro v hsized hstate hnone hfunc hpendingFunc
    refine sound_shrink h hsized hstate ?_
    simpa [View.coming, View.functors, outputs_append, hnone, hfunc, hpendingFunc] using hrest
  cases he with
  | quiet => exact h
  | flow htodo hflow =>
    cases hflow with
    | close hu hc => exact sound_closes hc ⟨rfl, h.fresh⟩
    | _ => exact ⟨h.sized, h.fresh⟩
  | start htodo hf =>
    rcases hf with hf | hstate
    · refine sound_shrink h h.sized id ?_
      simpa [View.coming, View.functors, outputs_append, outputs_none hf] using hrest
    · exact ⟨h.sized, fun hc => by simp [hstate] at hc⟩
  | nextFunc htodo hfunc =>
    refine sound_shrink h h.sized id ?_
    simp [View.coming, View.functors, htodo, hfunc]
  | doPendingFuncs hfunc =>
    refine sound_shrink h h.sized id ?_
    simp [View.coming, View.functors, hfunc]
  | queue hf =>
    refine sound_shrink h h.sized id ?_
    simp [View.coming, View.functors, outputs_append, outputs_none hf]
  | queueOutput hf hstate => exact ⟨h.sized, fun hc => by simp [hstate] at hc⟩
  | accept ho hf htodo hstate hfile =>
    refine ⟨h.sized, fun hc filePath hmem => ?_⟩
    obtain ⟨data, rfl⟩ := hfile hc
    refine h.fresh hc filePath (hrest _ ?_)
    simpa [View.coming, View.functors, outputs_append, outputs_some hf] using hmem
  | disconnect hf hcloses hstate hes hplace => exact ⟨h.sized, nofun⟩
  | drop htodo hf hcloses => exact hdiscard h.sized id rfl rfl rfl
  | establish htodo hstate => exact ⟨h.sized, nofun⟩
  | abort htodo => exact hdiscard h.sized id rfl rfl rfl
  | destroy htodo hstate => exact ⟨h.sized, nofun⟩
  | close es hes hc => exact sound_closes hc (hdiscard h.sized id rfl rfl rfl)
  | write hd tl htodo hstate hwriting hbuffered hnext =>
    refine hdiscard h.sized id ?_ rfl rfl
    rcases hnext with rfl | rfl <;> rfl
  | append htodo hstate hnext =>
    refine hdiscard h.sized id ?_ rfl rfl
    rcases hnext with rfl | rfl <;> rfl
  | lose htodo hstate => exact hdiscard h.sized id rfl rfl rfl
  | openFile htodo hopened hstate => exact hdiscard rfl id rfl rfl rfl
  | shutdownWriting htodo hwriting => exact hdiscard h.sized id rfl rfl rfl
  | shutdown htodo hwriting hc => exact sound_closes hc (hdiscard h.sized id rfl rfl rfl)

/-- A new connection has nothing that could be unsound. -/
theorem sound_start (fd : Nat) (callbacks : Callback → Bool) (disk : Bytes → Bytes) :
    (start fd callbacks disk).view.Sound where
  sized := rfl
  fresh _ filePath := by
    simp [View.coming, View.functors, outputs, start, view, Functor.output?]

/-- A connection that is closed stays so. -/
theorem closed_of_step {a : Action} {w' : TcpLoop} (hsized : w.view.sized = true)
    (hclosed : w.view.closed) (hstep : w.step a = some w') : w'.view.closed := by
  rcases hclosed with hstate | habort
  · exact .inl ((effect_of_step hsized hstep).forward.1 hstate)
  · exact absurd ((aborted_of_step hstep).symm.trans habort) Bool.false_ne_true

/-- In every state of a run the view is sound. -/
theorem sound_view_of_run {fd : Nat} {callbacks : Callback → Bool} {disk : Bytes → Bytes}
    {as : List Action} (h : Run step anyStep (start fd callbacks disk) as w) :
    w.view.Sound ∧ w.disk = disk := by
  refine h.invariant (I := fun w => w.view.Sound ∧ w.disk = disk)
    ⟨sound_start fd callbacks disk, rfl⟩ ?_
  rintro t a u ⟨hsound, hdisk⟩ - hstep
  have he := effect_of_step hsound.sized hstep
  exact ⟨sound_effect hsound he, he.disk.trans hdisk⟩

end TcpLoop

end ClearMoon.Tcp

import ClearMoon.Tcp.Life

/-!
# Calls from user code

User code in the loop thread calls its connection, and what the call runs in the loop may invoke
further user code, on top of the caller's frame. Until the caller goes on, the loop thread comes to
no event, timer or queued functor. So nothing of what waits in the buffer or in a file is handed
over meanwhile; only `sendInLoop` writes, and only past an empty buffer.
-/

namespace ClearMoon.Tcp

open ClearMoon.Net ClearMoon.Timer

/-- A frame that a call leaves on the stack. -/
def Frame.isNested : Frame → Bool
  | user _ | sendFunc _ _ => true
  | _ => false

/-- What a call runs in the loop. -/
def Functor.isCalled : Functor → Bool
  | connectDestroyed | sendInLoop _ | sendFileInLoop _ | shutdownInLoop | forceCloseInLoop
  | sendFunc _ _ | ackReceived _ => true
  | connectEstablelished | onIdleTimeout | onRetransmitTimeout _ | user => false

/-- A step of another thread, or time. -/
def Action.elsewhere : Action → Bool
  | callElsewhere _ | connectDestroyedElsewhere | runElsewhere | tick _ => true
  | _ => false

namespace TcpLoop

variable {w u v w' : TcpLoop} {k : List Frame}

/-- The loop thread is back at the code with this stack. -/
def BackAt (k : List Frame) (w : TcpLoop) : Prop := w.todo = none ∧ w.stack = k

/-- Once the loop thread is back, only other threads go on. -/
def Inside (k : List Frame) (w : TcpLoop) (a : Action) : Prop :=
  w.BackAt k → a.elsewhere = true

/-- User code makes calls one after the other. Each call comes with the answers to what it runs in
the loop, and is over when all that it has invoked has returned. -/
inductive Performs : TcpLoop → List (ConnCall × Env) → TcpLoop → Prop
  | nil (w : TcpLoop) : Performs w [] w
  | cons {w c env cs u v t w' as} (hcall : w.step (.call c) = some u)
      (hrun : u.todo = none ∧ v = u ∨ u.step (.run env) = some v)
      (hinside : Run step (Inside w.stack) v as t) (hback : t.BackAt w.stack)
      (hrest : Performs t cs w') : Performs w ((c, env) :: cs) w'

/-! ### The stack -/

/-- What is run next, and what is left to do. -/
def control (w : TcpLoop) : Option Functor × List Frame := (w.todo, w.stack)

/-- Cancelling a timer runs nothing. -/
theorem control_cancel (id : Option TimerId) : (w.cancel id).control = w.control := by
  obtain ⟨queue, h⟩ := w.cancel_frame id
  rw [h]
  rfl

theorem control_cancelIdleTimer : w.cancelIdleTimer.control = w.control :=
  control_cancel w.conn.idleTimerId

/-- Dropping the entries runs nothing either. -/
theorem control_clearRetrans : w.clearRetrans.control = w.control := by
  obtain ⟨queue, h⟩ := foldl_cancel_frame w.conn.pendingRetrans.toList w
  rw [clearRetrans, h]
  rfl

theorem control_dropFile : w.dropFile.control = w.control := by
  obtain ⟨files, h⟩ := w.closeFile_frame
  rw [dropFile, h]
  rfl

/-- A file may be opened without anything being run next. -/
theorem control_openFile (filePath : Bytes) (fd : Addr) :
    (w.openFile filePath fd).control = w.control := by
  rw [openFile]
  split
  · rfl
  · rfl

/-- Buffering output runs nothing. -/
theorem control_appendOutput (rest : Bytes) : (w.appendOutput rest).control = w.control := by
  rw [appendOutput]
  split
  · rfl
  · dsimp only
    split
    · rfl
    · rfl

/-- The lambda of `sendWithRetransmit` ends by making its entry. -/
theorem control_sendFuncEnd (data : Bytes) (seq : Nat) (env : Env) :
    (w.sendFuncEnd data seq env).control = w.control := by
  obtain ⟨queue, pendingRetrans, nextNode, h⟩ := w.sendFuncEnd_frame data seq env
  rw [h]
  rfl

theorem control_ackReceived (seq : Nat) : (w.ackReceived seq).control = w.control := by
  obtain ⟨queue, pendingRetrans, h⟩ := w.ackReceived_frame seq
  rw [h]
  rfl

/-- What runs inside a call leaves only nested frames on the stack, and runs only what is called. -/
structure Nested (k : List Frame) (w : TcpLoop) : Prop where
  stack : ∃ fs, w.stack = fs ++ k ∧ ∀ f ∈ fs, f.isNested = true
  todo : ∀ f ∈ w.todo, f.isCalled = true

/-- Being nested depends on the stack and on what is run next. -/
theorem Nested.of_control (h : w.Nested k) (hsame : v.control = w.control) : v.Nested k := by
  obtain ⟨htodo, hstack⟩ := Prod.mk.inj hsame
  refine ⟨?_, ?_⟩
  · rw [hstack]
    exact h.stack
  · rw [htodo]
    exact h.todo

/-- A nested frame may be pushed. -/
theorem Nested.push {frame : Frame} (h : w.Nested k) (hframe : frame.isNested = true) :
    (w.push frame).Nested k := by
  obtain ⟨fs, hfs, hnested⟩ := h.stack
  refine ⟨⟨frame :: fs, ?_, List.forall_mem_cons.mpr ⟨hframe, hnested⟩⟩, h.todo⟩
  rw [TcpLoop.push, hfs]
  rfl

/-- A callback runs on top of the code that invokes it. -/
theorem Nested.invoke (h : w.Nested k) (cb : Callback) : (w.invoke cb).Nested k := by
  rw [TcpLoop.invoke]
  split
  · exact Nested.push ⟨h.stack, h.todo⟩ rfl
  · exact h

/-- A call may run a functor next, or queue it. -/
theorem Nested.runInLoop {f : Functor} (h : w.Nested k) (inThread : Bool)
    (hf : f.isCalled = true) : (w.runInLoop inThread f).Nested k := by
  cases inThread with
  | false => exact ⟨h.stack, h.todo⟩
  | true => exact ⟨h.stack, by simpa [TcpLoop.runInLoop] using hf⟩

/-- A close inside a call invokes the close callback on top of it. -/
theorem Nested.handleClose (h : w.Nested k) : w.handleClose.Nested k := by
  have hclosed : ({ (w.setState .kDisConnected).removeChannel.dropFile with
      conn.fileSentOffset := 0, conn.fileTotalSize := 0 }.cancelIdleTimer.clearRetrans.invoke
        .close).Nested k := by
    refine Nested.invoke (h.of_control ?_) _
    rw [control_clearRetrans, control_cancelIdleTimer]
    exact control_dropFile (w := (w.setState .kDisConnected).removeChannel)
  unfold TcpLoop.handleClose
  split
  · exact h
  · exact ⟨h.stack, h.todo⟩
  · exact hclosed
  · exact hclosed

theorem Nested.forceCloseInLoop (h : w.Nested k) : w.forceCloseInLoop.Nested k := by
  rw [TcpLoop.forceCloseInLoop]
  split
  · exact h.handleClose
  · exact h

/-- A shutdown inside a call may close the connection. -/
theorem Nested.shutdownInLoop (h : w.Nested k) : w.shutdownInLoop.Nested k := by
  have hshut : w.shutdownWrite.Nested k := ⟨h.stack, h.todo⟩
  rw [TcpLoop.shutdownInLoop]
  split
  · exact hshut.handleClose
  · exact hshut

/-- What is left of a message may be followed by a shutdown, inside the call. -/
theorem Nested.sendRest (h : w.Nested k) (rest : Bytes) : (w.sendRest rest).Nested k := by
  have happend := h.of_control (control_appendOutput rest)
  rw [TcpLoop.sendRest]
  split
  · exact happend.runInLoop true rfl
  · exact happend

/-- A message that is written at once invokes its callback inside the call. -/
theorem Nested.sendInLoop (h : w.Nested k) (data : Bytes) (env : Env) :
    (w.sendInLoop data env).Nested k := by
  have hnote : ∀ {w : TcpLoop} {e : Event}, w.Nested k → (w.note e).Nested k :=
    fun h => ⟨h.stack, h.todo⟩
  rw [TcpLoop.sendInLoop]
  split
  · exact h
  · dsimp only
    split
    · split
      · split
        · exact (hnote (hnote h)).invoke _
        · exact (hnote (hnote h)).sendRest _
      · exact (hnote h).sendRest _
      · exact (hnote h).sendRest _
    · exact (hnote h).sendRest _

/-- A file that cannot be opened closes the connection inside the call. -/
theorem Nested.sendFileInLoop (h : w.Nested k) (filePath : Bytes) (env : Env) :
    (w.sendFileInLoop filePath env).Nested k := by
  have hopen : ∀ fd, ((w.note (.taken (.file filePath))).openFile filePath fd).Nested k :=
    fun fd => h.of_control (control_openFile filePath fd)
  rw [TcpLoop.sendFileInLoop]
  split
  · exact h
  · dsimp only
    split
    · exact Nested.forceCloseInLoop ⟨h.stack, h.todo⟩
    · rename_i fd _
      exact Nested.forceCloseInLoop ⟨(hopen fd).stack, (hopen fd).todo⟩
    · rename_i fd _
      exact ⟨(hopen fd).stack, (hopen fd).todo⟩

/-- Destroying the connection invokes nothing. -/
theorem Nested.connectDestroyed (h : w.Nested k) : w.connectDestroyed.Nested k := by
  have hremoved : ∀ v : TcpLoop, v.cancelIdleTimer.clearRetrans.removeChannel.control = v.control :=
    fun v => control_clearRetrans.trans control_cancelIdleTimer
  rw [TcpLoop.connectDestroyed]
  refine h.of_control ((hremoved _).trans ?_)
  split
  · rfl
  · rfl

/-- `send` runs `sendInLoop` inside the call. -/
theorem Nested.send (h : w.Nested k) (inThread : Bool) (data : Bytes) :
    (w.send inThread data).Nested k := by
  rw [TcpLoop.send]
  split
  · exact h
  · refine Nested.runInLoop (f := .sendInLoop data) ?_ inThread rfl
    exact h.of_control rfl

/-- Calls may be made inside calls. -/
theorem Nested.call (h : w.Nested k) (inThread : Bool) (c : ConnCall) :
    (w.call inThread c).Nested k := by
  cases c with
  | send data => exact h.send inThread data
  | sendFile filePath =>
    rw [TcpLoop.call, sendFile]
    split
    · exact h
    · refine Nested.runInLoop (f := .sendFileInLoop filePath) ?_ inThread rfl
      exact h.of_control rfl
  | shutdown =>
    rw [TcpLoop.call, shutdown]
    split
    · refine Nested.runInLoop (f := .shutdownInLoop) ?_ inThread rfl
      exact h.of_control rfl
    · exact h
  | forceClose =>
    rw [TcpLoop.call, forceClose]
    split
    · refine Nested.runInLoop (f := .forceCloseInLoop) ?_ inThread rfl
      exact h.of_control rfl
    · exact h
  | sendWithRetransmit data seq => exact h.runInLoop inThread rfl
  | ackReceived seq => exact h.runInLoop inThread rfl

/-- What a call runs stays inside it. -/
theorem Nested.run (h : w.Nested k) {f : Functor} (hf : f.isCalled = true) (env : Env) :
    (w.run env f).Nested k := by
  cases f with
  | connectDestroyed => exact h.connectDestroyed
  | sendInLoop data => exact h.sendInLoop data env
  | sendFileInLoop filePath => exact h.sendFileInLoop filePath env
  | shutdownInLoop => exact h.shutdownInLoop
  | forceCloseInLoop => exact h.forceCloseInLoop
  | sendFunc data seq => exact (h.push rfl).send true data
  | ackReceived seq => exact h.of_control (control_ackReceived seq)
  | _ => contradiction

end TcpLoop

/-! ### What is handed over meanwhile -/

namespace View

/-- Something waits in the buffer, or the channel waits to be writeable. -/
def Busy (v : View) : Prop := v.writing = true ∨ v.buffered ≠ []

/-- The connection takes no more output, and none is on its way in the loop thread. -/
def Refuses (v : View) : Prop :=
  v.state = .kDisConnected ∨ v.state ≠ .kConnected ∧ ∀ f ∈ v.todo, f.output? = none

/-- What can be handed over inside a call: a message, past an empty buffer. -/
structure Passive (v v' : View) : Prop where
  sent : sentFile v'.trace = sentFile v.trace
  grows : wrote v.trace <+: wrote v'.trace
  busy : v.Busy → v'.Busy ∧ wrote v'.trace = wrote v.trace
  refuses : v.Refuses → v'.Refuses ∧ wrote v'.trace = wrote v.trace

namespace Passive

variable {v v' v'' : View}

theorem refl (v : View) : v.Passive v :=
  ⟨rfl, List.prefix_rfl, fun h => ⟨h, rfl⟩, fun h => ⟨h, rfl⟩⟩

/-- Passive transitions compose. -/
theorem trans (h : v.Passive v') (h' : v'.Passive v'') : v.Passive v'' where
  sent := h'.sent.trans h.sent
  grows := h.grows.trans h'.grows
  busy hv := ⟨(h'.busy (h.busy hv).1).1, (h'.busy (h.busy hv).1).2.trans (h.busy hv).2⟩
  refuses hv :=
    ⟨(h'.refuses (h.refuses hv).1).1, (h'.refuses (h.refuses hv).1).2.trans (h.refuses hv).2⟩

/-- A step that hands nothing over. -/
theorem ofSilent (es : List Event) (hes : ∀ e ∈ es, e.wroteBytes = [] ∧ e.sentBytes = [])
    (htrace : v'.trace = v.trace ++ es) (hbusy : v.Busy → v'.Busy)
    (hrefuses : v.Refuses → v'.Refuses) : v.Passive v' := by
  have hwrote : Tcp.wrote v'.trace = Tcp.wrote v.trace := by
    rw [Tcp.wrote, htrace, List.flatMap_append,
      List.flatMap_eq_nil_iff.mpr fun e he => (hes e he).1, List.append_nil]
    rfl
  refine ⟨?_, hwrote ▸ List.prefix_rfl, fun h => ⟨hbusy h, hwrote⟩, fun h => ⟨hrefuses h, hwrote⟩⟩
  rw [sentFile, htrace, List.flatMap_append, List.flatMap_eq_nil_iff.mpr fun e he => (hes e he).2,
    List.append_nil]
  rfl

/-- A close hands nothing over. -/
theorem ofCloses (h : Closes v v') : v.Passive v' := by
  cases h with
  | already h => exact refl v
  | closed h => exact ofSilent [] (by simp) (List.append_nil _).symm id fun _ => .inl rfl
  | aborted h => exact ofSilent [] (by simp) (List.append_nil _).symm id id

end Passive

end View

namespace TcpLoop

variable {w u v w' : TcpLoop} {k : List Frame}

open View

/-- Nothing waits exactly if the channel is not writing and the buffer is empty. -/
theorem not_busy_iff : ¬w.view.Busy ↔
    w.conn.channel.isWriting = false ∧ w.conn.writeBuffer.readableBytes = 0 := by
  rw [Busy, not_or, not_not, buffered_eq_nil, Bool.not_eq_true]
  rfl

/-- What a call runs hands a message over past an empty buffer at most. -/
theorem passive_effect_run {env : Env} {f : Functor} {v : View} (htodo : w.todo = some f)
    (hf : f.isCalled = true) (h : Effect w (.run env) v) : w.view.Passive v := by
  -- an output that is about to be taken is not refused, unless the connection is closed
  have htaking : ∀ {g : Functor} {o : Output}, w.todo = some g → g.output? = some o →
      w.conn.state ≠ .kDisConnected → ¬w.view.Refuses := by
    rintro g o hg ho hstate (hclosed | ⟨-, hnone⟩)
    · exact hstate hclosed
    · rw [hnone g hg] at ho
      contradiction
  cases h with
  | quiet => exact .refl _
  | flow hnone => rw [hnone] at htodo; contradiction
  | @start _ g hneutral hg =>
    refine .ofSilent [] (by simp) (List.append_nil _).symm id ?_
    rintro (hclosed | ⟨hstate, -⟩)
    · exact .inl hclosed
    · rcases hg with hg | hclosed
      · exact .inr ⟨hstate, by simpa using hg⟩
      · exact .inl hclosed
  | queue hg => exact .ofSilent [] (by simp) (List.append_nil _).symm id id
  | queueOutput hg hstate =>
    exact .ofSilent [.accepted _] (by simp [Event.wroteBytes, Event.sentBytes]) rfl id id
  | accept ho hg hneutral hstate hfile =>
    refine .ofSilent [.accepted _] (by simp [Event.wroteBytes, Event.sentBytes]) rfl id ?_
    rintro (hclosed | ⟨hrefused, -⟩)
    · exact absurd hclosed hstate
    · simp only [accepts, htodo] at ho
      cases f with
      | sendFunc data seq =>
        have hconnected := (Option.ite_none_right_eq_some.mp ho).1
        contradiction
      | _ => contradiction
  | @disconnect _ g es todo pendingFunc hg hcloses hstate hes hplace =>
    refine .ofSilent es ?_ rfl id ?_
    · rcases hes with rfl | rfl
      · simp
      · simp [Event.wroteBytes, Event.sentBytes]
    · rintro (hclosed | ⟨-, hnone⟩)
      · rcases hstate with hstate | hstate
        · rw [show w.conn.state = .kDisConnected from hclosed] at hstate
          contradiction
        · rw [show w.conn.state = .kDisConnected from hclosed] at hstate
          contradiction
      · refine .inr ⟨by simp, ?_⟩
        rcases hplace with ⟨-, rfl, -⟩ | ⟨rfl, -⟩
        · simpa using hg
        · exact hnone
  | drop hg hvoid hcloses =>
    refine .ofSilent [] (by simp) (List.append_nil _).symm id ?_
    rintro (hclosed | ⟨hstate, -⟩)
    · exact .inl hclosed
    · exact .inr ⟨hstate, by simp⟩
  | establish hg hstate =>
    obtain rfl := Option.some.inj (htodo.symm.trans hg)
    contradiction
  | abort hg =>
    obtain rfl := Option.some.inj (htodo.symm.trans hg)
    contradiction
  | destroy hg hstate => exact .ofSilent [] (by simp) (List.append_nil _).symm id fun _ => .inl rfl
  | close es hes hc =>
    refine Passive.trans ?_ (.ofCloses hc)
    refine .ofSilent es ?_ rfl id ?_
    · rcases hes with rfl | ⟨o, rfl⟩
      · simp
      · simp [Event.wroteBytes, Event.sentBytes]
    · rintro (hclosed | ⟨hstate, -⟩)
      · exact .inl hclosed
      · exact .inr ⟨hstate, by simp⟩
  | write hd tl hg hstate hwriting hbuffered hnext =>
    have hidle : ¬w.view.Busy := by
      rintro (hbusy | hbusy)
      · rw [hwriting] at hbusy
        contradiction
      · exact hbusy hbuffered
    refine ⟨?_, ?_, fun hbusy => absurd hbusy hidle,
      fun hrefuses => absurd hrefuses (htaking hg rfl hstate)⟩
    · rw [sentFile_concat, sentFile_concat]
      simp [Event.sentBytes]
    · rw [wrote_concat, wrote_concat]
      simp [Event.wroteBytes]
  | append hg hstate hnext =>
    refine .ofSilent [.taken _] (by simp [Event.wroteBytes, Event.sentBytes]) rfl ?_
      fun hrefuses => absurd hrefuses (htaking hg rfl hstate)
    rintro (hwriting | hbuffered)
    · left
      simp [hwriting]
    · right
      simp [hbuffered]
  | lose hg hstate =>
    refine .ofSilent [.taken _] (by simp [Event.wroteBytes, Event.sentBytes]) rfl id
      fun hrefuses => absurd hrefuses (htaking hg rfl ?_)
    simp [hstate]
  | openFile hg hopened hstate =>
    exact .ofSilent [.taken _] (by simp [Event.wroteBytes, Event.sentBytes]) rfl (fun _ => .inl rfl)
      fun hrefuses => absurd hrefuses (htaking hg rfl hstate)
  | shutdownWriting hg hwriting =>
    refine .ofSilent [.shutdownWrite] (by simp [Event.wroteBytes, Event.sentBytes]) rfl id ?_
    rintro (hclosed | ⟨hstate, -⟩)
    · exact .inl hclosed
    · exact .inr ⟨hstate, by simp⟩
  | shutdown hg hwriting hc =>
    refine Passive.trans ?_ (.ofCloses hc)
    refine .ofSilent [.shutdownWrite] ?_ rfl id ?_
    · simp [Event.wroteBytes, Event.sentBytes]
    · rintro (hclosed | ⟨hstate, -⟩)
      · exact .inl hclosed
      · exact .inr ⟨hstate, by simp⟩

/-- An output is accepted and on its way. -/
theorem passive_accept {f : Functor} {o : Output} (inThread : Bool)
    (hstate : w.conn.state = .kConnected) :
    w.view.Passive ((w.note (.accepted o)).runInLoop inThread f).view := by
  have hopen : ¬w.view.Refuses := by
    rintro (hclosed | ⟨hrefused, -⟩)
    · rw [show w.conn.state = .kDisConnected from hclosed] at hstate
      contradiction
    · exact hrefused hstate
  have hview := view_note (w := w) (e := .accepted o) rfl
  have htrace := congrArg View.trace hview
  refine .ofSilent [.accepted o] (by simp [Event.wroteBytes, Event.sentBytes]) ?_ ?_
    fun h => absurd h hopen
  · cases inThread with
    | false => exact htrace
    | true => exact htrace
  · cases inThread with
    | false => exact id
    | true => exact id

/-- Something that carries no output is on its way. -/
theorem passive_runInLoop {f : Functor} (hf : f.output? = none) (inThread : Bool) :
    w.view.Passive (w.runInLoop inThread f).view := by
  cases inThread with
  | false => exact .ofSilent [] (by simp) (List.append_nil _).symm id id
  | true =>
    refine .ofSilent [] (by simp) (List.append_nil _).symm id ?_
    rintro (hclosed | ⟨hstate, -⟩)
    · exact .inl hclosed
    · exact .inr ⟨hstate, by simpa [view, TcpLoop.runInLoop] using hf⟩

/-- A connection that begins to disconnect hands nothing over by that. -/
theorem passive_setState_kDisConnecting (hopen : w.conn.state ≠ .kDisConnected) :
    w.view.Passive (w.setState .kDisConnecting).view := by
  refine .ofSilent [] (by simp) (List.append_nil _).symm id ?_
  rintro (hclosed | ⟨-, hnone⟩)
  · exact absurd hclosed hopen
  · exact .inr ⟨by simp [view, setState], hnone⟩

/-- Nor does an event that is no write. -/
theorem passive_note {e : Event} (he : e.isOutput = true)
    (hbytes : e.wroteBytes = [] ∧ e.sentBytes = []) : w.view.Passive (w.note e).view := by
  rw [view_note he]
  exact .ofSilent [e] (by simpa using hbytes) rfl id id

/-- The call itself hands nothing over. -/
theorem passive_call (inThread : Bool) (c : ConnCall) :
    w.view.Passive (w.call inThread c).view := by
  cases c with
  | send data =>
    rw [call, send]
    split
    · exact .refl _
    · rename_i hstate
      exact passive_accept inThread (not_not.mp hstate)
  | sendFile filePath =>
    rw [call, sendFile]
    split
    · exact .refl _
    · rename_i hstate
      exact passive_accept inThread (not_not.mp hstate)
  | shutdown =>
    rw [call, shutdown]
    split
    · rename_i hstate
      refine ((passive_setState_kDisConnecting ?_).trans (passive_note rfl ⟨rfl, rfl⟩)).trans
        (passive_runInLoop rfl inThread)
      rw [hstate]
      simp
    · exact .refl _
  | forceClose =>
    rw [call, forceClose]
    split
    · rename_i hstate
      refine (passive_setState_kDisConnecting ?_).trans (passive_runInLoop rfl inThread)
      rcases hstate with hstate | hstate
      · rw [hstate]
        simp
      · rw [hstate]
        simp
    · exact .refl _
  | sendWithRetransmit data seq => exact passive_runInLoop rfl inThread
  | ackReceived seq => exact passive_runInLoop rfl inThread

/-! ### Steps inside a call -/

/-- A frame is taken off the stack, which is the user code at the bottom or a nested one. -/
theorem Nested.pop {bottom frame : Frame} {rest : List Frame} (h : w.Nested (bottom :: k))
    (hstack : w.stack = frame :: rest) :
    ((frame :: rest ≠ bottom :: k) → { w with stack := rest }.Nested (bottom :: k)) ∧
      (frame ≠ bottom → frame.isNested = true) := by
  obtain ⟨fs, hfs, hnested⟩ := h.stack
  rw [hstack] at hfs
  cases fs with
  | nil =>
    refine ⟨fun hne => absurd hfs hne, fun hne => ?_⟩
    exact absurd (List.cons.inj hfs).1 hne
  | cons f fs =>
    obtain ⟨rfl, rfl⟩ := List.cons.inj hfs
    obtain ⟨hframe, hrest⟩ := List.forall_mem_cons.mp hnested
    exact ⟨fun _ => ⟨⟨fs, rfl, hrest⟩, h.todo⟩, fun _ => hframe⟩

/-- A step inside a call, above a frame of user code. -/
theorem inside_step {cb : Option Callback} {a : Action} (hn : w.Nested (.user cb :: k))
    (hguard : Inside (.user cb :: k) w a) (hstep : w.step a = some w') :
    w'.Nested (.user cb :: k) ∧ w.view.Passive w'.view := by
  have hbusy : w.idle = false := by
    obtain ⟨fs, hfs, -⟩ := hn.stack
    rw [idle, hfs]
    simp
  have hsame : ∀ {v : TcpLoop}, v.control = w.control → v.view = w.view →
      v.Nested (.user cb :: k) ∧ w.view.Passive v.view := by
    intro v hcontrol hview
    exact ⟨hn.of_control hcontrol, hview ▸ .refl _⟩
  cases stepped_of_step hstep with
  | poll hidle | event hidle | timerEvent hidle | otherEvent hidle | doPendingFuncs hidle
  | nextFunc hidle =>
    rw [hbusy] at hidle
    contradiction
  | @run env f htodo henv =>
    have hf := hn.todo f htodo
    have hclear : w.clearTodo.Nested (.user cb :: k) := ⟨hn.stack, by simp [clearTodo]⟩
    exact ⟨hclear.run hf env, passive_effect_run htodo hf (effect_run htodo henv)⟩
  | @resume env frame rest _ htodo hstack henv hresume =>
    obtain ⟨hpop, hframe⟩ := hn.pop hstack
    cases frame with
    | user cb => contradiction
    | sendFunc data seq =>
      obtain rfl := Option.some.inj hresume
      rw [view_sendFuncEnd]
      exact ⟨(hpop (by simp)).of_control (control_sendFuncEnd data seq env), .refl _⟩
    | _ => exact absurd (hframe (by simp)) (by simp [Frame.isNested])
  | @call c huser => exact ⟨hn.call true c, passive_call true c⟩
  | connectDestroyed huser => exact ⟨hn.runInLoop true rfl, passive_runInLoop rfl true⟩
  | retrieve | addTimer | cancelTimer | tick => exact hsame rfl rfl
  | ret htodo hstack =>
    obtain ⟨hpop, -⟩ := hn.pop hstack
    refine ⟨hpop fun hback => ?_, .refl _⟩
    -- the user code at the bottom returns only when the call is over
    have helsewhere := hguard ⟨htodo, hstack.trans hback⟩
    contradiction
  | @callElsewhere c => exact ⟨hn.call false c, passive_call false c⟩
  | connectDestroyedElsewhere => exact ⟨hn.runInLoop false rfl, passive_runInLoop rfl false⟩
  | runElsewhere => exact ⟨⟨hn.stack, hn.todo⟩, passive_runInLoop rfl false⟩

/-- All that runs inside a call is nested and passive. -/
theorem inside_run {cb : Option Callback} {as : List Action} (hn : w.Nested (.user cb :: k))
    (hrun : Run step (Inside (.user cb :: k)) w as w') :
    w'.Nested (.user cb :: k) ∧ w.view.Passive w'.view :=
  hrun.invariant (I := fun u => u.Nested (.user cb :: k) ∧ w.view.Passive u.view)
    ⟨hn, .refl _⟩ fun _ _ _ hu hguard hstep =>
      ⟨(inside_step hu.1 hguard hstep).1, hu.2.trans (inside_step hu.1 hguard hstep).2⟩

/-- User code is on top of the stack when it makes a call. -/
theorem user_of_call {c : ConnCall} (hcall : w.step (.call c) = some u) :
    w.todo = none ∧ (∃ cb k, w.stack = .user cb :: k) ∧ u = w.call true c := by
  cases stepped_of_step hcall with
  | call huser =>
    simp only [inUserCode, Bool.and_eq_true, Option.isNone_iff_eq_none] at huser
    refine ⟨huser.1, ?_, rfl⟩
    have htop := huser.2
    split at htop
    · rename_i cb k hstack
      exact ⟨cb, k, hstack⟩
    · contradiction

/-- What runs is the functor that was taken. -/
theorem running_of_run {env : Env} (hrun : w.step (.run env) = some u) :
    ∃ f, w.todo = some f ∧ u = w.clearTodo.run env f := by
  cases stepped_of_step hrun with
  | @run _ f htodo henv => exact ⟨f, htodo, rfl⟩

/-- One call, with all that is invoked until it is over. -/
theorem passive_performs_one {c : ConnCall} {env : Env} {as : List Action} {t : TcpLoop}
    (hcall : w.step (.call c) = some u)
    (hrun : u.todo = none ∧ v = u ∨ u.step (.run env) = some v)
    (hinside : Run step (Inside w.stack) v as t) :
    v.view.Passive t.view ∧ w.view.Passive v.view := by
  obtain ⟨htodo, ⟨cb, k, hstack⟩, rfl⟩ := user_of_call hcall
  have hw : w.Nested (.user cb :: k) := ⟨⟨[], hstack, by simp⟩, by simp [htodo]⟩
  have hu := hw.call true c
  have hcalled := passive_call (w := w) true c
  rw [hstack] at hinside
  rcases hrun with ⟨-, rfl⟩ | hrun
  · exact ⟨(inside_run hu hinside).2, hcalled⟩
  · have hguard : Inside (.user cb :: k) (w.call true c) (.run env) := by
      rintro ⟨hnone, -⟩
      obtain ⟨f, hf, -⟩ := running_of_run hrun
      rw [hnone] at hf
      contradiction
    obtain ⟨hv, hpassive⟩ := inside_step hu hguard hrun
    exact ⟨(inside_run hv hinside).2, hcalled.trans hpassive⟩

/-- Calls made one after the other are passive together. -/
theorem Performs.passive {cs : List (ConnCall × Env)} (h : Performs w cs w') :
    w.view.Passive w'.view := by
  induction h with
  | nil w => exact .refl _
  | cons hcall hrun hinside hback hrest ih =>
    obtain ⟨hnested, hcalled⟩ := passive_performs_one hcall hrun hinside
    exact (hcalled.trans hnested).trans ih

/-- A connection does not come back to an earlier state. -/
theorem rank_of_run {guard : TcpLoop → Action → Prop} {as : List Action}
    (hrun : Run step guard w as w') : w.conn.state.rank ≤ w'.conn.state.rank :=
  hrun.invariant (I := fun u => w.conn.state.rank ≤ u.conn.state.rank) le_rfl
    fun _ _ _ hle _ hstep => hle.trans (moves_of_step hstep).rank_le

/-- One call, with all that is invoked until it is over, moves the state forward only. -/
theorem rank_performs_one {c : ConnCall} {env : Env} {as : List Action} {t : TcpLoop}
    (hcall : w.step (.call c) = some u)
    (hrun : u.todo = none ∧ v = u ∨ u.step (.run env) = some v)
    (hinside : Run step (Inside w.stack) v as t) :
    w.conn.state.rank ≤ v.conn.state.rank ∧ v.conn.state.rank ≤ t.conn.state.rank := by
  have hle := (moves_of_step hcall).rank_le
  rcases hrun with ⟨-, rfl⟩ | hrun
  · exact ⟨hle, rank_of_run hinside⟩
  · exact ⟨hle.trans (moves_of_step hrun).rank_le, rank_of_run hinside⟩

/-- So do calls made one after the other. -/
theorem Performs.rank {cs : List (ConnCall × Env)} (h : Performs w cs w') :
    w.conn.state.rank ≤ w'.conn.state.rank := by
  induction h with
  | nil w => exact le_rfl
  | cons hcall hrun hinside hback hrest ih =>
    obtain ⟨hcalled, hnested⟩ := rank_performs_one hcall hrun hinside
    exact (hcalled.trans hnested).trans ih

/-- Behind `handleClose` a connection that was established is closed. -/
theorem closed_handleClose (hstate : w.conn.state ≠ .kConnecting) :
    w.handleClose.conn.state = .kDisConnected := by
  have hends := ends_handleClose (w := w)
  change w.handleClose.life.state = .kDisConnected
  generalize w.handleClose.life = l at hends ⊢
  cases hends with
  | already h => exact h
  | closed h => rfl
  | aborted h => exact absurd h hstate

/-- `forceClose` in the loop thread closes a connection that has been established. -/
theorem closed_forceClose {env : Env} (hcall : w.step (.call .forceClose) = some u)
    (hrun : u.todo = none ∧ v = u ∨ u.step (.run env) = some v)
    (hstate : w.conn.state ≠ .kConnecting) : v.conn.state = .kDisConnected := by
  obtain ⟨htodo, -, rfl⟩ := user_of_call hcall
  rw [call, forceClose] at hrun
  split at hrun
  · rcases hrun with ⟨hnone, -⟩ | hrun
    · contradiction
    · obtain ⟨f, hf, rfl⟩ := running_of_run hrun
      obtain rfl := Option.some.inj hf
      rw [TcpLoop.run, forceCloseInLoop, if_pos (.inr rfl)]
      exact closed_handleClose (by simp [clearTodo, setState, TcpLoop.runInLoop])
  · rename_i hopen
    rcases hrun with ⟨-, hv⟩ | hrun
    · rw [hv]
      cases h : w.conn.state with
      | kConnecting => contradiction
      | kConnected => exact absurd (.inl h) hopen
      | kDisConnecting => exact absurd (.inr h) hopen
      | kDisConnected => rfl
    · obtain ⟨f, hf, -⟩ := running_of_run hrun
      rw [htodo] at hf
      contradiction

/-- Behind calls that end with `forceClose` the connection is closed. -/
theorem Performs.closed {cs : List (ConnCall × Env)} (h : Performs w cs w')
    (hlast : ∃ before, cs.map Prod.fst = before ++ [.forceClose])
    (hstate : w.conn.state ≠ .kConnecting) : w'.conn.state = .kDisConnected := by
  induction h with
  | nil w =>
    obtain ⟨before, hbefore⟩ := hlast
    simp at hbefore
  | cons hcall hrun hinside hback hrest ih =>
    obtain ⟨hcalled, hnested⟩ := rank_performs_one hcall hrun hinside
    obtain ⟨before, hbefore⟩ := hlast
    cases before with
    | nil =>
      obtain ⟨rfl, -⟩ := List.cons.inj hbefore
      have hclosed := closed_forceClose hcall hrun hstate
      apply kDisConnected_of_rank
      rw [← hclosed]
      exact hnested.trans hrest.rank
    | cons c before =>
      obtain ⟨-, htail⟩ := List.cons.inj hbefore
      exact ih ⟨before, htail⟩ (ne_kConnecting_of_rank hstate (hcalled.trans hnested))

/-! ### Executing calls -/

instance (k : List Frame) (w : TcpLoop) : Decidable (w.BackAt k) :=
  inferInstanceAs (Decidable (_ ∧ _))

instance (k : List Frame) (w : TcpLoop) (a : Action) : Decidable (Inside k w a) :=
  inferInstanceAs (Decidable (_ → _))

/-- Make calls, each with what the loop thread does inside it. -/
def perform (w : TcpLoop) : List ((ConnCall × Env) × List Action) → Option TcpLoop
  | [] => some w
  | ((c, env), as) :: cs =>
    (w.step (.call c)).bind fun u =>
      (if u.todo = none then some u else u.step (.run env)).bind fun v =>
        (replay step (Inside w.stack) v as).bind fun t =>
          if t.BackAt w.stack then t.perform cs else none

/-- Calls that can be replayed are calls made one after the other. -/
theorem performs_of_perform {cs : List ((ConnCall × Env) × List Action)}
    (h : w.perform cs = some w') : Performs w (cs.map Prod.fst) w' := by
  induction cs generalizing w with
  | nil =>
    obtain rfl := Option.some.inj h
    exact .nil w
  | cons entry cs ih =>
    obtain ⟨⟨c, env⟩, as⟩ := entry
    rw [perform] at h
    obtain ⟨u, hcall, h⟩ := Option.bind_eq_some_iff.mp h
    obtain ⟨v, hrun, h⟩ := Option.bind_eq_some_iff.mp h
    obtain ⟨t, hinside, h⟩ := Option.bind_eq_some_iff.mp h
    obtain ⟨hback, hrest⟩ := Option.ite_none_right_eq_some.mp h
    refine .cons hcall ?_ (.of_replay hinside) hback (ih hrest)
    split at hrun
    · rename_i htodo
      exact .inl ⟨htodo, (Option.some.inj hrun).symm⟩
    · exact .inr hrun

end TcpLoop

end ClearMoon.Tcp

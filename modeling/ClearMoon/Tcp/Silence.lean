import ClearMoon.Tcp.Output
import ClearMoon.Tcp.Threads

/-!
# No callback after the close callback

When `handleClose` has invoked `closeCallback_`, neither `messageCallback_` nor
`writeCompleteCallback_` should be invoked again. `Channel::handleEvent` goes on with its tests,
however, after a callback of its own has closed the connection; and another thread that has tested
the state before may store it afterwards.
-/

namespace ClearMoon.Tcp

open ClearMoon.Net ClearMoon.Timer

/-- The callback tells the user about data. -/
def Callback.aboutData : Callback → Bool
  | .message | .writeComplete => true
  | .connection | .close => false

/-- No callback is about data once the connection has been closed. -/
def SilentAfterClose (calls : List Callback) : Prop :=
  ∀ before after, calls = before ++ .close :: after → ∀ cb ∈ after, cb.aboutData = false

/-- Nothing invoked is silent. -/
theorem silentAfterClose_nil : SilentAfterClose [] := by
  intro before after h
  simp at h

/-- What was invoked first was silent before. -/
theorem SilentAfterClose.of_append {cs ds : List Callback} (h : SilentAfterClose (cs ++ ds)) :
    SilentAfterClose cs := by
  intro before after hcs cb hcb
  refine h before (after ++ ds) ?_ cb (List.mem_append_left _ hcb)
  rw [hcs, List.append_assoc, List.cons_append]

/-- One more callback is about no data, or comes before the close. -/
theorem silentAfterClose_concat {cs : List Callback} {cb : Callback} :
    SilentAfterClose (cs ++ [cb]) ↔
      SilentAfterClose cs ∧ (cb.aboutData = true → .close ∉ cs) := by
  constructor
  · intro h
    refine ⟨h.of_append, fun hdata hclose => ?_⟩
    obtain ⟨before, after, hcs⟩ := List.append_of_mem hclose
    have hquiet := h before (after ++ [cb]) (by rw [hcs, List.append_assoc, List.cons_append])
      cb (by simp)
    rw [hquiet] at hdata
    contradiction
  · rintro ⟨h, hdata⟩ before after hsplit c hc
    cases after using List.reverseRecOn with
    | nil => simp at hc
    | append_singleton after d =>
      rw [← List.cons_append, ← List.append_assoc] at hsplit
      obtain ⟨hcs, hd⟩ := List.append_inj' hsplit rfl
      rw [List.mem_append, List.mem_singleton] at hc
      rcases hc with hc | rfl
      · exact h before after hcs c hc
      · obtain rfl := List.singleton_inj.mp hd
        by_contra hne
        refine hdata (by simpa using hne) ?_
        rw [hcs]
        simp

/-- Nothing is told about data after the close, and what is closed stays so. -/
structure Life.Silent (l : Life) : Prop where
  calls : SilentAfterClose l.calls
  closed : .close ∈ l.calls → l.state = .kDisConnected ∧ l.sendingFile = false

namespace Life

variable {l l' : Life}

/-- A callback keeps the silence when it comes before the close, or is the close of a connection
just closed. -/
theorem Silent.invoke {cb : Callback} (h : l.Silent)
    (hdata : l.callbacks cb = true → cb.aboutData = true → .close ∉ l.calls)
    (hclose : cb = .close → l.state = .kDisConnected ∧ l.sendingFile = false) :
    (l.invoke cb).Silent := by
  by_cases hcb : l.callbacks cb = true
  · have hcalls : (l.invoke cb).calls = l.calls ++ [cb] := by rw [Life.invoke, if_pos hcb]
    refine ⟨?_, ?_⟩
    · rw [hcalls, silentAfterClose_concat]
      exact ⟨h.calls, hdata hcb⟩
    · rw [hcalls, List.mem_append, List.mem_singleton]
      rintro (hmem | heq)
      · exact h.closed hmem
      · exact hclose heq.symm
  · have hsame : l.invoke cb = l := by rw [Life.invoke, if_neg hcb, List.append_nil]
    rwa [hsame]

/-- While the connection is not in its last state, the close has not been told. -/
theorem Silent.not_closed (h : l.Silent) (hstate : l.state ≠ .kDisConnected) :
    .close ∉ l.calls := fun hmem => hstate (h.closed hmem).1

/-- The end of a connection keeps it. -/
theorem Silent.ends (h : l.Silent) (he : l.Ends l') : l'.Silent := by
  cases he with
  | already hstate => exact h
  | closed hstate =>
    exact Silent.invoke ⟨h.calls, fun _ => ⟨rfl, rfl⟩⟩ (by simp [Callback.aboutData])
      fun _ => ⟨rfl, rfl⟩
  | aborted hstate => exact ⟨h.calls, h.closed⟩

/-- So does an event of the descriptor whose callbacks come before the close. -/
theorem Silent.served {delivers drains : Prop} (h : l.Silent) (hs : l.Served delivers drains l')
    (hdelivers : delivers → l.callbacks .message = true → .close ∉ l.calls)
    (hdrains : drains → l.callbacks .writeComplete = true → .close ∉ l.calls) : l'.Silent := by
  have hfile : l.sendingFile = true → .close ∉ l.calls := by
    intro hsending hmem
    rw [(h.closed hmem).2] at hsending
    contradiction
  have hkeep : ∀ {b : Bool}, (b = true → l.sendingFile = true) →
      { l with sendingFile := b }.Silent := by
    intro b hb
    refine ⟨h.calls, fun hmem => ⟨(h.closed hmem).1, ?_⟩⟩
    have hsending := (h.closed hmem).2
    cases b with
    | false => rfl
    | true => rwa [hb rfl] at hsending
  cases hs with
  | quiet => exact h
  | message hread => exact h.invoke (fun hcb _ => hdelivers hread hcb) (by simp)
  | writeComplete hwrite hb =>
    refine (hkeep hb).invoke (fun hcb _ => ?_) (by simp)
    rcases hwrite with hwrite | hsending
    · exact hdrains hwrite hcb
    · exact hfile hsending
  | close hb he => exact (hkeep hb).ends he

end Life

namespace TcpLoop

variable {w : TcpLoop}

/-- After the close callback no read of `handleEvent` delivers data that would be told to the
user, and no write of it takes buffered bytes. -/
def StaysSilent (w : TcpLoop) (a : Action) : Prop :=
  .close ∈ calls w.trace →
    ¬(w.conn.callbacks .message = true ∧ w.delivers a = true) ∧
      ¬(w.conn.callbacks .writeComplete = true ∧ w.drains a = true)

instance (w : TcpLoop) (a : Action) : Decidable (w.StaysSilent a) :=
  inferInstanceAs (Decidable (_ → _))

/-- A step that meets the condition keeps the silence. -/
theorem silent_step {a : Action} {w' : TcpLoop} (h : w.life.Silent) (hg : w.StaysSilent a)
    (hstep : w.step a = some w') : w'.life.Silent := by
  have hstirs := stirs_of_step hstep
  generalize w'.life = l at hstirs ⊢
  cases hstirs with
  | quiet => exact h
  | establish htodo hstate =>
    have hopen : .close ∉ w.life.calls := h.not_closed (by rw [life, hstate]; simp)
    exact Life.Silent.invoke ⟨h.calls, fun hmem => absurd hmem hopen⟩
      (by simp [Callback.aboutData]) (by simp)
  | abort htodo hstate => exact ⟨h.calls, h.closed⟩
  | disconnect hstate =>
    have hopen : .close ∉ w.life.calls := by
      refine h.not_closed ?_
      rcases hstate with hstate | hstate
      · rw [life, hstate]; simp
      · rw [life, hstate]; simp
    exact ⟨h.calls, fun hmem => absurd hmem hopen⟩
  | destroy htodo hstate => exact ⟨h.calls, fun hmem => ⟨rfl, (h.closed hmem).2⟩⟩
  | written hstate => exact h.invoke (fun _ _ => h.not_closed hstate) (by simp)
  | openFile hstate =>
    exact ⟨h.calls, fun hmem => absurd hmem (h.not_closed hstate)⟩
  | close he => exact h.ends he
  | served hs =>
    exact h.served hs (fun hread hcb hmem => (hg hmem).1 ⟨hcb, hread⟩)
      fun hwrite hcb hmem => (hg hmem).2 ⟨hcb, hwrite⟩

/-- A new connection has invoked nothing. -/
theorem silent_start (fd : Nat) (callbacks : Callback → Bool) (disk : Bytes → Bytes) :
    (start fd callbacks disk).life.Silent where
  calls := silentAfterClose_nil
  closed h := by simp [life, start, calls] at h

/-! ### Breaking the silence -/

/-- A stage of `handleEvent` goes on with the frames below it. -/
theorem handleEvent_of_resume {env : Env} {stage : EventStage} {w' : TcpLoop}
    (hhead : w.stack.head? = some (.handleEvent stage)) (hstep : w.step (.resume env) = some w') :
    ∃ rest, w' = { w with stack := rest }.handleEvent env stage := by
  cases stepped_of_step hstep with
  | resume htodo hstack henv hr =>
    rw [hstack, List.head?_cons] at hhead
    obtain rfl := Option.some.inj hhead
    exact ⟨_, (Option.some.inj hr).symm⟩

/-- A read that delivers data is told to the user, whatever the state. -/
theorem life_of_delivers {a : Action} {w' : TcpLoop} (hread : w.delivers a = true)
    (hstep : w.step a = some w') : w'.life = w.life.invoke .message := by
  cases a with
  | resume env =>
    simp only [delivers, Bool.and_eq_true, decide_eq_true_eq] at hread
    obtain ⟨⟨hhead, hrevents⟩, hdata⟩ := hread
    obtain ⟨rest, rfl⟩ := handleEvent_of_resume hhead hstep
    simp only [handleEvent, push, hrevents, if_true, handleRead]
    split at hdata
    · rename_i b data hdone
      rw [hdone]
      dsimp only
      rw [life_invoke, life_resetIdleTimer]
      rfl
    · contradiction
  | _ => contradiction

/-- A write that takes buffered bytes is told to the user, whatever the state. -/
theorem life_of_drains {a : Action} {w' : TcpLoop} (hwrite : w.drains a = true)
    (hstep : w.step a = some w') : w'.life = w.life.invoke .writeComplete := by
  cases a with
  | resume env =>
    simp only [drains, Bool.and_eq_true, decide_eq_true_eq] at hwrite
    obtain ⟨⟨⟨⟨hhead, hrevents⟩, hwriting⟩, hbuffered⟩, hdone⟩ := hwrite
    obtain ⟨rest, rfl⟩ := handleEvent_of_resume hhead hstep
    split at hdone
    · rename_i n hready
      have hidle := life_resetIdleTimer (w := { w with stack := rest }) env
      have hbuffer := writeBuffer_resetIdleTimer (w := { w with stack := rest }) env
      have hio := ioResult_resetIdleTimer (w := { w with stack := rest }) env env.write
      rw [show ({ w with stack := rest } : TcpLoop).ioResult env.write = .done (n + 1)
        from hready] at hio
      simp only [handleEvent, hrevents, if_true, handleWrite, hwriting, Bool.not_true,
        Bool.false_eq_true, if_false]
      generalize ({ w with stack := rest } : TcpLoop).resetIdleTimer env = v
        at hidle hbuffer hio ⊢
      have hdrained := life_writeFd (w := v.push .handleWrite) (n + 1)
      rw [hbuffer, if_pos hbuffered, show (v.push .handleWrite).ioResult env.write =
        .done (n + 1) from hio]
      dsimp only
      split
      · rw [life_invoke]
        exact congrArg (Life.invoke · .writeComplete) (hdrained.trans hidle)
      · rw [life_invoke]
        exact congrArg (Life.invoke · .writeComplete) (hdrained.trans hidle)
    · contradiction
  | _ => contradiction

/-- What has been told is never untold. -/
theorem calls_prefix_of_step {a : Action} {w' : TcpLoop} (hstep : w.step a = some w') :
    calls w.trace <+: calls w'.trace := by
  have hends : ∀ {l l' : Life}, l.Ends l' → l.calls <+: l'.calls := by
    intro l l' he
    cases he with
    | closed hstate => exact List.prefix_append _ _
    | _ => exact List.prefix_rfl
  have hstirs := stirs_of_step hstep
  change w.life.calls <+: w'.life.calls
  generalize w'.life = l at hstirs ⊢
  cases hstirs with
  | establish htodo hstate => exact List.prefix_append _ _
  | written hstate => exact List.prefix_append _ _
  | close he => exact hends he
  | served hs =>
    cases hs with
    | quiet => exact List.prefix_rfl
    | message hread => exact List.prefix_append _ _
    | writeComplete hwrite hb => exact List.prefix_append _ _
    | close hb he =>
      have hprefix := hends he
      exact hprefix
  | _ => exact List.prefix_rfl

/-- A step that leaves no callback about data behind the close callback is not one of those that
break the silence. -/
theorem staysSilent_of_step {a : Action} {w' : TcpLoop} (hstep : w.step a = some w')
    (h : SilentAfterClose (calls w'.trace)) : w.StaysSilent a := by
  have hloud {cb : Callback} (hcb : w.conn.callbacks cb = true) (hdata : cb.aboutData = true)
      (hlife : w'.life = w.life.invoke cb) : .close ∉ calls w.trace := by
    have hcalls : calls w'.trace = calls w.trace ++ [cb] := by
      change w'.life.calls = _
      rw [hlife, Life.invoke, if_pos (show w.life.callbacks cb = true from hcb)]
      rfl
    rw [hcalls, silentAfterClose_concat] at h
    exact h.2 hdata
  refine fun hclose => ⟨?_, ?_⟩
  · rintro ⟨hcb, hread⟩
    exact hloud hcb rfl (life_of_delivers hread hstep) hclose
  · rintro ⟨hcb, hwrite⟩
    exact hloud hcb rfl (life_of_drains hwrite hstep) hclose

end TcpLoop

namespace Threads

open TcpLoop (establishing)

variable {x x' : Threads}

/-- The loop stays silent in its own steps. -/
def StaysSilent (x : Threads) : ThreadAction → Prop
  | .loop a => x.loop.StaysSilent a
  | _ => True

instance (x : Threads) : (a : ThreadAction) → Decidable (x.StaysSilent a)
  | .loop b => inferInstanceAs (Decidable (x.loop.StaysSilent b))
  | .callElsewhere _ | .goOn _ => isTrue trivial

/-- A store that is in time comes before the close callback. -/
theorem silent_shares {w w' : TcpLoop} (h : w.life.Silent) (hs : Shares w w') :
    w'.life.Silent := by
  rcases life_of_shares hs with hsame | ⟨hopen, hstore⟩
  · rwa [hsame]
  · have hstate : w.life.state ≠ .kDisConnected := by
      change w.conn.state ≠ .kDisConnected
      rcases hopen with hopen | hopen <;> simp [hopen]
    rw [hstore]
    exact ⟨h.calls, fun hmem => absurd hmem (h.not_closed hstate)⟩

/-- So it holds in every run all of whose steps meet the condition, with other threads at their
calls. -/
theorem silent_of_run {fd : Nat} {callbacks : Callback → Bool} {disk : Bytes → Bytes}
    {as : List ThreadAction}
    (hrun : Run step (fun x a => x.InTime a ∧ x.StaysSilent a) (start fd callbacks disk) as x) :
    x.loop.life.Silent :=
  invariant_of_run hrun (fun _ _ h => h.1) (TcpLoop.silent_start fd callbacks disk)
    (fun _ _ _ h hguard => TcpLoop.silent_step h hguard.2) fun _ _ => silent_shares

/-- What has been told is never untold. -/
theorem calls_prefix_of_step {a : ThreadAction} (hbegun : x.Begun) (hin : x.InTime a)
    (hstep : x.step a = some x') : calls x.loop.trace <+: calls x'.loop.trace := by
  rcases shares_of_step hbegun hin hstep with ⟨b, -, hb⟩ | ⟨-, hs⟩
  · exact TcpLoop.calls_prefix_of_step hb
  · change x.loop.life.calls <+: x'.loop.life.calls
    rcases life_of_shares hs with hsame | ⟨-, hstore⟩
    · rw [hsame]
    · rw [hstore]

/-- In a run in which no store of another thread comes too late, no callback about data follows the
close callback exactly if, after the close callback, no read of `handleEvent` delivers data and no
write of it takes buffered bytes. -/
theorem silentAfterClose_iff_of_run {fd : Nat} {callbacks : Callback → Bool}
    {disk : Bytes → Bytes} {as : List ThreadAction}
    (hrun : Run step InTime (start fd callbacks disk) as x) :
    SilentAfterClose (calls x.loop.trace) ↔
      Run step StaysSilent (start fd callbacks disk) as x := by
  constructor
  · intro h
    have hbegun {as : List ThreadAction} {v : Threads}
        (hv : Run step InTime (start fd callbacks disk) as v) : v.Begun :=
      hv.invariant (begun_start fd callbacks disk) fun _ _ _ hy _ hstep => hy.step hstep
    induction hrun with
    | nil => exact .nil
    | @snoc as v a u hv hin hstep ih =>
      obtain ⟨cs, hcs⟩ := calls_prefix_of_step (hbegun hv) hin hstep
      have hbefore : SilentAfterClose (calls v.loop.trace) := by
        rw [← hcs] at h
        exact h.of_append
      refine (ih hbefore).snoc ?_ hstep
      cases a with
      | loop b =>
        obtain ⟨-, hb⟩ := Option.ite_none_left_eq_some.mp hstep
        obtain ⟨loop, hloop, rfl⟩ := Option.map_eq_some_iff.mp hb
        exact TcpLoop.staysSilent_of_step hloop h
      | callElsewhere c => trivial
      | goOn k => trivial
  · exact fun hsilent => (silent_of_run (hrun.and hsilent)).calls

/-- The events of the channel, with the answers of the four tests of `handleEvent`; a callback
returns behind the read test. -/
def closedWhileReady (revents : Revents) (read : ReadResult) (write : IoResult) : List Action :=
  [.poll [.conn] revents, .dispatch, .resume { timer := 2 }, .resume { timer := 2, read }, .ret,
    .resume { timer := 2 }, .resume { timer := 2, write }]

/-- The peer closes when everything has been written. -/
def closedWhenWritten : List ThreadAction :=
  alone (establishing ++ [.call (.send [10]), .run { timer := 2, write := .done 1 }, .ret, .ret] ++
    closedWhileReady { epollin := true, epollout := true } (.done []) (.done 9))

/-- A connection that is closed when everything was written is silent behind it. -/
theorem silentAfterClose_iff_of_run_closedWhenWritten :
    ∃ x, Run step InTime (start 7 (fun _ => true) id) closedWhenWritten x ∧
      calls x.loop.trace = [.connection, .writeComplete, .close] ∧
      (SilentAfterClose (calls x.loop.trace) ↔
        Run step StaysSilent (start 7 (fun _ => true) id) closedWhenWritten x) := by
  have hcalls : (replay step InTime (start 7 (fun _ => true) id) closedWhenWritten).map
      (fun x => calls x.loop.trace) = some [.connection, .writeComplete, .close] := by
    decide +kernel
  obtain ⟨x, hx, hcalls⟩ := Option.map_eq_some_iff.mp hcalls
  exact ⟨x, .of_replay hx, hcalls, silentAfterClose_iff_of_run (.of_replay hx)⟩

/-- The peer closes its side while one byte is in the buffer, and the socket is writeable. -/
def closedWhileWriting : List ThreadAction :=
  alone (establishing ++ [.call (.send [10, 11]), .run { timer := 2, write := .done 1 }, .ret] ++
    closedWhileReady { epollin := true, epollout := true } (.done []) (.done 9))

/-- An error is reported, and data that has arrived before it. -/
def failedWithData : List ThreadAction :=
  alone (establishing ++ [.ret, .poll [.conn] { epollerr := true, epollin := true }, .dispatch,
    .resume { timer := 2 }, .ret, .resume { timer := 2, read := .done [20] }])

/-- Another thread has queued a message. A further one has tested the state for `shutdown` when the
connection is closed, stores it afterwards, and the message is written. -/
def closedBeforeStore : List ThreadAction :=
  alone establishing ++ [.callElsewhere (.send [10]), .goOn 0, .callElsewhere .shutdown] ++
    alone [.call .forceClose, .run { timer := 2 }] ++ [.goOn 0] ++
    alone [.ret, .ret, .poll [] {}, .doPendingFuncs, .nextFunc,
      .run { timer := 2, write := .done 1 }]

/-- In all three runs a callback about data follows the close callback, in the last one although no
step of the loop breaks the silence. -/
theorem callback_after_close :
    (∃ x, Run step InTime (start 7 (fun _ => true) id) closedWhileWriting x ∧
      ¬SilentAfterClose (calls x.loop.trace)) ∧
    (∃ x, Run step InTime (start 7 (fun _ => true) id) failedWithData x ∧
      ¬SilentAfterClose (calls x.loop.trace)) ∧
    ∃ x, Run step StaysSilent (start 7 (fun _ => true) id) closedBeforeStore x ∧
      ¬SilentAfterClose (calls x.loop.trace) := by
  have hloud {cb : Callback} {cs : List Callback} (hdata : cb.aboutData = true)
      (hcs : cs = [.connection, .close, cb]) : ¬SilentAfterClose cs := by
    intro h
    have hquiet := h [.connection] [cb] hcs cb (List.mem_singleton_self cb)
    rw [hdata] at hquiet
    contradiction
  refine ⟨?_, ?_, ?_⟩
  · have hcalls : (replay step InTime (start 7 (fun _ => true) id) closedWhileWriting).map
        (fun x => calls x.loop.trace) = some [.connection, .close, .writeComplete] := by
      decide +kernel
    obtain ⟨x, hx, hcalls⟩ := Option.map_eq_some_iff.mp hcalls
    exact ⟨x, .of_replay hx, hloud rfl hcalls⟩
  · have hcalls : (replay step InTime (start 7 (fun _ => true) id) failedWithData).map
        (fun x => calls x.loop.trace) = some [.connection, .close, .message] := by
      decide +kernel
    obtain ⟨x, hx, hcalls⟩ := Option.map_eq_some_iff.mp hcalls
    exact ⟨x, .of_replay hx, hloud rfl hcalls⟩
  · have hcalls : (replay step StaysSilent (start 7 (fun _ => true) id) closedBeforeStore).map
        (fun x => calls x.loop.trace) = some [.connection, .close, .writeComplete] := by
      decide +kernel
    obtain ⟨x, hx, hcalls⟩ := Option.map_eq_some_iff.mp hcalls
    exact ⟨x, .of_replay hx, hloud rfl hcalls⟩

end Threads

end ClearMoon.Tcp

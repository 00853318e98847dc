import ClearMoon.Server.Stop

/-!
# The connection callback

The connection callback of a connection is invoked once, at the end of `connectEstablelished`.
Until then nobody but `stop` can ask the connection to close, so the callback finds it connected
unless `stop` has asked.
-/

namespace ClearMoon.Server

open ClearMoon.Net
open ClearMoon.Tcp (StateE)

namespace TcpServer

variable {s t u : TcpServer} {c d i : Nat} {x y : ServerConn} {state : StateE}

/-! ### What operations add to the trace -/

/-- A close calls no connection callback. -/
theorem mem_trace_handleClose (y : ServerConn)
    (h : .connectionCallback c state ∈ (u.handleClose d y).trace) :
    .connectionCallback c state ∈ u.trace := by
  rw [handleClose] at h
  split at h
  · exact h
  · exact h
  · simpa [queueInBase, note, setState] using h
  · simpa [queueInBase, note, setState] using h

/-- Nor does a forced close. -/
theorem mem_trace_forceClose (y : ServerConn) (inThread : Bool)
    (h : .connectionCallback c state ∈ (u.forceClose d y inThread).trace) :
    .connectionCallback c state ∈ u.trace := by
  rw [forceClose] at h
  split at h
  · dsimp only at h
    split at h
    · rw [forceCloseInLoop, if_pos (.inr rfl)] at h
      exact mem_trace_handleClose (u := u.setState d y .kDisConnecting) _ h
    · exact h
  · exact h

/-- Nor does a shutdown. -/
theorem mem_trace_shutdown (y : ServerConn) (inThread writing : Bool)
    (h : .connectionCallback c state ∈ (u.shutdown d y inThread writing).trace) :
    .connectionCallback c state ∈ u.trace := by
  rw [shutdown] at h
  split at h
  · dsimp only at h
    split at h
    · rw [shutdownInLoop] at h
      split at h
      · exact h
      · exact mem_trace_handleClose (u := u.setState d y .kDisConnecting) _ h
    · exact h
  · exact h

/-- A functor of an io loop only enters the callback; the call is a step of its own. -/
theorem mem_trace_runIo (f : IoFunctor) (y : ServerConn) (writing : Bool)
    (h : .connectionCallback c state ∈ (u.runIo y writing f).trace) :
    .connectionCallback c state ∈ u.trace := by
  cases f with
  | connectEstablelished d =>
    rw [runIo, connectEstablelished] at h
    split at h
    · simpa [note] using h
    · simpa [setCallback, note, setState] using h
  | connectDestroyed d =>
    rw [runIo, connectDestroyed] at h
    split at h
    · simpa [note, setState] using h
    · simpa [note] using h
  | shutdownInLoop d =>
    rw [runIo, shutdownInLoop] at h
    split at h
    · exact h
    · exact mem_trace_handleClose y h
  | forceCloseInLoop d =>
    rw [runIo, forceCloseInLoop] at h
    split at h
    · exact mem_trace_handleClose y h
    · exact h

/-- Nor does a removal. -/
theorem mem_trace_removeConnectionInLoop (y : ServerConn)
    (h : .connectionCallback c state ∈ (u.removeConnectionInLoop d y).trace) :
    .connectionCallback c state ∈ u.trace := by
  rw [removeConnectionInLoop] at h
  generalize (if connName d ∈ u.connections then 1 else 0) = n at h
  split at h
  · simpa [note] using h
  · simpa [queueInIo, note] using h

/-- The connection callback is invoked by the step of that name only. -/
theorem mem_trace_of_step {a : Action} (hstep : Steps s a t)
    (h : .connectionCallback c state ∈ t.trace) :
    .connectionCallback c state ∈ s.trace ∨
      ∃ i x, a = .connectionCallback i ∧ s.callback i = some c ∧ s.conn c = some x ∧
        x.state = state := by
  cases hstep with
  | start =>
    left
    rw [start] at h
    split at h <;> exact h
  | newConnection hlistening =>
    left
    rw [newConnection] at h
    split at h
    · exact h
    · simpa [note, queueInIo] using h
  | stop hstopping horder =>
    left
    rw [stop] at h
    split at h <;> exact h
  | @stopNext d rest y hstopping hy =>
    exact .inl (mem_trace_forceClose (u := { s with stopping := rest }) y false h)
  | @baseFunc d rest y hbase hy =>
    exact .inl (mem_trace_removeConnectionInLoop (u := { s with base := rest }) y h)
  | @ioFunc i writing f rest y hcallback hio hy =>
    exact .inl (mem_trace_runIo (u := { s with io := Function.update s.io i rest }) f y writing h)
  | @connectionCallback i d y hcallback hy =>
    change _ ∈ s.trace ++ [Event.connectionCallback d y.state] at h
    rw [List.mem_append, List.mem_singleton] at h
    rcases h with h | h
    · exact .inl h
    · obtain ⟨rfl, rfl⟩ := Event.connectionCallback.inj h
      exact .inr ⟨i, y, rfl, hcallback, hy, rfl⟩
  | handleClose hy hstate hcallback => exact .inl (mem_trace_handleClose _ h)
  | @call d call inThread writing y hy hhanded hcallback =>
    cases call with
    | shutdown => exact .inl (mem_trace_shutdown y inThread writing h)
    | forceClose => exact .inl (mem_trace_forceClose y inThread h)

/-- What has happened stays in the trace. -/
theorem mem_trace_mono {a : Action} {e : Event} (h : s.Inv) (haborted : s.aborted = false)
    (hstep : Steps s a t) (he : e ∈ s.trace) : e ∈ t.trace := by
  obtain ⟨-, htrace | ⟨e', htrace, -⟩⟩ := emits_of_step h haborted hstep
  · rwa [htrace]
  · rw [htrace]
    exact List.mem_append_left _ he

/-- A connection has been handed to the user when its callback has been called. -/
theorem handedOut_iff : s.handedOut c = true ↔ ∃ state, .connectionCallback c state ∈ s.trace := by
  rw [handedOut, List.any_eq_true]
  constructor
  · rintro ⟨e, he, hc⟩
    cases e with
    | connectionCallback d state =>
      obtain rfl := of_decide_eq_true hc
      exact ⟨state, he⟩
    | _ => contradiction
  · rintro ⟨state, he⟩
    exact ⟨_, he, decide_eq_true rfl⟩

/-! ### The connection callback -/

/-- When the connection callback of a connection is invoked, and what it finds. -/
structure Told (s : TcpServer) (c : Nat) (x : ServerConn) : Prop where
  /-- While it is pending, the connection can only be asked to close. -/
  pending : s.callback x.ioLoop = some c →
    hops s.trace .establish c = 1 ∧ (∀ state, .connectionCallback c state ∉ s.trace) ∧
      (x.state = .kConnected ∨ x.state = .kDisConnecting ∧ .forceCloseInLoop c ∈ s.io x.ioLoop)
  established : ∀ state, .connectionCallback c state ∈ s.trace → hops s.trace .establish c = 1
  told : hops s.trace .establish c = 1 →
    s.callback x.ioLoop = some c ∨ ∃ state, .connectionCallback c state ∈ s.trace
  late : ∀ state, .connectionCallback c state ∈ s.trace → state = .kConnected ∨ s.Closing c x

/-- A connection that has left its first state has been established once. -/
theorem hops_establish (h : s.Inv) (hx : s.conn c = some x) :
    hops s.trace .establish c = if x.state = .kConnecting then 0 else 1 := by
  have hsound := h.sound c x hx
  have hone : (s.tally c x).establishing + hops s.trace .establish c = 1 := hsound.establish
  have hzero : x.state = .kConnecting ↔ hops s.trace .establish c = 0 := hsound.connecting
  split
  · rename_i hstate
    exact hzero.mp hstate
  · rename_i hstate
    rw [hzero] at hstate
    omega

/-- A step that neither establishes the connection nor invokes its callback. -/
theorem Told.keep {a : Action} (hs : s.Inv) (haborted : s.aborted = false) (hx : s.conn c = some x)
    (hstep : Steps s a t) (h : s.Told c x)
    (ha : ∀ i, a = .connectionCallback i → s.callback i ≠ some c)
    (hcallback : t.callback x.ioLoop = some c ↔ s.callback x.ioLoop = some c)
    (hy : ∀ y, t.conn c = some y → (x.state = .kConnecting → y.state = .kConnecting) ∧
      (s.callback x.ioLoop = some c → y.state = x.state ∨
        y.state = .kDisConnecting ∧ .forceCloseInLoop c ∈ t.io x.ioLoop)) :
    ∃ y, t.conn c = some y ∧ t.Told c y := by
  obtain ⟨y, hconn, hloop, hmoves⟩ := tracks_of_step hs.known (hs.sound c x hx) hx hstep
  obtain ⟨hconnecting, hpending⟩ := hy y hconn
  have hest : hops t.trace .establish c = hops s.trace .establish c := by
    have hback : y.state = .kConnecting → x.state = .kConnecting := by
      intro hys
      have hrank : x.state.rank ≤ y.state.rank := hmoves.state.rank_le
      rw [hys] at hrank
      cases hxs : x.state with
      | kConnecting => rfl
      | _ => simp [hxs, StateE.rank] at hrank
    rw [hops_establish hs hx, hops_establish (inv_step hs hstep) hconn]
    exact if_congr ⟨hback, hconnecting⟩ rfl rfl
  have htold (state : StateE) :
      .connectionCallback c state ∈ t.trace ↔ .connectionCallback c state ∈ s.trace := by
    refine ⟨fun hmem => ?_, mem_trace_mono hs haborted hstep⟩
    rcases mem_trace_of_step hstep hmem with hmem | ⟨i, z, rfl, hi, -⟩
    · exact hmem
    · exact absurd hi (ha i rfl)
  have hclosing (hc : s.Closing c x) : t.Closing c y := by
    obtain ⟨z, hz, hclosing⟩ := closing_step hs hstep hx hc
    obtain rfl := Option.some.inj (hconn.symm.trans hz)
    exact hclosing
  refine ⟨y, hconn, fun hcb => ?_, fun state hmem => ?_, fun hone => ?_, fun state hmem => ?_⟩
  · rw [hloop, hcallback] at hcb
    obtain ⟨hone, hnone, hstate⟩ := h.pending hcb
    refine ⟨hest.trans hone, fun state hmem => hnone state ((htold state).mp hmem), ?_⟩
    rw [hloop]
    rcases hpending hcb with heq | hforced
    · rw [heq]
      rcases hstate with hstate | ⟨hstate, hforce⟩
      · exact .inl hstate
      · rcases hclosing (.inr hforce) with hclosed | hforce
        · rw [heq, hstate] at hclosed
          contradiction
        · exact .inr ⟨hstate, hloop ▸ hforce⟩
    · exact .inr hforced
  · exact hest.trans (h.established state ((htold state).mp hmem))
  · rw [hest] at hone
    rw [hloop, hcallback]
    refine (h.told hone).imp_right ?_
    rintro ⟨state, hmem⟩
    exact ⟨state, (htold state).mpr hmem⟩
  · exact (h.late state ((htold state).mp hmem)).imp_right hclosing

/-- The io loop runs `connectEstablelished`: the callback is pending. -/
theorem told_connectEstablelished {rest : List IoFunctor} {writing : Bool} (hs : s.Inv)
    (h : s.Told c x) (hx : s.conn c = some x)
    (hio : s.io x.ioLoop = .connectEstablelished c :: rest)
    (hstep : Steps s (.ioFunc x.ioLoop writing) ({ s with
      io := Function.update s.io x.ioLoop rest }.runIo x writing (.connectEstablelished c))) :
    ∃ y, ({ s with io := Function.update s.io x.ioLoop rest }.runIo x writing
      (.connectEstablelished c)).conn c = some y ∧
      ({ s with io := Function.update s.io x.ioLoop rest }.runIo x writing
        (.connectEstablelished c)).Told c y := by
  have hstate : x.state = .kConnecting := by
    refine (hs.sound c x hx).establishing ?_
    change 0 < (s.io x.ioLoop).count _
    rw [hio, List.count_cons_self]
    exact Nat.succ_pos _
  have hzero := hops_establish hs hx
  rw [if_pos hstate] at hzero
  have hnone (state : StateE) : .connectionCallback c state ∉ s.trace := by
    intro hmem
    rw [h.established state hmem] at hzero
    contradiction
  have hinv := inv_step hs hstep
  revert hstep hinv
  generalize hu : ({ s with io := Function.update s.io x.ioLoop rest } : TcpServer) = u
  have htrace : u.trace = s.trace := by rw [← hu]
  rw [runIo, connectEstablelished, if_neg (not_not.mpr hstate)]
  intro hstep hinv
  have hconn : (((u.setState c x .kConnected).note (.connectEstablelished c x.state)).setCallback
      x.ioLoop (some c)).conn c = some { x with state := .kConnected } := conn_setState _
  have hone := hops_establish hinv hconn
  have hnone' (state : StateE) : .connectionCallback c state ∉
      (((u.setState c x .kConnected).note (.connectEstablelished c x.state)).setCallback
        x.ioLoop (some c)).trace := by
    intro hmem
    refine hnone state ?_
    rw [← htrace]
    simpa [setCallback, note, setState] using hmem
  refine ⟨_, hconn, fun _ => ⟨hone, hnone', .inl rfl⟩, fun state hmem => absurd hmem (hnone' state),
    fun _ => .inl ?_, fun state hmem => absurd hmem (hnone' state)⟩
  exact Function.update_self _ _ _

/-- The connection callback is invoked. -/
theorem told_connectionCallback (hs : s.Inv) (h : s.Told c x) (hx : s.conn c = some x)
    (hcallback : s.callback i = some c) :
    ((s.setCallback i none).note (.connectionCallback c x.state)).Told c x := by
  obtain ⟨y, hy, hloop⟩ := hs.known.callback i c hcallback
  obtain rfl := Option.some.inj (hx.symm.trans hy)
  subst hloop
  obtain ⟨hone, hnone, hstate⟩ := h.pending hcallback
  have hhops : hops (s.trace ++ [.connectionCallback c x.state]) .establish c = 1 := by
    rw [hops_concat, hone]
    rfl
  have hmem (state : StateE)
      (hmem : .connectionCallback c state ∈ s.trace ++ [Event.connectionCallback c x.state]) :
      state = x.state := by
    rw [List.mem_append, List.mem_singleton] at hmem
    rcases hmem with hmem | hmem
    · exact absurd hmem (hnone state)
    · exact (Event.connectionCallback.inj hmem).2
  refine ⟨fun hcb => ?_, fun _ _ => hhops, fun _ => .inr ⟨x.state, ?_⟩, fun state hstep => ?_⟩
  · change Function.update s.callback x.ioLoop none x.ioLoop = some c at hcb
    rw [Function.update_self] at hcb
    contradiction
  · exact List.mem_append_right _ (List.mem_singleton_self _)
  · rw [hmem state hstep]
    rcases hstate with hstate | ⟨-, hforce⟩
    · exact .inl hstate
    · exact .inr (.inr hforce)

/-- A functor of an io loop other than `connectEstablelished` leaves the callbacks alone. -/
theorem callback_runIo (f : IoFunctor) (y : ServerConn) (writing : Bool)
    (hf : ∀ d, f ≠ .connectEstablelished d) : (u.runIo y writing f).callback = u.callback := by
  have hclose (d : Nat) : (u.handleClose d y).callback = u.callback := by
    obtain ⟨conn, base, aborted, trace, h⟩ := u.handleClose_frame d y
    rw [h]
  cases f with
  | connectEstablelished d => exact absurd rfl (hf d)
  | connectDestroyed d =>
    rw [runIo, connectDestroyed]
    split <;> rfl
  | shutdownInLoop d =>
    rw [runIo, shutdownInLoop]
    split
    · rfl
    · exact hclose d
  | forceCloseInLoop d =>
    rw [runIo, forceCloseInLoop]
    split
    · exact hclose d
    · rfl

/-- A connection in its first state stays there until it is established. -/
theorem conn_runIo_connecting {f : IoFunctor} (hx : u.conn f.conn = some x) (writing : Bool)
    (hstate : x.state = .kConnecting) (hf : ∀ d, f ≠ .connectEstablelished d) :
    (u.runIo x writing f).conn f.conn = some x := by
  cases f with
  | connectEstablelished d => exact absurd rfl (hf d)
  | connectDestroyed d =>
    rw [runIo, connectDestroyed, if_neg (by rw [hstate]; simp)]
    exact hx
  | shutdownInLoop d =>
    rw [runIo, shutdownInLoop]
    split
    · exact hx
    · simp only [handleClose, hstate]
      exact hx
  | forceCloseInLoop d =>
    rw [runIo, forceCloseInLoop, if_neg (by rw [hstate]; simp)]
    exact hx

/-- Neither `shutdown` nor `forceClose` does anything to a connection in its first state. -/
theorem call_connecting (hstate : x.state = .kConnecting) (inThread writing : Bool)
    (call : CloseCall) : u.call c x inThread writing call = u := by
  cases call with
  | shutdown => rw [TcpServer.call, shutdown, if_neg (by rw [hstate]; simp)]
  | forceClose => rw [TcpServer.call, forceClose, if_neg (by rw [hstate]; simp)]

/-- What a connection was found to be when its callback was called stays on record. -/
theorem told_step {a : Action} (hs : s.Inv) (haborted : s.aborted = false)
    (hx : s.conn c = some x) (h : s.Told c x) (hstep : Steps s a t) :
    ∃ y, t.conn c = some y ∧ t.Told c y := by
  have hkeep := fun hcallback hy ha => h.keep hs haborted hx hstep ha hcallback hy
  -- nothing happens to the connection, and its callback does not become pending
  have hsame (hconn : t.conn c = s.conn c)
      (hcallback : t.callback x.ioLoop = some c ↔ s.callback x.ioLoop = some c)
      (ha : ∀ i, a = .connectionCallback i → s.callback i ≠ some c) :
      ∃ y, t.conn c = some y ∧ t.Told c y := by
    refine hkeep hcallback (fun y hy => ?_) ha
    obtain rfl := Option.some.inj ((hconn.trans hx).symm.trans hy)
    exact ⟨id, fun _ => .inl rfl⟩
  cases hstep with
  | start =>
    refine hsame ?_ ?_ (by simp)
    · rw [start]
      split <;> rfl
    · rw [start]
      split <;> exact Iff.rfl
  | newConnection hlistening =>
    have hne : c ≠ s.nextConnId := by
      rintro rfl
      rw [hs.known.fresh _ (Nat.le_refl _)] at hx
      contradiction
    refine hsame ?_ ?_ (by simp)
    · rw [newConnection]
      split
      · rfl
      · exact Function.update_of_ne hne _ _
    · rw [newConnection]
      split <;> exact Iff.rfl
  | stop hstopping horder =>
    refine hsame ?_ ?_ (by simp)
    · rw [stop]
      split <;> rfl
    · rw [stop]
      split <;> exact Iff.rfl
  | @stopNext d rest z hstopping hz =>
    have hcallback : ({ s with stopping := rest }.forceClose d z false).callback = s.callback := by
      obtain ⟨conn, base, io, aborted, trace, hframe⟩ :=
        forceClose_frame { s with stopping := rest } d z false
      rw [hframe]
    by_cases hdc : d = c
    · subst hdc
      obtain rfl := Option.some.inj (hx.symm.trans hz)
      refine hkeep (by rw [hcallback]) (fun y hy => ⟨fun hstate => ?_, fun hcb => ?_⟩) (by simp)
      · have hnoop := call_connecting (u := { s with stopping := rest }) (c := d) hstate false false
          .forceClose
        rw [show forceClose _ d x false = _ from hnoop] at hy
        obtain rfl := Option.some.inj (hx.symm.trans hy)
        exact hstate
      · obtain ⟨-, -, hstate⟩ := h.pending hcb
        have hopen : x.state = .kConnected ∨ x.state = .kDisConnecting :=
          hstate.imp_right And.left
        have hforced : { s with stopping := rest }.forceClose d x false =
            ({ s with stopping := rest }.setState d x .kDisConnecting).queueInIo x.ioLoop
              (.forceCloseInLoop d) := by
          rw [forceClose, if_pos hopen]
          rfl
        rw [hforced] at hy ⊢
        obtain rfl := Option.some.inj ((conn_setState _).symm.trans hy)
        refine .inr ⟨rfl, ?_⟩
        change _ ∈ Function.update s.io x.ioLoop (s.io x.ioLoop ++ [_]) x.ioLoop
        rw [Function.update_self]
        exact List.mem_append_right _ (List.mem_singleton_self _)
    · exact hsame (conn_forceClose (u := { s with stopping := rest }) hdc z false)
        (by rw [hcallback]) (by simp)
  | @baseFunc d rest z hbase hz =>
    obtain ⟨connections, io, trace, hframe⟩ :=
      removeConnectionInLoop_frame { s with base := rest } d z
    rw [hframe] at hsame ⊢
    exact hsame rfl Iff.rfl (by simp)
  | @ioFunc i writing f rest z hcallback hio hz =>
    obtain rfl := hs.known.ioLoop hio hz
    by_cases hf : ∃ d, f = .connectEstablelished d
    · obtain ⟨d, rfl⟩ := hf
      by_cases hdc : d = c
      · subst hdc
        obtain rfl := Option.some.inj (hx.symm.trans hz)
        exact told_connectEstablelished hs h hx hio (.ioFunc hcallback hio hz)
      · have hstate : z.state = .kConnecting := by
          refine (hs.sound d z hz).establishing ?_
          change 0 < (s.io z.ioLoop).count _
          rw [hio, List.count_cons_self]
          exact Nat.succ_pos _
        refine hsame (conn_runIo (u := { s with io := Function.update s.io z.ioLoop rest })
          (f := .connectEstablelished d) hdc z writing) ?_ (by simp)
        rw [runIo, connectEstablelished, if_neg (not_not.mpr hstate)]
        change Function.update s.callback z.ioLoop (some d) x.ioLoop = some c ↔ _
        rw [Function.update_apply]
        split
        · rename_i hloop
          rw [hloop, hcallback]
          simpa using hdc
        · exact Iff.rfl
    · have hcb := callback_runIo (u := { s with io := Function.update s.io z.ioLoop rest }) f z
        writing fun d hd => hf ⟨d, hd⟩
      have hcb : ({ s with io := Function.update s.io z.ioLoop rest }.runIo z writing f).callback =
          s.callback := hcb
      by_cases hfc : f.conn = c
      · subst hfc
        obtain rfl := Option.some.inj (hx.symm.trans hz)
        refine hkeep (by rw [hcb]) (fun y hy => ⟨fun hstate => ?_, fun hpending => ?_⟩) (by simp)
        · have hsome := conn_runIo_connecting
            (u := { s with io := Function.update s.io x.ioLoop rest }) hx writing hstate
            fun d hd => hf ⟨d, hd⟩
          obtain rfl := Option.some.inj (hsome.symm.trans hy)
          exact hstate
        · rw [hcallback] at hpending
          contradiction
      · exact hsame (conn_runIo (u := { s with io := Function.update s.io z.ioLoop rest }) hfc z
          writing) (by rw [hcb]) (by simp)
  | @connectionCallback i d z hcallback hz =>
    by_cases hdc : d = c
    · subst hdc
      obtain rfl := Option.some.inj (hx.symm.trans hz)
      exact ⟨x, hx, told_connectionCallback hs h hx hcallback⟩
    · refine hsame rfl ?_ ?_
      · change Function.update s.callback i none x.ioLoop = some c ↔ _
        rw [Function.update_apply]
        split
        · rename_i hloop
          rw [hloop, hcallback]
          simpa using hdc
        · exact Iff.rfl
      · rintro j hj
        obtain rfl := Action.connectionCallback.inj hj
        rw [hcallback]
        simpa using hdc
  | @handleClose d z hz hstate hcallback =>
    obtain ⟨conn, base, aborted, trace, hframe⟩ := s.handleClose_frame d z
    have hcb : (s.handleClose d z).callback = s.callback := by rw [hframe]
    by_cases hdc : d = c
    · subst hdc
      obtain rfl := Option.some.inj (hx.symm.trans hz)
      refine hkeep (by rw [hcb]) (fun y hy => ⟨fun hs => absurd hs hstate, fun hpending => ?_⟩)
        (by simp)
      rw [hcallback] at hpending
      contradiction
    · exact hsame (conn_handleClose_of_ne hdc z) (by rw [hcb]) (by simp)
  | @call d call inThread writing z hz hhanded hcallback =>
    obtain ⟨conn, base, io, aborted, trace, hframe⟩ := s.call_frame d z inThread writing call
    have hcb : (s.call d z inThread writing call).callback = s.callback := by rw [hframe]
    by_cases hdc : d = c
    · subst hdc
      obtain rfl := Option.some.inj (hx.symm.trans hz)
      obtain ⟨state, hmem⟩ := handedOut_iff.mp hhanded
      refine hkeep (by rw [hcb]) (fun y hy => ⟨fun hstate => ?_, fun hpending => ?_⟩) (by simp)
      · rw [call_connecting hstate] at hy
        obtain rfl := Option.some.inj (hx.symm.trans hy)
        exact hstate
      · exact absurd hmem ((h.pending hpending).2.1 state)
    · refine hsame ?_ (by rw [hcb]) (by simp)
      cases call with
      | shutdown => exact conn_shutdown hdc z inThread writing
      | forceClose => exact conn_forceClose hdc z inThread

/-- A connection that has just been accepted has not been told of. -/
theorem told_newConnection (hs : s.Inv) (hc : s.conn c = none) (hstep : Steps s .newConnection t)
    (hy : t.conn c = some y) : t.Told c y := by
  have hinv := inv_step hs hstep
  have hnone (state : StateE) : .connectionCallback c state ∉ t.trace := by
    intro hmem
    rcases mem_trace_of_step hstep hmem with hmem | ⟨i, x, hi, -⟩
    · exact hs.known.events _ hmem hc
    · contradiction
  cases hstep with
  | newConnection hlistening =>
    have hcallback : s.newConnection.callback = s.callback := by
      rw [newConnection]
      split <;> rfl
    have hstate : y.state = .kConnecting := by
      rw [newConnection] at hy
      split at hy
      · change s.conn c = some y at hy
        rw [hc] at hy
        contradiction
      · change Function.update s.conn s.nextConnId (some _) c = some y at hy
        rw [Function.update_apply] at hy
        split at hy
        · obtain rfl := Option.some.inj hy
          rfl
        · rw [hc] at hy
          contradiction
    refine ⟨fun hcb => ?_, fun state hmem => absurd hmem (hnone state), fun hone => ?_,
      fun state hmem => absurd hmem (hnone state)⟩
    · rw [hcallback] at hcb
      exact absurd hc (hs.known.callback _ c hcb).ne_none
    · rw [hops_establish hinv hy, if_pos hstate] at hone
      contradiction

end TcpServer

end ClearMoon.Server

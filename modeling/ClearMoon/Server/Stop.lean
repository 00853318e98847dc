import ClearMoon.Server.LifeCycle

/-!
# Stopping the server

`TcpServer::stop` calls `forceClose` on every connection it has. A connection that has been
accepted but not established is not closed by that call, and nothing closes it later.
-/

namespace ClearMoon.Server

open ClearMoon.Net
open ClearMoon.Tcp (StateE)

namespace TcpServer

variable {s t u : TcpServer} {c d i : Nat} {x y : ServerConn}

/-- `stop` has returned, and all queues are empty. -/
structure Drained (s : TcpServer) : Prop where
  stopping : s.stopping = []
  base : s.base = []
  io : ∀ i, s.io i = []

/-- The server has no connection left, and every connection it has accepted is closed. -/
structure AllClosed (s : TcpServer) : Prop where
  connections : s.connections = ∅
  closed : ∀ c x, s.conn c = some x → x.state = .kDisConnected

/-- A step after `stop` that accepts no connection. -/
def AcceptsNone (_ : TcpServer) (a : Action) : Prop := a ≠ .newConnection

/-- No connection is accepted, and `stop` does not come to a connection that has not been
established. -/
def StopsEstablished (s : TcpServer) (a : Action) : Prop :=
  a ≠ .newConnection ∧
    (a = .stopNext → ∀ c ∈ s.stopping.head?, ∀ x ∈ s.conn c, x.state ≠ .kConnecting)

instance (s : TcpServer) (a : Action) : Decidable (s.AcceptsNone a) :=
  inferInstanceAs (Decidable (a ≠ .newConnection))

instance (s : TcpServer) (a : Action) : Decidable (s.StopsEstablished a) :=
  inferInstanceAs (Decidable (_ ∧ (_ → _)))

/-- The connection is closed, or the functor that closes it is queued. -/
def Closing (s : TcpServer) (c : Nat) (x : ServerConn) : Prop :=
  x.state = .kDisConnected ∨ .forceCloseInLoop c ∈ s.io x.ioLoop

/-- The connection is closed, or is going to be. -/
def Doomed (s : TcpServer) (c : Nat) (x : ServerConn) : Prop :=
  s.Closing c x ∨ c ∈ s.stopping

/-! ### What operations leave in the queues -/

/-- A close queues nothing in the io loops. -/
theorem io_handleClose (y : ServerConn) : (u.handleClose d y).io = u.io := by
  obtain ⟨conn, base, aborted, trace, h⟩ := u.handleClose_frame d y
  rw [h]

/-- What is queued in an io loop stays there until it is run. -/
theorem mem_io_queueInIo {f g : IoFunctor} {j : Nat} (h : f ∈ u.io i) :
    f ∈ (u.queueInIo j g).io i := by
  change f ∈ Function.update u.io j (u.io j ++ [g]) i
  rw [Function.update_apply]
  split
  · rename_i hij
    exact List.mem_append_left _ (hij ▸ h)
  · exact h

/-- A forced close takes no functor away. -/
theorem mem_io_forceClose {f : IoFunctor} (y : ServerConn) (inThread : Bool) (h : f ∈ u.io i) :
    f ∈ (u.forceClose d y inThread).io i := by
  rw [forceClose]
  split
  · dsimp only
    split
    · rw [forceCloseInLoop, if_pos (.inr rfl), io_handleClose]
      exact h
    · exact mem_io_queueInIo (u := u.setState d y .kDisConnecting) h
  · exact h

/-- Nor does a shutdown. -/
theorem mem_io_shutdown {f : IoFunctor} (y : ServerConn) (inThread writing : Bool)
    (h : f ∈ u.io i) : f ∈ (u.shutdown d y inThread writing).io i := by
  rw [shutdown]
  split
  · dsimp only
    split
    · rw [shutdownInLoop]
      split
      · exact h
      · rw [io_handleClose]
        exact h
    · exact mem_io_queueInIo (u := u.setState d y .kDisConnecting) h
  · exact h

/-- Nor does a functor, apart from itself. -/
theorem io_runIo (f : IoFunctor) (y : ServerConn) (writing : Bool) :
    (u.runIo y writing f).io = u.io := by
  obtain ⟨conn, base, callback, aborted, trace, h⟩ := u.runIo_frame y writing f
  rw [h]

/-- Nor does a removal. -/
theorem mem_io_removeConnectionInLoop {f : IoFunctor} (y : ServerConn) (h : f ∈ u.io i) :
    f ∈ (u.removeConnectionInLoop d y).io i := by
  rw [removeConnectionInLoop]
  generalize (if connName d ∈ u.connections then 1 else 0) = n
  split
  · exact h
  · exact mem_io_queueInIo h

/-- Nor does a new connection. -/
theorem mem_io_newConnection {f : IoFunctor} (h : f ∈ u.io i) : f ∈ u.newConnection.io i := by
  rw [newConnection]
  split
  · exact h
  · exact mem_io_queueInIo (u := { u with
      nextIdx := u.getNextLoop + 1
      nextConnId := u.nextConnId + 1
      connections := u.connections.insert (connName u.nextConnId) u.nextConnId
      conn := Function.update u.conn u.nextConnId (some { ioLoop := u.getNextLoop }) }) h

/-- A functor stays in the queue of an io loop until the loop runs it. -/
theorem mem_io_of_step {a : Action} {f : IoFunctor} (hstep : Steps s a t) (h : f ∈ s.io i) :
    f ∈ t.io i ∨ ∃ rest writing x, s.io i = f :: rest ∧ s.conn f.conn = some x ∧
      t = { s with io := Function.update s.io i rest }.runIo x writing f := by
  cases hstep with
  | start =>
    left
    rw [start]
    split <;> exact h
  | newConnection hlistening => exact .inl (mem_io_newConnection h)
  | stop hstopping horder =>
    left
    rw [stop]
    split <;> exact h
  | @stopNext d rest y hstopping hy =>
    exact .inl (mem_io_forceClose (u := { s with stopping := rest }) y false h)
  | @baseFunc d rest y hbase hy =>
    exact .inl (mem_io_removeConnectionInLoop (u := { s with base := rest }) y h)
  | @ioFunc j writing g rest y hcallback hio hy =>
    rw [io_runIo]
    by_cases hij : i = j
    · subst hij
      rw [hio, List.mem_cons] at h
      rcases h with rfl | h
      · exact .inr ⟨rest, writing, y, hio, hy, rfl⟩
      · left
        change f ∈ Function.update s.io i rest i
        rwa [Function.update_self]
    · left
      change f ∈ Function.update s.io j rest i
      rwa [Function.update_of_ne hij]
  | connectionCallback hcallback hy => exact .inl h
  | handleClose hy hstate hcallback => exact .inl (by rwa [io_handleClose])
  | @call d call inThread writing y hy hhanded hcallback =>
    cases call with
    | shutdown => exact .inl (mem_io_shutdown y inThread writing h)
    | forceClose => exact .inl (mem_io_forceClose y inThread h)

/-- A connection stays in the copy that `stop` works on until `stop` comes to it. -/
theorem mem_stopping_of_step {a : Action} (hstep : Steps s a t) (h : c ∈ s.stopping) :
    c ∈ t.stopping ∨ ∃ rest x, a = .stopNext ∧ s.stopping = c :: rest ∧ s.conn c = some x ∧
      t = { s with stopping := rest }.forceClose c x false := by
  cases hstep with
  | start =>
    left
    rw [start]
    split <;> exact h
  | newConnection hlistening =>
    left
    rw [newConnection]
    split <;> exact h
  | stop hstopping horder => simp [hstopping] at h
  | @stopNext d rest y hstopping hy =>
    rw [hstopping, List.mem_cons] at h
    rcases h with rfl | h
    · exact .inr ⟨rest, y, rfl, hstopping, hy, rfl⟩
    · left
      obtain ⟨conn, base, io, aborted, trace, hframe⟩ :=
        forceClose_frame { s with stopping := rest } d y false
      rwa [hframe]
  | @baseFunc d rest y hbase hy =>
    left
    obtain ⟨connections, io, trace, hframe⟩ :=
      removeConnectionInLoop_frame { s with base := rest } d y
    rwa [hframe]
  | @ioFunc i writing f rest y hcallback hio hy =>
    left
    obtain ⟨conn, base, callback, aborted, trace, hframe⟩ :=
      runIo_frame { s with io := Function.update s.io i rest } y writing f
    rwa [hframe]
  | connectionCallback hcallback hy => exact .inl h
  | @handleClose d y hy hstate hcallback =>
    left
    obtain ⟨conn, base, aborted, trace, hframe⟩ := s.handleClose_frame d y
    rwa [hframe]
  | @call d call inThread writing y hy hhanded hcallback =>
    left
    obtain ⟨conn, base, io, aborted, trace, hframe⟩ := s.call_frame d y inThread writing call
    rwa [hframe]

/-! ### What is doomed is closed -/

/-- An established connection that is closed by force is doomed. -/
theorem closing_forceClose (hx : u.conn c = some x) (hstate : x.state ≠ .kConnecting) :
    ∃ y, (u.forceClose c x false).conn c = some y ∧ (u.forceClose c x false).Closing c y := by
  rw [forceClose]
  split
  · refine ⟨{ x with state := .kDisConnecting }, conn_setState _, .inr ?_⟩
    change _ ∈ Function.update u.io x.ioLoop (u.io x.ioLoop ++ [_]) x.ioLoop
    rw [Function.update_self]
    exact List.mem_append_right _ (List.mem_singleton_self _)
  · rename_i hopen
    refine ⟨x, hx, .inl ?_⟩
    cases hs : x.state with
    | kConnecting => contradiction
    | kConnected => exact absurd (.inl hs) hopen
    | kDisConnecting => exact absurd (.inr hs) hopen
    | kDisConnected => rfl

/-- `forceCloseInLoop` finds an established connection, and closes it. -/
theorem closed_forceCloseInLoop (hx : u.conn c = some x) (hstate : x.state ≠ .kConnecting) :
    ∃ y, (u.forceCloseInLoop c x).conn c = some y ∧ y.state = .kDisConnected := by
  rw [forceCloseInLoop]
  split
  · rename_i hopen
    exact ⟨{ x with state := .kDisConnected },
      by rw [conn_handleClose hopen, Function.update_self], rfl⟩
  · rename_i hopen
    refine ⟨x, hx, ?_⟩
    cases hs : x.state with
    | kConnecting => contradiction
    | kConnected => exact absurd (.inl hs) hopen
    | kDisConnecting => exact absurd (.inr hs) hopen
    | kDisConnected => rfl

/-- A connection that is being closed goes on to be closed. -/
theorem closing_step {a : Action} (h : s.Inv) (hstep : Steps s a t) (hx : s.conn c = some x)
    (hd : s.Closing c x) : ∃ y, t.conn c = some y ∧ t.Closing c y := by
  obtain ⟨y, hy, hloop, hmoves⟩ := tracks_of_step h.known (h.sound c x hx) hx hstep
  rcases hd with hstate | hqueued
  · refine ⟨y, hy, .inl ?_⟩
    have hrank : x.state.rank ≤ y.state.rank := hmoves.state.rank_le
    rw [hstate] at hrank
    cases hys : y.state with
    | kDisConnected => rfl
    | _ => simp [hys, StateE.rank] at hrank
  · rcases mem_io_of_step hstep hqueued with hqueued | ⟨rest, writing, z, hio, hz, rfl⟩
    · exact ⟨y, hy, .inr (hloop ▸ hqueued)⟩
    · obtain rfl : x = z := Option.some.inj (hx.symm.trans hz)
      have hstate : x.state ≠ .kConnecting := by
        intro hconnecting
        have hnone := List.countP_eq_zero.mp ((h.sound c x hx).shutting hconnecting)
          (.forceCloseInLoop c) (hio ▸ List.mem_cons_self)
        exact hnone (decide_eq_true rfl)
      obtain ⟨z, hz, hclosed⟩ := closed_forceCloseInLoop
        (u := { s with io := Function.update s.io x.ioLoop rest }) hx hstate
      exact ⟨z, hz, .inl hclosed⟩

/-- A connection that a stop has found stays doomed until it is closed. -/
theorem doomed_step {a : Action} (h : s.Inv) (hg : s.StopsEstablished a)
    (hstep : Steps s a t) (hx : s.conn c = some x) (hd : s.Doomed c x) :
    ∃ y, t.conn c = some y ∧ t.Doomed c y := by
  rcases hd with hclosing | hstopping
  · obtain ⟨y, hy, hclosing⟩ := closing_step h hstep hx hclosing
    exact ⟨y, hy, .inl hclosing⟩
  · rcases mem_stopping_of_step hstep hstopping with hstopping | ⟨rest, z, rfl, hhead, hz, rfl⟩
    · obtain ⟨y, hy, -⟩ := tracks_of_step h.known (h.sound c x hx) hx hstep
      exact ⟨y, hy, .inr hstopping⟩
    · obtain rfl : x = z := Option.some.inj (hx.symm.trans hz)
      have hstate := hg.2 rfl c (by rw [hhead]; rfl) x hx
      obtain ⟨y, hy, hclosing⟩ := closing_forceClose (u := { s with stopping := rest }) hx hstate
      exact ⟨y, hy, .inl hclosing⟩

/-- What `stop` has copied from `connections_` is doomed, and what it has not is closed. -/
theorem doomed_stop {order : List Nat} (h : s.Inv) (hstarted : s.started = true)
    (horder : order.Perm s.listed) (hx : s.conn c = some x) : (s.stop order).Doomed c x := by
  have hstop : (s.stop order).stopping = order := by rw [stop, if_pos hstarted]
  cases hlisted : (s.tally c x).listed with
  | true =>
    refine .inr ?_
    rw [hstop, horder.mem_iff, mem_listed]
    exact ⟨connName c, of_decide_eq_true hlisted⟩
  | false =>
    refine .inl (.inl ?_)
    have hsound := h.sound c x hx
    have hremoved : (s.tally c x).removed ≠ 0 := by
      rw [Ne, ← hsound.listed, hlisted]
      simp
    have hremove := hsound.remove
    have hclose := hsound.close
    split at hclose
    · assumption
    · omega

/-- With the queues empty, all doomed connections are closed. -/
theorem allClosed_of_drained (h : s.Inv) (hdoomed : ∀ c x, s.conn c = some x → s.Doomed c x)
    (hdrained : s.Drained) : s.AllClosed := by
  have hclosed (c : Nat) (x : ServerConn) (hx : s.conn c = some x) : x.state = .kDisConnected := by
    rcases hdoomed c x hx with (hstate | hqueued) | hstopping
    · exact hstate
    · simp [hdrained.io] at hqueued
    · simp [hdrained.stopping] at hstopping
  refine ⟨?_, hclosed⟩
  ext name c
  rw [Std.ExtTreeMap.getElem?_empty]
  refine ⟨fun hname => ?_, (by simp)⟩
  obtain ⟨rfl, hconn⟩ := h.known.connections name c hname
  obtain ⟨x, hx⟩ := Option.ne_none_iff_exists'.mp hconn
  have hsound := h.sound c x hx
  have hremoving : (s.tally c x).removing = 0 := by simp [tally, hdrained.base]
  have hclose := hsound.close
  have hremove := hsound.remove
  rw [if_pos (show (s.tally c x).state = .kDisConnected from hclosed c x hx)] at hclose
  have hzero := hsound.listed.mp (decide_eq_true hname)
  omega

/-- When `stop` has returned and the queues have been drained without another connection being
accepted, the server has no connection left and all of them are closed, in every run in which
`stop` finds the connections established. -/
theorem allClosed_of_run {maxNum hardware_concurrency : Nat} {as bs : List Action}
    {order : List Nat} (hs : Run step anyStep (init maxNum hardware_concurrency) as s)
    (hstarted : s.started = true) (hstop : s.step (.stop order) = some u)
    (ht : Run step StopsEstablished u bs t) (hdrained : t.Drained) : t.AllClosed := by
  obtain ⟨hinv, -, -⟩ := inv_of_run hs
  have hsteps := (steps_of_step hstop).2
  have hu : u.Inv ∧ ∀ c x, u.conn c = some x → u.Doomed c x := by
    refine ⟨inv_step hinv hsteps, fun c x hx => ?_⟩
    cases hsteps with
    | stop hstopping horder =>
      have hconn : (s.stop order).conn = s.conn := by rw [stop, if_pos hstarted]
      exact doomed_stop hinv hstarted horder (hconn ▸ hx)
  have htinv : t.Inv ∧ ∀ c x, t.conn c = some x → t.Doomed c x := by
    refine Run.invariant (I := fun t => t.Inv ∧ ∀ c x, t.conn c = some x → t.Doomed c x) ht hu ?_
    rintro v a w ⟨hv, hdoomed⟩ hg hstep
    have hsteps := (steps_of_step hstep).2
    refine ⟨inv_step hv hsteps, fun c y hy => ?_⟩
    cases hc : v.conn c with
    | none =>
      rw [conn_none_of_step hsteps hc hg.1] at hy
      contradiction
    | some x =>
      obtain ⟨z, hz, hd⟩ := doomed_step hv hg hsteps hc (hdoomed c x hc)
      obtain rfl := Option.some.inj (hy.symm.trans hz)
      exact hd
  exact allClosed_of_drained htinv.1 htinv.2 hdrained

/-- Only the loops that have connections can have functors. -/
theorem drained_of_known (h : s.Known) (hstopping : s.stopping = []) (hbase : s.base = [])
    (hio : ∀ c < s.nextConnId, ∀ x ∈ s.conn c, s.io x.ioLoop = []) : s.Drained := by
  refine ⟨hstopping, hbase, fun i => List.eq_nil_iff_forall_not_mem.mpr fun f hf => ?_⟩
  obtain ⟨x, hx, rfl⟩ := h.io i f hf
  have hlt : f.conn < s.nextConnId := by
    by_contra hge
    rw [h.fresh _ (not_lt.mp hge)] at hx
    contradiction
  rw [hio f.conn hlt x hx] at hf
  contradiction

/-- All queues that can hold a functor are empty. -/
def isDrained (s : TcpServer) : Bool :=
  s.stopping.isEmpty && s.base.isEmpty &&
    (List.range s.nextConnId).all fun c => (s.conn c).all fun x => (s.io x.ioLoop).isEmpty

theorem drained_of_isDrained (h : s.Known) (hdrained : s.isDrained = true) : s.Drained := by
  simp only [isDrained, Bool.and_eq_true, List.isEmpty_iff, List.all_eq_true, List.mem_range,
    Option.all_eq_true] at hdrained
  exact drained_of_known h hdrained.1.1 hdrained.1.2 hdrained.2

/-- `stop` closes two established connections. -/
def closedByStop : List Action :=
  [.stopNext, .stopNext, .ioFunc 1 false, .ioFunc 0 false, .baseFunc, .baseFunc, .ioFunc 0 false,
    .ioFunc 1 false]

theorem allClosed_of_run_closedByStop :
    ∃ s u t, Run step anyStep (init 2 0) accepting s ∧ s.step (.stop [1, 2]) = some u ∧
      Run step StopsEstablished u closedByStop t ∧ t.Drained ∧ t.AllClosed := by
  have hrun : ((replay step anyStep (init 2 0) accepting).bind fun s =>
      (s.step (.stop [1, 2])).bind fun u =>
        (replay step StopsEstablished u closedByStop).map fun t =>
        (s.started, t.isDrained)) = some (true, true) := by
    decide +kernel
  obtain ⟨s, hs, hrun⟩ := Option.bind_eq_some_iff.mp hrun
  obtain ⟨u, hu, hrun⟩ := Option.bind_eq_some_iff.mp hrun
  obtain ⟨t, ht, hrun⟩ := Option.map_eq_some_iff.mp hrun
  obtain ⟨hstarted, hdrained⟩ := Prod.mk.inj hrun
  have hu' : Run step anyStep (init 2 0) (accepting ++ [.stop [1, 2]]) u :=
    (Run.of_replay hs).snoc trivial hu
  have hinv := (inv_of_run (hu'.append ((Run.of_replay ht).mono fun _ _ _ => trivial))).1
  have hdrained := drained_of_isDrained hinv.known hdrained
  exact ⟨s, u, t, .of_replay hs, hu, .of_replay ht, hdrained,
    allClosed_of_run (.of_replay hs) hstarted hu (.of_replay ht) hdrained⟩

/-- `stop` runs when a connection has been accepted but not established. -/
theorem connection_survives_stop :
    ∃ s u t, Run step anyStep (init 2 0) [.start, .newConnection] s ∧ s.started = true ∧
      s.step (.stop [1]) = some u ∧
      Run step AcceptsNone u [.stopNext, .ioFunc 0 false, .connectionCallback 0] t ∧
      t.Drained ∧ ¬t.AllClosed := by
  have hrun : ((replay step anyStep (init 2 0) [.start, .newConnection]).bind fun s =>
      (s.step (.stop [1])).bind fun u =>
        (replay step AcceptsNone u [.stopNext, .ioFunc 0 false, .connectionCallback 0]).map fun t =>
          (s.started, t.isDrained, t.conn 1)) = some (true, true, some ⟨0, .kConnected⟩) := by
    decide +kernel
  obtain ⟨s, hs, hrun⟩ := Option.bind_eq_some_iff.mp hrun
  obtain ⟨u, hu, hrun⟩ := Option.bind_eq_some_iff.mp hrun
  obtain ⟨t, ht, hrun⟩ := Option.map_eq_some_iff.mp hrun
  obtain ⟨hstarted, hrun⟩ := Prod.mk.inj hrun
  obtain ⟨hdrained, hconn⟩ := Prod.mk.inj hrun
  have hu' : Run step anyStep (init 2 0) ([.start, .newConnection] ++ [.stop [1]]) u :=
    (Run.of_replay hs).snoc trivial hu
  have hinv := (inv_of_run (hu'.append ((Run.of_replay ht).mono fun _ _ _ => trivial))).1
  refine ⟨s, u, t, .of_replay hs, hstarted, hu, .of_replay ht,
    drained_of_isDrained hinv.known hdrained, fun h => ?_⟩
  have hclosed := h.closed 1 _ hconn
  contradiction

end TcpServer

end ClearMoon.Server

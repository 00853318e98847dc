import ClearMoon.Http.RoundTrip
import ClearMoon.Server.TcpServer

/-!
# What the server refers to

The queues, the map and the trace of a server refer to connections that it has accepted, and an
operation on one connection leaves the others alone.
-/

namespace ClearMoon.Server

open ClearMoon.Net
open ClearMoon.Tcp (StateE)

def Event.conn : Event → Nat
  | .newConnection c | .connectEstablelished c _ | .connectionCallback c _ | .closeCallback c
  | .removeConnectionInLoop c _ | .connectDestroyed c _ => c

/-- A connection's name is its own. -/
theorem connName_injective {c d : Nat} (h : connName c = connName d) : c = d := by
  have hdecimal := List.append_cancel_left h
  rw [← Http.decimalValue_decimal c, hdecimal, Http.decimalValue_decimal]

namespace TcpServer

variable {s t : TcpServer} {c d i : Nat} {x y : ServerConn}

/-- A connection that changes its state keeps everything else. -/
theorem conn_setState (state : StateE) :
    (s.setState c x state).conn c = some { x with state } := by
  simp only [setState, Function.update_self]

/-- Closing an open connection stores its last state, and touches no other connection. -/
theorem conn_handleClose (h : x.state = .kConnected ∨ x.state = .kDisConnecting) :
    (s.handleClose c x).conn = Function.update s.conn c
      (some { x with state := .kDisConnected }) := by
  rcases h with h | h
  · simp only [handleClose, h]
    rfl
  · simp only [handleClose, h]
    rfl

/-- A connection has been accepted and given to this io loop. -/
def Lives (s : TcpServer) (c i : Nat) : Prop := ∃ x, s.conn c = some x ∧ x.ioLoop = i

/-- What the server refers to are connections that it has accepted. -/
structure Known (s : TcpServer) : Prop where
  threadNum : s.threadNum ≠ 0
  loops : s.listening = true → s.loops ≠ 0
  fresh : ∀ c, s.nextConnId ≤ c → s.conn c = none
  io : ∀ i, ∀ f ∈ s.io i, s.Lives f.conn i
  base : ∀ c, .removeConnectionInLoop c ∈ s.base → s.conn c ≠ none
  connections : ∀ name c, s.connections[name]? = some c → name = connName c ∧ s.conn c ≠ none
  events : ∀ e ∈ s.trace, s.conn e.conn ≠ none
  callback : ∀ i c, s.callback i = some c → s.Lives c i
  stopping : ∀ c ∈ s.stopping, s.conn c ≠ none

/-- A connection that lives on a loop has been accepted. -/
theorem Lives.ne_none (h : s.Lives c i) : s.conn c ≠ none := by
  obtain ⟨x, hx, -⟩ := h
  rw [hx]
  simp

namespace Known

/-- Connections may be added and their states changed. -/
theorem setConn {conn : Nat → Option ServerConn} (nextConnId : Nat) (h : s.Known)
    (hlives : ∀ c i, s.Lives c i → { s with conn, nextConnId }.Lives c i)
    (hfresh : ∀ c, nextConnId ≤ c → conn c = none) : { s with conn, nextConnId }.Known := by
  have hknown : ∀ c, s.conn c ≠ none → conn c ≠ none := by
    intro c hc
    obtain ⟨x, hx⟩ := Option.ne_none_iff_exists'.mp hc
    exact (hlives c x.ioLoop ⟨x, hx, rfl⟩).ne_none
  exact {
    threadNum := h.threadNum
    loops := h.loops
    fresh := hfresh
    io := fun i f hf => hlives _ _ (h.io i f hf)
    base := fun c hc => hknown c (h.base c hc)
    connections := fun name c hc =>
      ⟨(h.connections name c hc).1, hknown c (h.connections name c hc).2⟩
    events := fun e he => hknown _ (h.events e he)
    callback := fun i c hc => hlives _ _ (h.callback i c hc)
    stopping := fun c hc => hknown c (h.stopping c hc) }

/-- A change of state moves no connection to another loop. -/
theorem setState (h : s.Known) (hc : s.Lives c x.ioLoop) (state : StateE) :
    (s.setState c x state).Known := by
  refine setConn s.nextConnId h ?_ ?_
  · intro d i hd
    by_cases hdc : d = c
    · subst hdc
      obtain ⟨y, hy, rfl⟩ := hd
      obtain ⟨z, hz, hloop⟩ := hc
      obtain rfl := Option.some.inj (hy.symm.trans hz)
      exact ⟨_, conn_setState state, hloop.symm⟩
    · obtain ⟨y, hy, hloop⟩ := hd
      exact ⟨y, (Function.update_of_ne hdc _ _).trans hy, hloop⟩
  · intro d hd
    have hne : d ≠ c := by
      rintro rfl
      exact hc.ne_none (h.fresh d hd)
    exact (Function.update_of_ne hne _ _).trans (h.fresh d hd)

/-- An event may be noted of a connection that has been accepted. -/
theorem note {e : Event} (h : s.Known) (he : s.conn e.conn ≠ none) : (s.note e).Known where
  __ := h
  events e' he' := by
    rw [TcpServer.note, List.mem_append, List.mem_singleton] at he'
    rcases he' with he' | rfl
    · exact h.events e' he'
    · exact he

/-- A functor may be queued in the loop of its connection. -/
theorem queueInIo {f : IoFunctor} (h : s.Known) (hf : s.Lives f.conn i) :
    (s.queueInIo i f).Known where
  __ := h
  io j g hg := by
    change g ∈ Function.update s.io i (s.io i ++ [f]) j at hg
    rw [Function.update_apply] at hg
    split at hg
    · rename_i hji
      rw [List.mem_append, List.mem_singleton] at hg
      rcases hg with hg | rfl
      · exact hji ▸ h.io i g hg
      · exact hji ▸ hf
    · exact h.io j g hg

/-- Taking a functor out of a queue leaves only known ones behind. -/
theorem popIo {f : IoFunctor} {rest : List IoFunctor} (h : s.Known) (hio : s.io i = f :: rest) :
    { s with io := Function.update s.io i rest }.Known where
  __ := h
  io j g hg := by
    change g ∈ Function.update s.io i rest j at hg
    rw [Function.update_apply] at hg
    split at hg
    · rename_i hji
      exact hji ▸ h.io i g (hio ▸ List.mem_cons_of_mem f hg)
    · exact h.io j g hg

/-- A removal may be queued in the base loop for any connection that has been accepted. -/
theorem queueInBase (h : s.Known) (hc : s.conn c ≠ none) :
    (s.queueInBase (.removeConnectionInLoop c)).Known where
  __ := h
  base d hd := by
    rw [TcpServer.queueInBase, List.mem_append, List.mem_singleton] at hd
    rcases hd with hd | hd
    · exact h.base d hd
    · obtain rfl := BaseFunctor.removeConnectionInLoop.inj hd
      exact hc

/-- An io loop may enter the connection callback of one of its own connections. -/
theorem setCallback {o : Option Nat} (h : s.Known) (ho : ∀ c ∈ o, s.Lives c i) :
    (s.setCallback i o).Known where
  __ := h
  callback j c hc := by
    change Function.update s.callback i o j = some c at hc
    rw [Function.update_apply] at hc
    split at hc
    · rename_i hji
      exact hji ▸ ho c hc
    · exact h.callback j c hc

/-- An assertion that fails adds no reference. -/
theorem abort (h : s.Known) : { s with aborted := true }.Known where
  __ := h

end Known

/-- A connection stays on its loop when its state changes. -/
theorem lives_setState (state : StateE) :
    (s.setState c x state).Lives c x.ioLoop := ⟨_, conn_setState state, rfl⟩

/-- The close queues a removal of the closed connection itself. -/
theorem known_handleClose (h : s.Known) (hc : s.Lives c x.ioLoop) : (s.handleClose c x).Known := by
  have hclosed : (((s.setState c x .kDisConnected).note (.closeCallback c)).queueInBase
      (.removeConnectionInLoop c)).Known :=
    ((h.setState hc _).note (lives_setState _).ne_none).queueInBase
      (lives_setState (x := x) .kDisConnected).ne_none
  rw [handleClose]
  split
  · exact h
  · exact h.abort
  · exact hclosed
  · exact hclosed

/-- A forced close, at once or through the queue of the connection's loop, stays with its
connection. -/
theorem known_forceClose (h : s.Known) (hc : s.Lives c x.ioLoop) (inThread : Bool) :
    (s.forceClose c x inThread).Known := by
  have hs := h.setState hc .kDisConnecting
  have hc' := lives_setState (s := s) (c := c) (x := x) .kDisConnecting
  rw [forceClose]
  split
  · dsimp only
    split
    · rw [forceCloseInLoop]
      split
      · exact known_handleClose (x := { x with state := .kDisConnecting }) hs hc'
      · exact hs
    · exact hs.queueInIo hc'
  · exact h

/-- So does a shutdown. -/
theorem known_shutdown (h : s.Known) (hc : s.Lives c x.ioLoop) (inThread writing : Bool) :
    (s.shutdown c x inThread writing).Known := by
  have hs := h.setState hc .kDisConnecting
  have hc' := lives_setState (s := s) (c := c) (x := x) .kDisConnecting
  rw [shutdown]
  split
  · dsimp only
    split
    · rw [shutdownInLoop]
      split
      · exact hs
      · exact known_handleClose (x := { x with state := .kDisConnecting }) hs hc'
    · exact hs.queueInIo hc'
  · exact h

/-- The functors of an io loop work on connections of that loop. -/
theorem known_runIo {f : IoFunctor} (h : s.Known) (hf : s.Lives f.conn x.ioLoop)
    (writing : Bool) : (s.runIo x writing f).Known := by
  cases f with
  | connectEstablelished c =>
    rw [runIo, connectEstablelished]
    split
    · exact (h.note (e := .connectEstablelished c x.state) hf.ne_none).abort
    · have hc := lives_setState (s := s) (c := c) (x := x) .kConnected
      refine ((h.setState hf .kConnected).note (e := .connectEstablelished c x.state)
        hc.ne_none).setCallback ?_
      rintro d ⟨⟩
      exact hc
  | connectDestroyed c =>
    rw [runIo, connectDestroyed]
    split
    · exact (h.setState hf _).note (lives_setState _).ne_none
    · exact h.note hf.ne_none
  | shutdownInLoop c =>
    rw [runIo, shutdownInLoop]
    split
    · exact h
    · exact known_handleClose h hf
  | forceCloseInLoop c =>
    rw [runIo, forceCloseInLoop]
    split
    · exact known_handleClose h hf
    · exact h

/-- The base loop queues `connectDestroyed` in the loop in which the connection lives. -/
theorem known_removeConnectionInLoop (h : s.Known) (hc : s.Lives c x.ioLoop) :
    (s.removeConnectionInLoop c x).Known := by
  have herased : { s with connections := s.connections.erase (connName c) }.Known := by
    refine { h with connections := fun name d hd => ?_ }
    rw [Std.ExtTreeMap.getElem?_erase] at hd
    split at hd
    · contradiction
    · exact h.connections name d hd
  rw [removeConnectionInLoop]
  generalize (if connName c ∈ s.connections then 1 else 0) = n
  have hnoted := herased.note (e := .removeConnectionInLoop c n) hc.ne_none
  split
  · exact hnoted
  · exact hnoted.queueInIo hc

/-- A new connection is named after its own number, and is established in the loop it is given. -/
theorem known_newConnection (h : s.Known) : s.newConnection.Known := by
  have hnone : s.conn s.nextConnId = none := h.fresh _ (Nat.le_refl _)
  rw [newConnection]
  split
  · exact h.abort
  · have hconn : { s with
        nextConnId := s.nextConnId + 1
        conn := Function.update s.conn s.nextConnId (some { ioLoop := s.getNextLoop }) }.Known := by
      refine Known.setConn _ h ?_ ?_
      · rintro d i ⟨y, hy, hloop⟩
        have hne : d ≠ s.nextConnId := by
          rintro rfl
          rw [hnone] at hy
          contradiction
        exact ⟨y, (Function.update_of_ne hne _ _).trans hy, hloop⟩
      · intro d hd
        exact (Function.update_of_ne (by omega) _ _).trans (h.fresh d (by omega))
    have hlives : { s with
        nextConnId := s.nextConnId + 1
        conn := Function.update s.conn s.nextConnId (some { ioLoop := s.getNextLoop }) }.Lives
          s.nextConnId s.getNextLoop := ⟨_, Function.update_self _ _ _, rfl⟩
    have hlisted : { s with
        nextIdx := s.getNextLoop + 1
        nextConnId := s.nextConnId + 1
        connections := s.connections.insert (connName s.nextConnId) s.nextConnId
        conn := Function.update s.conn s.nextConnId
          (some { ioLoop := s.getNextLoop }) }.Known := by
      refine { hconn with connections := fun name d hd => ?_ }
      rw [Std.ExtTreeMap.getElem?_insert] at hd
      split at hd
      · rename_i hname
        obtain rfl := Option.some.inj hd
        exact ⟨(Std.LawfulEqCmp.eq_of_compare hname).symm, hlives.ne_none⟩
      · exact hconn.connections name d hd
    exact (hlisted.queueInIo (f := .connectEstablelished s.nextConnId) hlives).note hlives.ne_none

/-- The connections listed by the server are the values of its map. -/
theorem mem_listed : c ∈ s.listed ↔ ∃ name : Bytes, s.connections[name]? = some c := by
  rw [listed, List.mem_map]
  constructor
  · rintro ⟨⟨name, d⟩, hmem, rfl⟩
    exact ⟨name, Std.ExtTreeMap.mem_toList_iff_getElem?_eq_some.mp hmem⟩
  · rintro ⟨name, hname⟩
    exact ⟨(name, c), Std.ExtTreeMap.mem_toList_iff_getElem?_eq_some.mpr hname, rfl⟩

/-- No step makes a reference to a connection that is not there. -/
theorem known_step {a : Action} (h : s.Known) (hstep : Steps s a t) : t.Known := by
  cases hstep with
  | start =>
    rw [start]
    split
    · exact h
    · exact { h with loops := fun _ => h.threadNum }
  | newConnection hlistening => exact known_newConnection h
  | stop hstopping horder =>
    rw [stop]
    split
    · refine { h with loops := by simp, stopping := fun c hc => ?_ }
      obtain ⟨name, hname⟩ := mem_listed.mp (horder.mem_iff.mp hc)
      exact (h.connections name c hname).2
    · exact h
  | @stopNext c rest x hstopping hx =>
    have hrest : { s with stopping := rest }.Known :=
      { h with stopping := fun d hd => h.stopping d (hstopping ▸ List.mem_cons_of_mem c hd) }
    exact known_forceClose hrest ⟨x, hx, rfl⟩ false
  | @baseFunc c rest x hbase hx =>
    have hrest : { s with base := rest }.Known :=
      { h with base := fun d hd => h.base d (hbase ▸ List.mem_cons_of_mem _ hd) }
    exact known_removeConnectionInLoop hrest ⟨x, hx, rfl⟩
  | ioFunc hcallback hio hx => exact known_runIo (h.popIo hio) ⟨_, hx, rfl⟩ _
  | @connectionCallback i c x hcallback hx =>
    exact (h.setCallback (by simp)).note (e := .connectionCallback c x.state)
      (h.callback i c hcallback).ne_none
  | handleClose hx hstate hcallback => exact known_handleClose h ⟨_, hx, rfl⟩
  | @call c call inThread writing x hx hhanded hcallback =>
    cases call with
    | shutdown => exact known_shutdown h ⟨x, hx, rfl⟩ inThread writing
    | forceClose => exact known_forceClose h ⟨x, hx, rfl⟩ inThread

/-- A new server refers to nothing. -/
theorem known_init (maxNum hardware_concurrency : Nat) :
    (init maxNum hardware_concurrency).Known where
  threadNum := by
    simp only [init]
    generalize (if 0 < maxNum then maxNum else hardware_concurrency) = n
    split
    · exact Nat.one_ne_zero
    · assumption
  loops h := by simp [init] at h
  fresh _ _ := rfl
  io _ _ hf := by simp [init] at hf
  base _ hc := by simp [init] at hc
  connections _ _ hc := by simp [init] at hc
  events _ he := by simp [init] at he
  callback _ _ hc := by simp [init] at hc
  stopping _ hc := by simp [init] at hc

/-- What is given to an io loop is one of its own connections. -/
theorem Known.ioLoop {f : IoFunctor} {rest : List IoFunctor} (h : s.Known)
    (hio : s.io i = f :: rest) (hx : s.conn f.conn = some x) : x.ioLoop = i := by
  obtain ⟨y, hy, hloop⟩ := h.io i f (hio ▸ List.mem_cons_self)
  obtain rfl := Option.some.inj (hx.symm.trans hy)
  exact hloop

/-! ### The members that an operation does not work on -/

/-- A close changes connections, the queue of the base loop and the trace, and may abort. -/
theorem handleClose_frame (u : TcpServer) (c : Nat) (x : ServerConn) :
    ∃ conn base aborted trace, u.handleClose c x = { u with conn, base, aborted, trace } := by
  rw [handleClose]
  split <;> exact ⟨_, _, _, _, rfl⟩

/-- A forced close may queue a functor in an io loop as well. -/
theorem forceClose_frame (u : TcpServer) (c : Nat) (x : ServerConn) (inThread : Bool) :
    ∃ conn base io aborted trace,
      u.forceClose c x inThread = { u with conn, base, io, aborted, trace } := by
  rw [forceClose]
  split
  · dsimp only
    split
    · rw [forceCloseInLoop, if_pos (.inr rfl)]
      obtain ⟨conn, base, aborted, trace, h⟩ := (u.setState c x .kDisConnecting).handleClose_frame c
        { x with state := .kDisConnecting }
      exact ⟨conn, base, u.io, aborted, trace, h⟩
    · exact ⟨_, _, _, _, _, rfl⟩
  · exact ⟨_, _, _, _, _, rfl⟩

/-- So may a shutdown. -/
theorem shutdown_frame (u : TcpServer) (c : Nat) (x : ServerConn) (inThread writing : Bool) :
    ∃ conn base io aborted trace,
      u.shutdown c x inThread writing = { u with conn, base, io, aborted, trace } := by
  rw [shutdown]
  split
  · dsimp only
    split
    · rw [shutdownInLoop]
      split
      · exact ⟨_, _, _, _, _, rfl⟩
      · obtain ⟨conn, base, aborted, trace, h⟩ :=
          (u.setState c x .kDisConnecting).handleClose_frame c { x with state := .kDisConnecting }
        exact ⟨conn, base, u.io, aborted, trace, h⟩
    · exact ⟨_, _, _, _, _, rfl⟩
  · exact ⟨_, _, _, _, _, rfl⟩

/-- No call on a connection touches the map of the server or the callbacks in progress. -/
theorem call_frame (u : TcpServer) (c : Nat) (x : ServerConn) (inThread writing : Bool)
    (call : CloseCall) : ∃ conn base io aborted trace,
      u.call c x inThread writing call = { u with conn, base, io, aborted, trace } := by
  cases call with
  | shutdown => exact u.shutdown_frame c x inThread writing
  | forceClose => exact u.forceClose_frame c x inThread

/-- A functor of an io loop queues nothing in an io loop, and leaves the map of the server alone. -/
theorem runIo_frame (u : TcpServer) (x : ServerConn) (writing : Bool) (f : IoFunctor) :
    ∃ conn base callback aborted trace,
      u.runIo x writing f = { u with conn, base, callback, aborted, trace } := by
  have hclose (c : Nat) : ∃ conn base callback aborted trace,
      u.handleClose c x = { u with conn, base, callback, aborted, trace } := by
    obtain ⟨conn, base, aborted, trace, h⟩ := u.handleClose_frame c x
    exact ⟨conn, base, u.callback, aborted, trace, h⟩
  cases f with
  | connectEstablelished c =>
    rw [runIo, connectEstablelished]
    split <;> exact ⟨_, _, _, _, _, rfl⟩
  | connectDestroyed c =>
    rw [runIo, connectDestroyed]
    split <;> exact ⟨_, _, _, _, _, rfl⟩
  | shutdownInLoop c =>
    rw [runIo, shutdownInLoop]
    split
    · exact ⟨_, _, _, _, _, rfl⟩
    · exact hclose c
  | forceCloseInLoop c =>
    rw [runIo, forceCloseInLoop]
    split
    · exact hclose c
    · exact ⟨_, _, _, _, _, rfl⟩

/-- The base loop takes the connection out of the map and changes no connection. -/
theorem removeConnectionInLoop_frame (u : TcpServer) (c : Nat) (x : ServerConn) :
    ∃ connections io trace,
      u.removeConnectionInLoop c x = { u with connections, io, trace } := by
  rw [removeConnectionInLoop]
  generalize (if connName c ∈ u.connections then 1 else 0) = n
  split <;> exact ⟨_, _, _, rfl⟩

/-! ### The connections that an operation does not work on -/

section Conn

variable {u : TcpServer}

/-- Closing a connection is no business of the others. -/
theorem conn_handleClose_of_ne (h : d ≠ c) (y : ServerConn) :
    (u.handleClose d y).conn c = u.conn c := by
  rw [handleClose]
  split
  · rfl
  · rfl
  · exact Function.update_of_ne h.symm _ _
  · exact Function.update_of_ne h.symm _ _

theorem conn_setState_of_ne (h : d ≠ c) (y : ServerConn) (state : StateE) :
    (u.setState d y state).conn c = u.conn c := Function.update_of_ne h.symm _ _

/-- Nor is a forced close. -/
theorem conn_forceClose (h : d ≠ c) (y : ServerConn) (inThread : Bool) :
    (u.forceClose d y inThread).conn c = u.conn c := by
  rw [forceClose]
  split
  · dsimp only
    split
    · rw [forceCloseInLoop]
      split
      · rw [conn_handleClose_of_ne h, conn_setState_of_ne h]
      · rw [conn_setState_of_ne h]
    · exact conn_setState_of_ne h y _
  · rfl

/-- Nor is a shutdown. -/
theorem conn_shutdown (h : d ≠ c) (y : ServerConn) (inThread writing : Bool) :
    (u.shutdown d y inThread writing).conn c = u.conn c := by
  rw [shutdown]
  split
  · dsimp only
    split
    · rw [shutdownInLoop]
      split
      · rw [conn_setState_of_ne h]
      · rw [conn_handleClose_of_ne h, conn_setState_of_ne h]
    · exact conn_setState_of_ne h y _
  · rfl

/-- A functor changes only the connection it is for. -/
theorem conn_runIo {f : IoFunctor} (h : f.conn ≠ c) (y : ServerConn) (writing : Bool) :
    (u.runIo y writing f).conn c = u.conn c := by
  cases f with
  | connectEstablelished d =>
    rw [runIo, connectEstablelished]
    split
    · rfl
    · exact conn_setState_of_ne h y _
  | connectDestroyed d =>
    rw [runIo, connectDestroyed]
    split
    · exact conn_setState_of_ne h y _
    · rfl
  | shutdownInLoop d =>
    rw [runIo, shutdownInLoop]
    split
    · rfl
    · exact conn_handleClose_of_ne h y
  | forceCloseInLoop d =>
    rw [runIo, forceCloseInLoop]
    split
    · exact conn_handleClose_of_ne h y
    · rfl

theorem conn_removeConnectionInLoop (d : Nat) (y : ServerConn) :
    (u.removeConnectionInLoop d y).conn = u.conn := by
  obtain ⟨connections, io, trace, h⟩ := u.removeConnectionInLoop_frame d y
  rw [h]

end Conn

/-- Only `newConnection` adds a connection. -/
theorem conn_none_of_step {a : Action} (hstep : Steps s a t) (hc : s.conn c = none)
    (ha : a ≠ .newConnection) : t.conn c = none := by
  have hne {d : Nat} {y : ServerConn} (hy : s.conn d = some y) : d ≠ c := by
    rintro rfl
    rw [hc] at hy
    contradiction
  cases hstep with
  | start =>
    rw [start]
    split <;> exact hc
  | newConnection hlistening => contradiction
  | stop hstopping horder =>
    rw [stop]
    split <;> exact hc
  | stopNext hstopping hx => exact (conn_forceClose (hne hx) _ false).trans hc
  | baseFunc hbase hx => exact (congrFun (conn_removeConnectionInLoop _ _) c).trans hc
  | ioFunc hcallback hio hx => exact (conn_runIo (hne hx) _ _).trans hc
  | connectionCallback hcallback hx => exact hc
  | handleClose hx hstate hcallback => exact (conn_handleClose_of_ne (hne hx) _).trans hc
  | @call d call inThread writing y hx hhanded hcallback =>
    cases call with
    | shutdown => exact (conn_shutdown (hne hx) y inThread writing).trans hc
    | forceClose => exact (conn_forceClose (hne hx) y inThread).trans hc

end TcpServer

end ClearMoon.Server

import ClearMoon.Server.Known

/-!
# One connection of the server

A `Tally` counts what has been done to a connection and what the queues of the loops still hold
for it. Every step of the server moves the tally of every connection as the life cycle allows.
-/

namespace ClearMoon.Server

open ClearMoon.Net
open ClearMoon.Tcp (StateE)

/-- The hops of a connection's life. -/
inductive Hop where
  | establish
  | close
  | remove
  | destroy
  deriving DecidableEq, Repr

/-- The hop that an event records. -/
def Event.hop? : Event → Option (Hop × Nat)
  | .connectEstablelished c _ => some (.establish, c)
  | .closeCallback c => some (.close, c)
  | .removeConnectionInLoop c _ => some (.remove, c)
  | .connectDestroyed c _ => some (.destroy, c)
  | .newConnection _ | .connectionCallback _ _ => none

/-- How often a connection has made a hop. -/
def hops (trace : List Event) (hop : Hop) (c : Nat) : Nat :=
  (trace.filterMap Event.hop?).count (hop, c)

/-- An event adds one hop at most. -/
theorem hops_concat (trace : List Event) (e : Event) (hop : Hop) (c : Nat) :
    hops (trace ++ [e]) hop c = hops trace hop c + if e.hop? = some (hop, c) then 1 else 0 := by
  rw [hops, List.filterMap_append, List.count_append]
  congr 1
  cases h : e.hop? with
  | none => simp [h]
  | some p => simp [h, List.count_cons]

/-- An event records a hop of its own connection only. -/
theorem Event.hop?_ne {e : Event} {c : Nat} (h : e.conn ≠ c) (hop : Hop) :
    e.hop? ≠ some (hop, c) := by
  cases e <;> simp_all [Event.hop?, Event.conn]

/-! ## Tallies -/

/-- What has been done to a connection, and what is queued for it. -/
structure Tally where
  state : StateE
  /-- Queued functors, by what they run. -/
  establishing : Nat
  /-- `shutdownInLoop` and `forceCloseInLoop`. -/
  shutting : Nat
  removing : Nat
  destroying : Nat
  /-- What has run. -/
  established : Nat
  closed : Nat
  removed : Nat
  destroyed : Nat
  /-- The connection is in `connections_`. -/
  listed : Bool

namespace Tally

/-- The connection is where its life cycle has brought it. -/
structure Sound (t : Tally) : Prop where
  establish : t.establishing + t.established = 1
  connecting : t.state = .kConnecting ↔ t.established = 0
  shutting : t.state = .kConnecting → t.shutting = 0
  close : t.closed = if t.state = .kDisConnected then 1 else 0
  remove : t.removing + t.removed = t.closed
  destroy : t.destroying + t.destroyed = t.removed
  listed : t.listed = true ↔ t.removed = 0

/-- What one step of the server may do to a connection; functors that the server does not count
may come and go. -/
inductive Moves (t : Tally) : Tally → Prop
  | stay {n} (h : n ≤ t.shutting) : Moves t { t with shutting := n }
  | establish (hqueued : 0 < t.establishing) (hstate : t.state = .kConnecting) :
      Moves t { t with
        state := .kConnected
        establishing := t.establishing - 1
        established := t.established + 1 }
  | disconnect {n} (h : t.state = .kConnected ∨ t.state = .kDisConnecting) :
      Moves t { t with state := .kDisConnecting, shutting := n }
  | close {n} (h : t.state = .kConnected ∨ t.state = .kDisConnecting) :
      Moves t { t with
        state := .kDisConnected
        shutting := n
        removing := t.removing + 1
        closed := t.closed + 1 }
  | remove (hqueued : 0 < t.removing) (hlisted : t.listed = true) :
      Moves t { t with
        removing := t.removing - 1
        removed := t.removed + 1
        destroying := t.destroying + 1
        listed := false }
  | destroy (hqueued : 0 < t.destroying) :
      Moves t { t with destroying := t.destroying - 1, destroyed := t.destroyed + 1 }

variable {t t' : Tally}

/-- `connectEstablelished` finds the connection in its first state. -/
theorem Sound.establishing (h : t.Sound) (hqueued : 0 < t.establishing) :
    t.state = .kConnecting := by
  have hestablish := h.establish
  exact h.connecting.mpr (by omega)

/-- `removeConnectionInLoop` finds the connection in `connections_`. -/
theorem Sound.removing (h : t.Sound) (hqueued : 0 < t.removing) : t.listed = true := by
  have hremove := h.remove
  have hclose := h.close
  refine h.listed.mpr ?_
  split at hclose <;> omega

/-- `connectDestroyed` finds the connection closed. -/
theorem Sound.destroying (h : t.Sound) (hqueued : 0 < t.destroying) :
    t.state = .kDisConnected ∧ t.closed = 1 := by
  have hdestroy := h.destroy
  have hremove := h.remove
  have hclose := h.close
  split at hclose
  · rename_i hstate
    exact ⟨hstate, hclose⟩
  · omega

/-- A move of the tally keeps it sound. -/
theorem Sound.moves (h : t.Sound) (hm : t.Moves t') : t'.Sound := by
  have hestablish := h.establish
  have hconnecting := h.connecting
  have hclose := h.close
  have hremove := h.remove
  have hdestroy := h.destroy
  have hlisted := h.listed
  cases hm with
  | stay hn => exact { h with shutting := fun hstate => by have := h.shutting hstate; simp; omega }
  | establish hqueued hstate =>
    have hestablished := hconnecting.mp hstate
    refine ⟨by simp; omega, by simp, (by simp), ?_, hremove, hdestroy, hlisted⟩
    rw [hstate] at hclose
    simpa using hclose
  | disconnect hstate =>
    refine ⟨hestablish, ?_, (by simp), ?_, hremove, hdestroy, hlisted⟩
    · rcases hstate with hstate | hstate <;> simpa [hstate] using hconnecting
    · rcases hstate with hstate | hstate <;> simpa [hstate] using hclose
  | close hstate =>
    have hopen : t.closed = 0 := by
      rcases hstate with hstate | hstate <;> simpa [hstate] using hclose
    refine ⟨hestablish, ?_, (by simp), by simp [hopen], by simp; omega, hdestroy, hlisted⟩
    rcases hstate with hstate | hstate <;> simpa [hstate] using hconnecting
  | remove hqueued hl =>
    have hzero := hlisted.mp hl
    exact ⟨hestablish, hconnecting, h.shutting, hclose, by simp; omega, by simp; omega, by simp⟩
  | destroy hqueued =>
    exact ⟨hestablish, hconnecting, h.shutting, hclose, hremove, by simp; omega, hlisted⟩

/-- The state moves forward with the tally. -/
theorem Moves.state (hm : t.Moves t') : t.state.Moves t'.state := by
  cases hm with
  | establish hqueued hstate =>
    rw [hstate]
    exact .establish
  | disconnect hstate => exact .disconnect hstate
  | close hstate => exact .close hstate
  | _ => exact .stay

end Tally

namespace TcpServer

variable {s t : TcpServer} {c d i : Nat} {x y : ServerConn}

/-- The tally of a connection. -/
def tally (s : TcpServer) (c : Nat) (x : ServerConn) : Tally where
  state := x.state
  establishing := (s.io x.ioLoop).count (.connectEstablelished c)
  shutting := (s.io x.ioLoop).countP (IoFunctor.closes c)
  removing := s.base.count (.removeConnectionInLoop c)
  destroying := (s.io x.ioLoop).count (.connectDestroyed c)
  established := hops s.trace .establish c
  closed := hops s.trace .close c
  removed := hops s.trace .remove c
  destroyed := hops s.trace .destroy c
  listed := s.connections[connName c]? = some c

/-- A functor closes the connection that it is for. -/
theorem closes_conn {f : IoFunctor} (h : f.closes c = true) : f.conn = c := by
  cases f with
  | shutdownInLoop d => exact of_decide_eq_true h
  | forceCloseInLoop d => exact of_decide_eq_true h
  | _ => contradiction

/-- It closes no other one. -/
theorem closes_of_ne {f : IoFunctor} (h : f.conn ≠ c) : f.closes c = false := by
  by_contra hcloses
  exact h (closes_conn (by simpa using hcloses))

/-! ### The operations that work on another connection -/

/-- The tally of a connection does not see what state another one stores. -/
theorem tally_setState (y : ServerConn) (state : StateE) :
    (s.setState d y state).tally c x = s.tally c x := rfl

/-- An event of another connection is not counted. -/
theorem tally_note {e : Event} (he : ∀ hop, e.hop? ≠ some (hop, c)) :
    (s.note e).tally c x = s.tally c x := by
  simp only [tally, note, hops_concat, he, if_false, Nat.add_zero]
  rfl

/-- Nor is a functor of another one. -/
theorem tally_queueInIo {f : IoFunctor} (hf : f.conn ≠ c) :
    (s.queueInIo i f).tally c x = s.tally c x := by
  have hcount : ∀ g : IoFunctor, g.conn = c →
      (Function.update s.io i (s.io i ++ [f]) x.ioLoop).count g = (s.io x.ioLoop).count g := by
    rintro g rfl
    rw [Function.update_apply]
    split
    · rename_i hi
      rw [hi, List.count_append, List.count_singleton, if_neg, Nat.add_zero]
      simpa using fun h => hf (congrArg IoFunctor.conn h)
    · rfl
  have hshut : (Function.update s.io i (s.io i ++ [f]) x.ioLoop).countP (IoFunctor.closes c) =
      (s.io x.ioLoop).countP (IoFunctor.closes c) := by
    rw [Function.update_apply]
    split
    · rename_i hi
      rw [hi, List.countP_append, List.countP_singleton, if_neg (by rw [closes_of_ne hf]; simp),
        Nat.add_zero]
    · rfl
  simp only [tally, queueInIo]
  congr 1
  · exact hcount _ rfl
  · exact hcount _ rfl

/-- The io loop has taken a functor of another connection off its queue. -/
theorem tally_popIo {f : IoFunctor} {rest : List IoFunctor} (hio : s.io i = f :: rest)
    (hf : f.conn ≠ c) :
    { s with io := Function.update s.io i rest }.tally c x = s.tally c x := by
  have hcount : ∀ g : IoFunctor, g.conn = c →
      (Function.update s.io i rest x.ioLoop).count g = (s.io x.ioLoop).count g := by
    rintro g rfl
    rw [Function.update_apply]
    split
    · rename_i hi
      rw [hi, hio, List.count_cons_of_ne]
      exact fun h => hf (congrArg IoFunctor.conn h)
    · rfl
  have hshut : (Function.update s.io i rest x.ioLoop).countP (IoFunctor.closes c) =
      (s.io x.ioLoop).countP (IoFunctor.closes c) := by
    rw [Function.update_apply]
    split
    · rename_i hi
      rw [hi, hio, List.countP_cons_of_neg (by rw [closes_of_ne hf]; simp)]
    · rfl
  simp only [tally]
  congr 1
  · exact hcount _ rfl
  · exact hcount _ rfl

/-- Another connection stands under another name. -/
theorem tally_erase (h : d ≠ c) :
    { s with connections := s.connections.erase (connName d) }.tally c x = s.tally c x := by
  have hname : connName d ≠ connName c := fun hname => h (connName_injective hname)
  simp [tally, Std.ExtTreeMap.getElem?_erase, hname]

/-- Nor is the removal of another one. -/
theorem tally_queueInBase (h : d ≠ c) :
    (s.queueInBase (.removeConnectionInLoop d)).tally c x = s.tally c x := by
  have hcount : (s.base ++ [BaseFunctor.removeConnectionInLoop d]).count
      (.removeConnectionInLoop c) = s.base.count (.removeConnectionInLoop c) := by
    rw [List.count_append, List.count_singleton, if_neg (by simpa using h), Nat.add_zero]
  exact congrArg (fun n => { s.tally c x with removing := n }) hcount

/-- Closing another connection leaves the tally as it is. -/
theorem tally_handleClose (h : d ≠ c) (y : ServerConn) :
    (s.handleClose d y).tally c x = s.tally c x := by
  have hnote := tally_note (s := s.setState d y .kDisConnected) (x := x)
    (Event.hop?_ne (e := .closeCallback d) h)
  rw [handleClose]
  split
  · rfl
  · rfl
  · rw [tally_queueInBase h, hnote, tally_setState]
  · rw [tally_queueInBase h, hnote, tally_setState]

/-- So does closing it by force. -/
theorem tally_forceClose (h : d ≠ c) (y : ServerConn) (inThread : Bool) :
    (s.forceClose d y inThread).tally c x = s.tally c x := by
  rw [forceClose]
  split
  · dsimp only
    split
    · rw [forceCloseInLoop]
      split
      · rw [tally_handleClose h, tally_setState]
      · rw [tally_setState]
    · rw [tally_queueInIo (by exact h), tally_setState]
  · rfl

/-- So does shutting it down. -/
theorem tally_shutdown (h : d ≠ c) (y : ServerConn) (inThread writing : Bool) :
    (s.shutdown d y inThread writing).tally c x = s.tally c x := by
  rw [shutdown]
  split
  · dsimp only
    split
    · rw [shutdownInLoop]
      split
      · rw [tally_setState]
      · rw [tally_handleClose h, tally_setState]
    · rw [tally_queueInIo (by exact h), tally_setState]
  · rfl

/-- So does running its functors. -/
theorem tally_runIo (y : ServerConn) (writing : Bool) {f : IoFunctor} (h : f.conn ≠ c) :
    (s.runIo y writing f).tally c x = s.tally c x := by
  cases f with
  | connectEstablelished d =>
    have hnote : ∀ u : TcpServer,
        (u.note (.connectEstablelished d y.state)).tally c x = u.tally c x :=
      fun u => tally_note (Event.hop?_ne h)
    rw [runIo, connectEstablelished]
    split
    · exact hnote _
    · exact hnote (s.setState d y .kConnected)
  | connectDestroyed d =>
    rw [runIo, connectDestroyed, tally_note (Event.hop?_ne (e := .connectDestroyed d y.state) h)]
    split
    · rfl
    · rfl
  | shutdownInLoop d =>
    rw [runIo, shutdownInLoop]
    split
    · rfl
    · exact tally_handleClose h y
  | forceCloseInLoop d =>
    rw [runIo, forceCloseInLoop]
    split
    · exact tally_handleClose h y
    · rfl

/-- So does removing it. -/
theorem tally_removeConnectionInLoop (h : d ≠ c) (y : ServerConn) :
    (s.removeConnectionInLoop d y).tally c x = s.tally c x := by
  have hnote : ∀ n, ({ s with connections := s.connections.erase (connName d) }.note
      (.removeConnectionInLoop d n)).tally c x = s.tally c x := by
    intro n
    rw [tally_note (Event.hop?_ne (e := .removeConnectionInLoop d n) h), tally_erase h]
  rw [removeConnectionInLoop]
  generalize (if connName d ∈ s.connections then 1 else 0) = n
  split
  · exact hnote n
  · rw [tally_queueInIo (by exact h), hnote]

/-! ### The operations that work on the connection itself -/

/-- A functor of the connection that is taken out of the queue is counted no more. -/
theorem tally_popIo_self (rest : List IoFunctor) :
    { s with io := Function.update s.io x.ioLoop rest }.tally c x = { s.tally c x with
      establishing := rest.count (.connectEstablelished c)
      shutting := rest.countP (IoFunctor.closes c)
      destroying := rest.count (.connectDestroyed c) } := by
  simp [tally]

/-- One that is queued is counted once more. -/
theorem tally_queueInIo_self (f : IoFunctor) :
    (s.queueInIo x.ioLoop f).tally c x = { s.tally c x with
      establishing := (s.io x.ioLoop ++ [f]).count (.connectEstablelished c)
      shutting := (s.io x.ioLoop ++ [f]).countP (IoFunctor.closes c)
      destroying := (s.io x.ioLoop ++ [f]).count (.connectDestroyed c) } := by
  simp only [tally, queueInIo, Function.update_self]
  rfl

/-- Closing the connection itself queues its removal and tells the close. -/
theorem tally_handleClose_self (h : x.state = .kConnected ∨ x.state = .kDisConnecting) :
    (s.handleClose c x).tally c { x with state := .kDisConnected } = { s.tally c x with
      state := .kDisConnected
      removing := s.base.count (.removeConnectionInLoop c) + 1
      closed := hops s.trace .close c + 1 } := by
  have hclose : s.handleClose c x = ((s.setState c x .kDisConnected).note
      (.closeCallback c)).queueInBase (.removeConnectionInLoop c) := by
    rcases h with h | h
    · simp only [handleClose, h]
    · simp only [handleClose, h]
  have hcount : (s.base ++ [BaseFunctor.removeConnectionInLoop c]).count
      (.removeConnectionInLoop c) = s.base.count (.removeConnectionInLoop c) + 1 := by
    rw [List.count_append, List.count_singleton_self]
  rw [hclose]
  simp only [tally, queueInBase, note, setState, hops_concat, hcount, Event.hop?]
  rfl

/-! ### Every step moves every tally -/

/-- What an operation has done to a connection with this tally. -/
def Tracks (old : Tally) (c : Nat) (x : ServerConn) (t : TcpServer) : Prop :=
  ∃ y, t.conn c = some y ∧ y.ioLoop = x.ioLoop ∧ old.Moves (t.tally c y)

/-- A tally may stay as it is. -/
theorem Tally.Moves.rfl' (t : Tally) : t.Moves t := .stay (Nat.le_refl _)

/-- Another connection is not touched. -/
theorem tracks_of_eq (hconn : t.conn c = s.conn c) (hx : s.conn c = some x)
    (htally : t.tally c x = s.tally c x) : Tracks (s.tally c x) c x t := by
  refine ⟨x, hconn.trans hx, rfl, ?_⟩
  rw [htally]
  exact Tally.Moves.rfl' _

section Self

variable {u : TcpServer} {old : Tally} {n : Nat}

/-- A step that stores or queues nothing of the connection stays. -/
theorem tracks_stay (hx : u.conn c = some x) (hu : u.tally c x = { old with shutting := n })
    (hn : n ≤ old.shutting) : Tracks old c x u := by
  refine ⟨x, hx, rfl, ?_⟩
  rw [hu]
  exact .stay hn

/-- A close is one move of the tally, if the connection was open. -/
theorem tracks_handleClose (hx : u.conn c = some x)
    (hu : u.tally c x = { old with shutting := n }) (hn : n ≤ old.shutting) :
    Tracks old c x (u.handleClose c x) := by
  have hclose (h : x.state = .kConnected ∨ x.state = .kDisConnecting) :
      Tracks old c x (u.handleClose c x) := by
    refine ⟨{ x with state := .kDisConnected }, ?_, rfl, ?_⟩
    · rw [conn_handleClose h, Function.update_self]
    · have hstate : old.state = x.state := (congrArg Tally.state hu).symm
      have hremoving : u.base.count (.removeConnectionInLoop c) = old.removing :=
        congrArg Tally.removing hu
      have hclosed : hops u.trace .close c = old.closed := congrArg Tally.closed hu
      rw [tally_handleClose_self h, hu, hremoving, hclosed]
      exact .close (by rwa [hstate])
  cases hstate : x.state with
  | kConnecting =>
    simp only [handleClose, hstate]
    exact tracks_stay (u := { u with aborted := true }) hx hu hn
  | kConnected => exact hclose (.inl hstate)
  | kDisConnecting => exact hclose (.inr hstate)
  | kDisConnected =>
    simp only [handleClose, hstate]
    exact tracks_stay hx hu hn

/-- The connection is disconnected first, and perhaps closed at once. -/
theorem tracks_disconnect (hu : u.tally c x = { old with shutting := n })
    (hstate : x.state = .kConnected ∨ x.state = .kDisConnecting) :
    Tracks old c x (u.setState c x .kDisConnecting) ∧
      Tracks old c x ((u.setState c x .kDisConnecting).handleClose c
        { x with state := .kDisConnecting }) ∧
      Tracks old c x ((u.setState c x .kDisConnecting).queueInIo x.ioLoop (.shutdownInLoop c)) ∧
      Tracks old c x ((u.setState c x .kDisConnecting).queueInIo x.ioLoop
        (.forceCloseInLoop c)) := by
  have hold : old.state = .kConnected ∨ old.state = .kDisConnecting := by
    rwa [show old.state = x.state from (congrArg Tally.state hu).symm]
  have hset : (u.setState c x .kDisConnecting).tally c { x with state := .kDisConnecting } =
      { old with state := .kDisConnecting, shutting := n } :=
    congrArg (fun t : Tally => { t with state := .kDisConnecting }) hu
  have hestablishing : (u.io x.ioLoop).count (.connectEstablelished c) = old.establishing :=
    congrArg Tally.establishing hu
  have hdestroying : (u.io x.ioLoop).count (.connectDestroyed c) = old.destroying :=
    congrArg Tally.destroying hu
  have hqueue (f : IoFunctor) (hne : f ≠ .connectEstablelished c) (hne' : f ≠ .connectDestroyed c) :
      Tracks old c x ((u.setState c x .kDisConnecting).queueInIo x.ioLoop f) := by
    refine ⟨{ x with state := .kDisConnecting }, conn_setState _, rfl, ?_⟩
    have hqueued := tally_queueInIo_self (s := u.setState c x .kDisConnecting) (c := c)
      (x := { x with state := .kDisConnecting }) f
    rw [hset] at hqueued
    change ((u.setState c x .kDisConnecting).queueInIo x.ioLoop f).tally c
      { x with state := .kDisConnecting } = _ at hqueued
    have hio : (u.setState c x .kDisConnecting).io = u.io := rfl
    have hestablish : (u.io x.ioLoop ++ [f]).count (.connectEstablelished c) =
        old.establishing := by
      rw [List.count_append, hestablishing, List.count_singleton, if_neg (by simpa using hne)]
      rfl
    have hdestroy : (u.io x.ioLoop ++ [f]).count (.connectDestroyed c) = old.destroying := by
      rw [List.count_append, hdestroying, List.count_singleton, if_neg (by simpa using hne')]
      rfl
    rw [hqueued]
    dsimp only
    rw [hio, hestablish, hdestroy]
    exact .disconnect hold
  refine ⟨⟨_, conn_setState _, rfl, ?_⟩, ?_, hqueue _ (by simp) (by simp),
    hqueue _ (by simp) (by simp)⟩
  · rw [hset]
    exact .disconnect hold
  · refine ⟨{ x with state := .kDisConnected }, ?_, rfl, ?_⟩
    · rw [conn_handleClose (.inr rfl), Function.update_self]
    · have hclosed := tally_handleClose_self (s := u.setState c x .kDisConnecting) (c := c)
        (x := { x with state := .kDisConnecting }) (.inr rfl)
      have hremoving : u.base.count (.removeConnectionInLoop c) = old.removing :=
        congrArg Tally.removing hu
      have hcount : hops u.trace .close c = old.closed := congrArg Tally.closed hu
      rw [hset] at hclosed
      change ((u.setState c x .kDisConnecting).handleClose c
        { x with state := .kDisConnecting }).tally c { x with state := .kDisConnected } =
          { old with
            state := .kDisConnected
            shutting := n
            removing := u.base.count (.removeConnectionInLoop c) + 1
            closed := hops u.trace .close c + 1 } at hclosed
      rw [hclosed, hremoving, hcount]
      exact .close hold

/-- A forced close is a close, or is queued. -/
theorem tracks_forceClose (hx : u.conn c = some x)
    (hu : u.tally c x = { old with shutting := n }) (hn : n ≤ old.shutting) (inThread : Bool) :
    Tracks old c x (u.forceClose c x inThread) := by
  rw [forceClose]
  split
  · rename_i hstate
    obtain ⟨-, hclose, -, hqueue⟩ := tracks_disconnect hu hstate
    dsimp only
    split
    · exact hclose
    · exact hqueue
  · exact tracks_stay hx hu hn

/-- So is a shutdown. -/
theorem tracks_shutdown (hx : u.conn c = some x)
    (hu : u.tally c x = { old with shutting := n }) (hn : n ≤ old.shutting)
    (inThread writing : Bool) : Tracks old c x (u.shutdown c x inThread writing) := by
  rw [shutdown]
  split
  · rename_i hstate
    obtain ⟨hset, hclose, hqueue, -⟩ := tracks_disconnect hu (.inl hstate)
    dsimp only
    split
    · rw [shutdownInLoop]
      split
      · exact hset
      · exact hclose
    · exact hqueue
  · exact tracks_stay hx hu hn

end Self

/-- The functor at the head of the queue of a connection's loop, and the tally behind it. -/
theorem tally_pop {f : IoFunctor} {rest : List IoFunctor} (hio : s.io x.ioLoop = f :: rest) :
    { s with io := Function.update s.io x.ioLoop rest }.tally c x = { s.tally c x with
      establishing := (s.tally c x).establishing - if f = .connectEstablelished c then 1 else 0
      shutting := (s.tally c x).shutting - if f.closes c then 1 else 0
      destroying := (s.tally c x).destroying - if f = .connectDestroyed c then 1 else 0 } := by
  have hcount (g : IoFunctor) :
      rest.count g = (s.io x.ioLoop).count g - if f = g then 1 else 0 := by
    rw [hio, List.count_cons]
    by_cases hfg : f = g
    · simp [hfg]
    · simp [hfg]
  have hshut : rest.countP (IoFunctor.closes c) =
      (s.io x.ioLoop).countP (IoFunctor.closes c) - if f.closes c then 1 else 0 := by
    rw [hio, List.countP_cons, Nat.add_sub_cancel]
  rw [tally_popIo_self, hcount, hcount, hshut]
  rfl

/-- A functor of the connection moves its tally by one hop at most. -/
theorem tracks_runIo {f : IoFunctor} {rest : List IoFunctor} (hs : (s.tally f.conn x).Sound)
    (hx : s.conn f.conn = some x) (hio : s.io x.ioLoop = f :: rest) (writing : Bool) :
    Tracks (s.tally f.conn x) f.conn x
      ({ s with io := Function.update s.io x.ioLoop rest }.runIo x writing f) := by
  have hpop := tally_pop (c := f.conn) hio
  generalize hu : ({ s with io := Function.update s.io x.ioLoop rest } : TcpServer) = u at hpop ⊢
  have hux : u.conn f.conn = some x := by rw [← hu]; exact hx
  have hpositive (hop : Nat) (h : hop = (s.io x.ioLoop).count f) : 0 < hop := by
    rw [h, hio, List.count_cons_self]
    exact Nat.succ_pos _
  cases f with
  | connectEstablelished c =>
    have hqueued : 0 < (s.tally c x).establishing := hpositive _ rfl
    have hstate : x.state = .kConnecting := hs.establishing hqueued
    rw [runIo, connectEstablelished, if_neg (not_not.mpr hstate)]
    refine ⟨{ x with state := .kConnected }, conn_setState _, rfl, ?_⟩
    have htally : (((u.setState c x .kConnected).note (.connectEstablelished c x.state)).setCallback
        x.ioLoop (some c)).tally c { x with state := .kConnected } = { u.tally c x with
          state := .kConnected
          established := hops u.trace .establish c + 1 } := by
      simp only [tally, setCallback, note, setState, hops_concat, Event.hop?]
      rfl
    have hestablished : hops u.trace .establish c = hops s.trace .establish c := by rw [← hu]
    change (s.tally c x).Moves (TcpServer.tally _ c _)
    rw [htally, hestablished, show u.tally c x = { s.tally c x with
      establishing := (s.tally c x).establishing - 1 } by
        simpa [IoFunctor.conn, IoFunctor.closes] using hpop]
    exact .establish hqueued hstate
  | connectDestroyed c =>
    have hqueued : 0 < (s.tally c x).destroying := hpositive _ rfl
    have hstate : x.state = .kDisConnected := (hs.destroying hqueued).1
    have hopen : x.state ≠ .kConnected := by rw [hstate]; simp
    rw [runIo, connectDestroyed, if_neg hopen]
    refine ⟨x, hux, rfl, ?_⟩
    have htally : (u.note (.connectDestroyed c x.state)).tally c x =
        { u.tally c x with destroyed := hops u.trace .destroy c + 1 } := by
      simp only [tally, note, hops_concat, Event.hop?]
      rfl
    have hdestroyed : hops u.trace .destroy c = hops s.trace .destroy c := by rw [← hu]
    change (s.tally c x).Moves (TcpServer.tally _ c _)
    rw [htally, hdestroyed, show u.tally c x = { s.tally c x with
      destroying := (s.tally c x).destroying - 1 } by
        simpa [IoFunctor.conn, IoFunctor.closes] using hpop]
    exact .destroy hqueued
  | shutdownInLoop c =>
    have hold : u.tally c x = { s.tally c x with shutting := (s.tally c x).shutting - 1 } := by
      simpa [IoFunctor.conn, IoFunctor.closes] using hpop
    rw [runIo, shutdownInLoop]
    split
    · exact tracks_stay hux hold (Nat.sub_le _ _)
    · exact tracks_handleClose hux hold (Nat.sub_le _ _)
  | forceCloseInLoop c =>
    have hold : u.tally c x = { s.tally c x with shutting := (s.tally c x).shutting - 1 } := by
      simpa [IoFunctor.conn, IoFunctor.closes] using hpop
    rw [runIo, forceCloseInLoop]
    split
    · exact tracks_handleClose hux hold (Nat.sub_le _ _)
    · exact tracks_stay hux hold (Nat.sub_le _ _)

/-- The removal is followed by `connectDestroyed`, and comes once. -/
theorem tracks_removeConnectionInLoop {rest : List BaseFunctor} (hs : (s.tally c x).Sound)
    (hx : s.conn c = some x) (hbase : s.base = .removeConnectionInLoop c :: rest) :
    Tracks (s.tally c x) c x ({ s with base := rest }.removeConnectionInLoop c x) := by
  have hqueued : 0 < (s.tally c x).removing := by
    change 0 < s.base.count _
    rw [hbase, List.count_cons_self]
    exact Nat.succ_pos _
  have hremoving : rest.count (.removeConnectionInLoop c) = (s.tally c x).removing - 1 := by
    change _ = s.base.count _ - 1
    rw [hbase, List.count_cons_self, Nat.add_sub_cancel]
  have hlisted := hs.removing hqueued
  have hmem : connName c ∈ s.connections := by
    rw [← Std.ExtTreeMap.isSome_getElem?_iff_mem, of_decide_eq_true hlisted]
    rfl
  refine ⟨x, ?_, rfl, ?_⟩
  · simp only [removeConnectionInLoop, hmem, if_true, ne_eq, not_true_eq_false, if_false]
    exact hx
  · have herased : (s.connections.erase (connName c))[connName c]? = none :=
      Std.ExtTreeMap.getElem?_erase_self
    have hkeep (f : IoFunctor) (hf : IoFunctor.connectDestroyed c ≠ f) :
        (s.io x.ioLoop ++ [IoFunctor.connectDestroyed c]).count f = (s.io x.ioLoop).count f := by
      rw [List.count_append, List.count_singleton, if_neg (by simpa using hf), Nat.add_zero]
    have hestablish := hkeep (.connectEstablelished c) (by simp)
    have hshut : (s.io x.ioLoop ++ [IoFunctor.connectDestroyed c]).countP (IoFunctor.closes c) =
        (s.io x.ioLoop).countP (IoFunctor.closes c) := by
      rw [List.countP_append, List.countP_singleton, if_neg (by simp [IoFunctor.closes]),
        Nat.add_zero]
    have hdestroy : (s.io x.ioLoop ++ [IoFunctor.connectDestroyed c]).count
        (.connectDestroyed c) = (s.io x.ioLoop).count (.connectDestroyed c) + 1 := by
      rw [List.count_append, List.count_singleton_self]
    have htally : ({ s with base := rest }.removeConnectionInLoop c x).tally c x =
        { s.tally c x with
          removing := (s.tally c x).removing - 1
          removed := (s.tally c x).removed + 1
          destroying := (s.tally c x).destroying + 1
          listed := false } := by
      simp only [removeConnectionInLoop, hmem, if_true, ne_eq, not_true_eq_false, if_false, tally,
        queueInIo, note, Function.update_self, hestablish, hshut, hdestroy, hremoving,
        hops_concat, Event.hop?, herased]
      rfl
    rw [htally]
    exact .remove hqueued hlisted

/-- A new connection does not concern those that are there. -/
theorem tracks_newConnection (h : s.Known) (hx : s.conn c = some x) :
    Tracks (s.tally c x) c x s.newConnection := by
  have hne : c ≠ s.nextConnId := by
    rintro rfl
    rw [h.fresh _ (Nat.le_refl _)] at hx
    contradiction
  rw [newConnection]
  split
  · exact tracks_of_eq (t := { s with aborted := true }) rfl hx rfl
  · have hname : connName s.nextConnId ≠ connName c := fun hname =>
      hne (connName_injective hname).symm
    refine tracks_of_eq (Function.update_of_ne hne _ _) hx ?_
    rw [tally_note (by simp [Event.hop?]), tally_queueInIo (by exact hne.symm)]
    simp only [tally, Std.ExtTreeMap.getElem?_insert, Std.compare_eq_iff_eq, hname, if_false]

/-- Every step moves the tally of every connection in its order. -/
theorem tracks_of_step {a : Action} (h : s.Known) (hs : (s.tally c x).Sound)
    (hx : s.conn c = some x) (hstep : Steps s a t) : Tracks (s.tally c x) c x t := by
  have hold : s.tally c x = { s.tally c x with shutting := (s.tally c x).shutting } := rfl
  have hsame {y : ServerConn} (hy : s.conn c = some y) : y = x :=
    Option.some.inj (hy.symm.trans hx)
  cases hstep with
  | start =>
    rw [start]
    split
    · exact tracks_of_eq rfl hx rfl
    · refine tracks_of_eq (t := { s with
        loops := s.threadNum, listening := true, started := true }) ?_ hx ?_
      · rfl
      · rfl
  | newConnection hlistening => exact tracks_newConnection h hx
  | @stop order hstopping horder =>
    rw [stop]
    split
    · refine tracks_of_eq (t := { s with
        started := false, listening := false, stopping := order }) ?_ hx ?_
      · rfl
      · rfl
    · exact tracks_of_eq rfl hx rfl
  | @stopNext d rest y hstopping hy =>
    by_cases hdc : d = c
    · subst hdc
      obtain rfl := hsame hy
      exact tracks_forceClose (u := { s with stopping := rest }) hx hold (Nat.le_refl _) false
    · exact tracks_of_eq (conn_forceClose (u := { s with stopping := rest }) hdc y false) hx
        (tally_forceClose (s := { s with stopping := rest }) hdc y false)
  | @baseFunc d rest y hbase hy =>
    by_cases hdc : d = c
    · subst hdc
      obtain rfl := hsame hy
      exact tracks_removeConnectionInLoop hs hx hbase
    · have hrest : { s with base := rest }.tally c x = s.tally c x := by
        simp only [tally, hbase]
        rw [List.count_cons_of_ne]
        simpa using hdc
      exact tracks_of_eq
        (congrFun (conn_removeConnectionInLoop (u := { s with base := rest }) d y) c) hx
        ((tally_removeConnectionInLoop (s := { s with base := rest }) hdc y).trans hrest)
  | @ioFunc i writing f rest y hcallback hio hy =>
    obtain rfl := h.ioLoop hio hy
    by_cases hfc : f.conn = c
    · subst hfc
      obtain rfl := hsame hy
      exact tracks_runIo hs hx hio writing
    · exact tracks_of_eq (conn_runIo (u := { s with io := Function.update s.io y.ioLoop rest })
        hfc y writing) hx ((tally_runIo y writing hfc).trans (tally_popIo hio hfc))
  | connectionCallback hcallback hy =>
    exact tracks_of_eq rfl hx (tally_note (by simp [Event.hop?]))
  | @handleClose d y hy hstate hcallback =>
    by_cases hdc : d = c
    · subst hdc
      obtain rfl := hsame hy
      exact tracks_handleClose hx hold (Nat.le_refl _)
    · exact tracks_of_eq (conn_handleClose_of_ne hdc y) hx (tally_handleClose hdc y)
  | @call d call inThread writing y hy hhanded hcallback =>
    by_cases hdc : d = c
    · subst hdc
      obtain rfl := hsame hy
      cases call with
      | shutdown => exact tracks_shutdown hx hold (Nat.le_refl _) inThread writing
      | forceClose => exact tracks_forceClose hx hold (Nat.le_refl _) inThread
    · cases call with
      | shutdown =>
        exact tracks_of_eq (conn_shutdown hdc y inThread writing) hx
          (tally_shutdown hdc y inThread writing)
      | forceClose =>
        exact tracks_of_eq (conn_forceClose hdc y inThread) hx (tally_forceClose hdc y inThread)

end TcpServer

end ClearMoon.Server

import ClearMoon.Core.Log
import ClearMoon.Server.Tally

/-!
# The life cycle of the server's connections

Whatever the loops do, and in whatever order: every connection that has been accepted is
established once, closed at most once, and then removed and destroyed once.
-/

namespace ClearMoon.Server

open ClearMoon.Net
open ClearMoon.Tcp (StateE)

namespace TcpServer

variable {s t : TcpServer} {c d i : Nat} {x y : ServerConn}

/-- The server refers to connections it has accepted, each of them where its life cycle has
brought it. -/
structure Inv (s : TcpServer) : Prop where
  known : s.Known
  sound : ∀ c x, s.conn c = some x → (s.tally c x).Sound

/-- Nothing has been done to a connection that has not been accepted. -/
theorem hops_eq_zero (h : s.Known) (hc : s.conn c = none) (hop : Hop) : hops s.trace hop c = 0 := by
  rw [hops, List.count_eq_zero, List.mem_filterMap]
  rintro ⟨e, he, hhop⟩
  have hconn : e.conn = c := by
    by_contra hne
    exact Event.hop?_ne hne hop hhop
  exact h.events e he (hconn ▸ hc)

/-- A connection begins its life in the queue of its io loop. -/
theorem sound_newConnection (h : s.Known) {y : ServerConn}
    (hy : s.newConnection.conn s.nextConnId = some y) :
    (s.newConnection.tally s.nextConnId y).Sound := by
  have hnone : s.conn s.nextConnId = none := h.fresh _ (Nat.le_refl _)
  have hqueue (i : Nat) (f : IoFunctor) (hf : f.conn = s.nextConnId) : (s.io i).count f = 0 := by
    rw [List.count_eq_zero]
    exact fun hmem => (h.io i f hmem).ne_none (hf ▸ hnone)
  have hbase : s.base.count (.removeConnectionInLoop s.nextConnId) = 0 := by
    rw [List.count_eq_zero]
    exact fun hmem => h.base _ hmem hnone
  rw [newConnection] at hy ⊢
  split at hy
  · rw [hnone] at hy
    contradiction
  · rename_i hloops
    rw [if_neg hloops]
    change Function.update s.conn s.nextConnId (some { ioLoop := s.getNextLoop }) s.nextConnId =
      some y at hy
    rw [Function.update_self] at hy
    obtain rfl := Option.some.inj hy
    have hkeep (f : IoFunctor) (hne : IoFunctor.connectEstablelished s.nextConnId ≠ f)
        (hf : f.conn = s.nextConnId) :
        (s.io s.getNextLoop ++ [IoFunctor.connectEstablelished s.nextConnId]).count f = 0 := by
      rw [List.count_append, hqueue _ _ hf, List.count_singleton, if_neg (by simpa using hne)]
    have hshut : (s.io s.getNextLoop ++ [IoFunctor.connectEstablelished s.nextConnId]).countP
        (IoFunctor.closes s.nextConnId) = 0 := by
      rw [List.countP_append, List.countP_eq_zero.mpr fun f hf hcloses =>
        (h.io _ f hf).ne_none (closes_conn hcloses ▸ hnone)]
      rfl
    have hdestroy := hkeep (.connectDestroyed s.nextConnId) (by simp) rfl
    have hestablish : (s.io s.getNextLoop ++ [IoFunctor.connectEstablelished s.nextConnId]).count
        (.connectEstablelished s.nextConnId) = 1 := by
      rw [List.count_append, hqueue _ _ rfl, List.count_singleton_self]
    constructor <;>
      simp [tally, note, queueInIo, hops_concat, Event.hop?, hops_eq_zero h hnone, hestablish,
        hshut, hdestroy, hbase]

/-- Every step keeps the tallies sound. -/
theorem inv_step {a : Action} (h : s.Inv) (hstep : Steps s a t) : t.Inv := by
  refine ⟨known_step h.known hstep, fun c y hy => ?_⟩
  cases hc : s.conn c with
  | some x =>
    obtain ⟨z, hz, -, hmoves⟩ := tracks_of_step h.known (h.sound c x hc) hc hstep
    obtain rfl := Option.some.inj (hz.symm.trans hy)
    exact (h.sound c x hc).moves hmoves
  | none =>
    by_cases ha : a = .newConnection
    · subst ha
      cases hstep with
      | newConnection hlistening =>
        by_cases hne : c = s.nextConnId
        · subst hne
          exact sound_newConnection h.known hy
        · rw [newConnection] at hy
          split at hy
          · change s.conn c = some y at hy
            rw [hc] at hy
            contradiction
          · change Function.update s.conn s.nextConnId _ c = some y at hy
            rw [Function.update_of_ne hne, hc] at hy
            contradiction
    · rw [conn_none_of_step hstep hc ha] at hy
      contradiction

/-- A server without connections has nothing to count. -/
theorem inv_init (maxNum hardware_concurrency : Nat) : (init maxNum hardware_concurrency).Inv where
  known := known_init maxNum hardware_concurrency
  sound c x hx := by simp [init] at hx

/-! ### What the functors find -/

end TcpServer

/-- The functors find their connection where the life cycle has brought it, given what was done
before. -/
def FindsLive (before : List Event) : Event → Prop
  | .connectEstablelished _ state => state = .kConnecting
  | .removeConnectionInLoop _ n => n = 1
  | .connectDestroyed c state => state = .kDisConnected ∧ .closeCallback c ∈ before
  | .newConnection _ | .connectionCallback _ _ | .closeCallback _ => True

/-- A close that is counted has been told. -/
theorem mem_of_hops_close {trace : List Event} {c : Nat} (h : hops trace .close c ≠ 0) :
    .closeCallback c ∈ trace := by
  rw [hops, Ne, List.count_eq_zero, not_not, List.mem_filterMap] at h
  obtain ⟨e, he, hhop⟩ := h
  cases e with
  | closeCallback d =>
    obtain rfl : d = c := by simpa [Event.hop?] using hhop
    exact he
  | _ => simp [Event.hop?] at hhop

namespace TcpServer

variable {s t u : TcpServer} {c d i : Nat} {x y : ServerConn}

/-- No assertion has failed, and at most one event has been added to the trace. -/
def Emits (trace : List Event) (t : TcpServer) : Prop :=
  t.aborted = false ∧
    (t.trace = trace ∨ ∃ e, t.trace = trace ++ [e] ∧ FindsLive trace e)

/-- An event that finds its connection may be noted. -/
theorem emits_note {e : Event} (h : s.aborted = false) (he : FindsLive s.trace e) :
    Emits s.trace (s.note e) := ⟨h, .inr ⟨e, rfl, he⟩⟩

/-- A close tells its callback of an established connection. -/
theorem emits_handleClose (h : s.aborted = false) (hstate : x.state ≠ .kConnecting) :
    Emits s.trace (s.handleClose c x) := by
  cases hx : x.state with
  | kConnecting => contradiction
  | kConnected =>
    simp only [handleClose, hx]
    exact ⟨h, .inr ⟨.closeCallback c, rfl, trivial⟩⟩
  | kDisConnecting =>
    simp only [handleClose, hx]
    exact ⟨h, .inr ⟨.closeCallback c, rfl, trivial⟩⟩
  | kDisConnected =>
    simp only [handleClose, hx]
    exact ⟨h, .inl rfl⟩

/-- A forced close tells the same. -/
theorem emits_forceClose (h : s.aborted = false) (inThread : Bool) :
    Emits s.trace (s.forceClose c x inThread) := by
  rw [forceClose]
  split
  · dsimp only
    split
    · rw [forceCloseInLoop, if_pos (.inr rfl)]
      exact emits_handleClose (s := s.setState c x .kDisConnecting) h (by simp)
    · exact ⟨h, .inl rfl⟩
  · exact ⟨h, .inl rfl⟩

/-- So does a shutdown that comes to a close. -/
theorem emits_shutdown (h : s.aborted = false) (inThread writing : Bool) :
    Emits s.trace (s.shutdown c x inThread writing) := by
  rw [shutdown]
  split
  · dsimp only
    split
    · rw [shutdownInLoop]
      split
      · exact ⟨h, .inl rfl⟩
      · exact emits_handleClose (s := s.setState c x .kDisConnecting) h (by simp)
    · exact ⟨h, .inl rfl⟩
  · exact ⟨h, .inl rfl⟩

/-- A functor finds the connection in the state in which it was queued, or in a later one. -/
theorem emits_runIo {f : IoFunctor} {rest : List IoFunctor} (h : s.aborted = false)
    (hs : (s.tally f.conn x).Sound) (hio : s.io x.ioLoop = f :: rest) (writing : Bool) :
    Emits s.trace ({ s with io := Function.update s.io x.ioLoop rest }.runIo x writing f) := by
  have hpositive (n : Nat) (hn : n = (s.io x.ioLoop).count f) : 0 < n := by
    rw [hn, hio, List.count_cons_self]
    exact Nat.succ_pos _
  cases f with
  | connectEstablelished c =>
    have hstate : x.state = .kConnecting := hs.establishing (hpositive _ rfl)
    rw [runIo, connectEstablelished, if_neg (not_not.mpr hstate)]
    exact ⟨h, .inr ⟨.connectEstablelished c x.state, rfl, hstate⟩⟩
  | connectDestroyed c =>
    obtain ⟨hstate, hclosed⟩ := hs.destroying (hpositive _ rfl)
    have hclosed : hops s.trace .close c = 1 := hclosed
    have hopen : x.state ≠ .kConnected := by
      rw [show x.state = .kDisConnected from hstate]
      simp
    rw [runIo, connectDestroyed, if_neg hopen]
    exact ⟨h, .inr ⟨.connectDestroyed c x.state, rfl, hstate,
      mem_of_hops_close (by omega)⟩⟩
  | shutdownInLoop c =>
    have hstate : x.state ≠ .kConnecting := by
      intro hx
      have hshut := hs.shutting hx
      have hnone := List.countP_eq_zero.mp hshut (.shutdownInLoop c) (hio ▸ List.mem_cons_self)
      exact hnone (decide_eq_true rfl)
    rw [runIo, shutdownInLoop]
    split
    · exact ⟨h, .inl rfl⟩
    · exact emits_handleClose (s := { s with io := Function.update s.io x.ioLoop rest }) h hstate
  | forceCloseInLoop c =>
    rw [runIo, forceCloseInLoop]
    split
    · rename_i hstate
      refine emits_handleClose (s := { s with io := Function.update s.io x.ioLoop rest }) h ?_
      rcases hstate with hstate | hstate <;> simp [hstate]
    · exact ⟨h, .inl rfl⟩

/-- A removal finds the connection closed. -/
theorem emits_removeConnectionInLoop {rest : List BaseFunctor} (h : s.aborted = false)
    (hs : (s.tally c x).Sound) (hbase : s.base = .removeConnectionInLoop c :: rest) :
    Emits s.trace ({ s with base := rest }.removeConnectionInLoop c x) := by
  have hqueued : 0 < (s.tally c x).removing := by
    change 0 < s.base.count _
    rw [hbase, List.count_cons_self]
    exact Nat.succ_pos _
  have hmem : connName c ∈ s.connections := by
    rw [← Std.ExtTreeMap.isSome_getElem?_iff_mem, of_decide_eq_true (hs.removing hqueued)]
    rfl
  simp only [removeConnectionInLoop, hmem, if_true, ne_eq, not_true_eq_false, if_false]
  exact ⟨h, .inr ⟨.removeConnectionInLoop c 1, rfl, rfl⟩⟩

/-- Every event finds its connection alive. -/
theorem emits_of_step {a : Action} (h : s.Inv) (haborted : s.aborted = false)
    (hstep : Steps s a t) : Emits s.trace t := by
  cases hstep with
  | start =>
    rw [start]
    split <;> exact ⟨haborted, .inl rfl⟩
  | newConnection hlistening =>
    rw [newConnection, if_neg (h.known.loops hlistening)]
    exact ⟨haborted, .inr ⟨.newConnection s.nextConnId, rfl, trivial⟩⟩
  | stop hstopping horder =>
    rw [stop]
    split <;> exact ⟨haborted, .inl rfl⟩
  | @stopNext c rest x hstopping hx =>
    exact emits_forceClose (s := { s with stopping := rest }) haborted false
  | @baseFunc c rest x hbase hx =>
    exact emits_removeConnectionInLoop haborted (h.sound c x hx) hbase
  | @ioFunc i writing f rest x hcallback hio hx =>
    obtain rfl := h.known.ioLoop hio hx
    exact emits_runIo haborted (h.sound f.conn x hx) hio writing
  | @connectionCallback i c x hcallback hx =>
    exact emits_note (s := s.setCallback i none) haborted trivial
  | handleClose hx hstate hcallback => exact emits_handleClose haborted hstate
  | @call c call inThread writing x hx hhanded hcallback =>
    cases call with
    | shutdown => exact emits_shutdown haborted inThread writing
    | forceClose => exact emits_forceClose haborted inThread

/-! ### The life cycle -/

/-- The life cycle of every connection that has been accepted. -/
structure LifeCycle (s : TcpServer) : Prop where
  /-- No assertion of a connection has failed. -/
  aborted : s.aborted = false
  /-- `connectEstablelished` has run once, or is queued once. -/
  establish : ∀ c x, s.conn c = some x →
    hops s.trace .establish c + (s.io x.ioLoop).count (.connectEstablelished c) = 1
  close : ∀ c, hops s.trace .close c ≤ 1
  destroy : ∀ c, hops s.trace .destroy c ≤ 1
  /-- The connection is in `connections_` until `removeConnectionInLoop` has run. -/
  listed : ∀ c x, s.conn c = some x →
    (s.connections[connName c]? = some c ↔ hops s.trace .remove c = 0)
  remove : ∀ c, hops s.trace .remove c ≤ 1
  /-- What the functors have found. -/
  finds : AtEvery FindsLive s.trace

/-- Sound tallies and live events make a life cycle. -/
theorem lifeCycle_of_inv (h : s.Inv) (haborted : s.aborted = false)
    (hfinds : AtEvery FindsLive s.trace) : s.LifeCycle := by
  have hle (c : Nat) : hops s.trace .close c ≤ 1 ∧ hops s.trace .remove c ≤ 1 ∧
      hops s.trace .destroy c ≤ 1 := by
    cases hc : s.conn c with
    | none => simp [hops_eq_zero h.known hc]
    | some x =>
      have hclose : hops s.trace .close c = if x.state = .kDisConnected then 1 else 0 :=
        (h.sound c x hc).close
      have hremove : s.base.count (.removeConnectionInLoop c) + hops s.trace .remove c =
        hops s.trace .close c := (h.sound c x hc).remove
      have hdestroy : (s.io x.ioLoop).count (.connectDestroyed c) + hops s.trace .destroy c =
        hops s.trace .remove c := (h.sound c x hc).destroy
      split at hclose <;> omega
  exact {
    aborted := haborted
    establish := fun c x hx => (Nat.add_comm _ _).trans (h.sound c x hx).establish
    close := fun c => (hle c).1
    destroy := fun c => (hle c).2.2
    listed := fun c x hx => by
      have hlisted := (h.sound c x hx).listed
      rwa [tally, decide_eq_true_eq] at hlisted
    remove := fun c => (hle c).2.1
    finds := hfinds }

/-- What holds after every run. -/
theorem inv_of_run {maxNum hardware_concurrency : Nat} {guard : TcpServer → Action → Prop}
    {as : List Action} (hrun : Run step guard (init maxNum hardware_concurrency) as s) :
    s.Inv ∧ s.aborted = false ∧ AtEvery FindsLive s.trace := by
  refine Run.invariant (I := fun s => s.Inv ∧ s.aborted = false ∧ AtEvery FindsLive s.trace) hrun
    ⟨inv_init _ _, rfl, atEvery_nil⟩ ?_
  rintro s a t ⟨h, haborted, hfinds⟩ - hstep
  have hsteps := (steps_of_step hstep).2
  obtain ⟨haborted', htrace⟩ := emits_of_step h haborted hsteps
  refine ⟨inv_step h hsteps, haborted', ?_⟩
  rcases htrace with htrace | ⟨e, htrace, he⟩
  · rwa [htrace]
  · rw [htrace]
    exact hfinds.concat he

/-- A connection stays with its loop, and its state moves forward only. -/
theorem rank_of_run {guard : TcpServer → Action → Prop} {as : List Action} (h : s.Inv)
    (hrun : Run step guard s as t) (hx : s.conn c = some x) :
    ∃ y, t.conn c = some y ∧ y.ioLoop = x.ioLoop ∧ x.state.rank ≤ y.state.rank := by
  have hall : t.Inv ∧ ∃ y, t.conn c = some y ∧ y.ioLoop = x.ioLoop ∧
      x.state.rank ≤ y.state.rank := by
    refine Run.invariant (I := fun t => t.Inv ∧ ∃ y, t.conn c = some y ∧ y.ioLoop = x.ioLoop ∧
      x.state.rank ≤ y.state.rank) hrun ⟨h, x, hx, rfl, Nat.le_refl _⟩ ?_
    rintro s a t ⟨h, y, hy, hloop, hrank⟩ - hstep
    have hsteps := (steps_of_step hstep).2
    obtain ⟨z, hz, hloop', hmoves⟩ := tracks_of_step h.known (h.sound c y hy) hy hsteps
    exact ⟨inv_step h hsteps, z, hz, hloop'.trans hloop, hrank.trans hmoves.state.rank_le⟩
  exact hall.2

/-- In every run, for every number of connections and every order in which the loops take their
steps: the state of a connection moves forward only, `connectEstablelished` runs once and finds
`kConnecting`, `closeCallback_` runs at most once, `connectDestroyed` at most once and only after
it, and the connection is in `connections_` until `removeConnectionInLoop`, which erases it. -/
theorem lifeCycle_of_run {maxNum hardware_concurrency : Nat} {as bs : List Action}
    (hs : Run step anyStep (init maxNum hardware_concurrency) as s)
    (ht : Run step anyStep s bs t) :
    t.LifeCycle ∧ ∀ c x, s.conn c = some x →
      ∃ y, t.conn c = some y ∧ x.state.rank ≤ y.state.rank := by
  obtain ⟨hinv, -, -⟩ := inv_of_run hs
  obtain ⟨hinv', haborted, hfinds⟩ := inv_of_run (hs.append ht)
  refine ⟨lifeCycle_of_inv hinv' haborted hfinds, fun c x hx => ?_⟩
  obtain ⟨y, hy, -, hrank⟩ := rank_of_run hinv ht hx
  exact ⟨y, hy, hrank⟩

/-- A server with two io loops accepts two connections, and establishes them. -/
def accepting : List Action :=
  [.start, .newConnection, .newConnection, .ioFunc 1 false, .connectionCallback 1, .ioFunc 0 false,
    .connectionCallback 0]

/-- The peer closes the first connection, and another thread the second one. -/
def closing : List Action :=
  [.handleClose 1, .call 2 .forceClose false false, .baseFunc, .ioFunc 1 false, .baseFunc,
    .ioFunc 0 false, .ioFunc 1 false]

theorem lifeCycle_of_run_closing :
    ∃ s t, Run step anyStep (init 2 0) accepting s ∧ Run step anyStep s closing t ∧
      hops t.trace .destroy 1 = 1 ∧ hops t.trace .destroy 2 = 1 ∧
      t.LifeCycle ∧ ∀ c x, s.conn c = some x →
        ∃ y, t.conn c = some y ∧ x.state.rank ≤ y.state.rank := by
  have htrace : ((replay step anyStep (init 2 0) accepting).bind fun s =>
      (replay step anyStep s closing).map fun t =>
        (hops t.trace .destroy 1, hops t.trace .destroy 2)) = some (1, 1) := by
    decide +kernel
  obtain ⟨s, hs, htrace⟩ := Option.bind_eq_some_iff.mp htrace
  obtain ⟨t, ht, htrace⟩ := Option.map_eq_some_iff.mp htrace
  obtain ⟨hone, htwo⟩ := Prod.mk.inj htrace
  exact ⟨s, t, .of_replay hs, .of_replay ht, hone, htwo,
    lifeCycle_of_run (.of_replay hs) (.of_replay ht)⟩

end TcpServer

end ClearMoon.Server

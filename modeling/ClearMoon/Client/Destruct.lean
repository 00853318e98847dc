import ClearMoon.Client.Ownership

/-!
# Destroying connections

A connection is destroyed while it is not disconnected only where its last reference is taken from
it while it is open: by `disconnect`, whose `shutdown` leaves a connection with output open, or by
a new connection that takes the place of the old one; or by the last callback or functor that
still held a connection that one of these has given up.
-/

namespace ClearMoon.Client

open ClearMoon.Tcp

namespace TcpClient

variable {s t u : TcpClient} {c : Nat} {x y : ClientConn}

/-- What one step keeps. -/
structure Steady (s t : TcpClient) (a : Action) : Prop where
  counted : t.Counted
  established : t.Established
  closed : t.ClosedWhenDestructed ↔ s.ClosedWhenDestructed ∧ s.LetsGoClosed a

/-- A step that lets go of no connection meets the condition. -/
theorem letsGoClosed_of_none {a : Action} (h : s.lets a = none) : s.LetsGoClosed a := by
  intro c hc
  rw [h] at hc
  contradiction

/-! ### One step of each kind -/

section

variable {a : Action} (hcounted : s.Counted) (hestablished : s.Established)
include hcounted hestablished

/-- Nothing is done to the connections or their references. -/
theorem steady_quiet (hconn : t.conn = s.conn) (hrefs : ∀ c, t.refs c = s.refs c)
    (hnext : t.nextConn = s.nextConn) (haborted : t.aborted = false → s.aborted = false)
    (hdestructed : t.destructed = s.destructed) (hlets : s.lets a = none) : s.Steady t a where
  counted := hcounted.congr hconn hrefs hnext
  established ht := by
    rw [hconn]
    exact hestablished (haborted ht)
  closed := by
    rw [ClosedWhenDestructed, hdestructed]
    exact (and_iff_left (letsGoClosed_of_none hlets)).symm

/-- Work on a connection by the frame that holds it, when it lets go of none behind it. -/
theorem steady_worked (hw : s.Worked c x t y) (hx : s.conn c = some x)
    (hlets : s.lets a = none) : s.Steady (t.release c) a where
  counted := hw.counted hcounted hx
  established := established_release (hw.isEstablished hestablished hx)
  closed := by
    rw [hw.closedWhenDestructed hcounted hx]
    exact (and_iff_left (letsGoClosed_of_none hlets)).symm

/-- Work on a connection that others still hold. -/
theorem steady_onConn {f : ClientConn → TcpClient} (hstep : s.onConn c f = some t)
    (hf : ∀ x, s.conn c = some x → s.Works c x (f x)) (hlets : s.lets a = none) :
    s.Steady t a := by
  obtain ⟨x, hx, rfl⟩ := Option.map_eq_some_iff.mp hstep
  obtain ⟨y, hy⟩ := hf x hx
  exact steady_worked hcounted hestablished hy hx hlets

/-- A reference is dropped and nothing else happens to the connection. -/
theorem steady_dropped (hd : s.Dropped c t) (hlets : s.lets a = some c)
    (ha : a ≠ .disconnect) : s.Steady (t.release c) a where
  counted := hd.counted hcounted
  established := established_release (hd.isEstablished hestablished)
  closed := by
    rw [hd.closedWhenDestructed, LetsGoClosed, hlets]
    simp only [Option.mem_some_iff, forall_eq', ha, false_and, or_false]

end

/-! ### Giving up `connection_` -/

/-- A `reset` of `connection_` counts for no other connection. -/
theorem Worked.refs_reset_ne (h : s.Worked c x t y) (hconnection : s.connection = some c) {d : Nat}
    (hd : d ≠ c) : t.reset.refs d = s.refs d := by
  rw [← h.refs_ne hd, refs_eq, refs_eq t]
  simp only [reset]
  rcases h.connection with hsame | ⟨-, hnone, -⟩
  · rw [hsame, hconnection, count_toList_none, count_toList_some, if_neg (Ne.symm hd)]
  · rw [hnone]

/-- The counts hold behind the `reset` of a connection that was worked on. -/
theorem Worked.counted_reset (h : s.Worked c x t y) (hs : s.Counted) (hx : s.conn c = some x)
    (hconnection : s.connection = some c) : (t.reset.release c).Counted := by
  refine counted_release ?_ ?_ (h.fresh hs hx)
  · intro d hd
    rw [h.refs_reset_ne hconnection hd, show t.reset.conn d = s.conn d from h.conn_ne hd]
    exact hs.refs d
  · intro _
    rw [show t.reset.conn c = some y from h.conn_self]
    rfl

/-- `shutdown` closes a connection in which nothing is being written; it closes no other. -/
theorem shutdown_cases (hx : s.conn c = some x) :
    (∃ y, s.Worked c x (s.shutdown c x) y ∧ y.state = .kDisConnected ∧ x.state = .kConnected ∧
      x.writing = false) ∨
    ∃ y, s.shutdown c x = s.setConn c y ∧ s.Worked c x (s.setConn c y) y ∧
      (y.state = .kDisConnected ↔ x.state = .kDisConnected) ∧
      ¬(x.state = .kConnected ∧ x.writing = false) := by
  by_cases hstate : x.state = .kConnected
  · cases hwriting : x.writing with
    | false =>
      left
      have hset : s.Worked c x (s.setConn c { x with state := .kDisConnecting, writeShut := true })
          { x with state := .kDisConnecting, writeShut := true } :=
        .setConn (by simp) (by simp [hstate])
      obtain ⟨y, hy, hclosed⟩ := closes_handleClose hset.conn_self (by simp)
      refine ⟨y, ?_, hclosed, hstate, rfl⟩
      have hshutdown : s.shutdown c x =
          (s.setConn c { x with state := .kDisConnecting, writeShut := true }).handleClose c
            { x with state := .kDisConnecting, writeShut := true } := by
        rw [shutdown, if_pos hstate, shutdownInLoop]
        simp [hwriting, setConn]
      rw [hshutdown]
      exact hset.trans hy
    | true =>
      right
      refine ⟨{ x with state := .kDisConnecting, writeShut := true }, ?_, .setConn ?_ ?_, ?_, ?_⟩
      · rw [shutdown, if_pos hstate, shutdownInLoop]
        simp [hwriting, setConn]
      · simp
      · simp [hstate]
      · simp [hstate]
      · simp
  · right
    have hsame : s.setConn c x = s := by rw [setConn, ← hx, Function.update_eq_self]
    refine ⟨x, ?_, .setConn id id, Iff.rfl, fun h => hstate h.1⟩
    rw [shutdown, if_neg hstate, hsame]

/-- `forceClose` closes every connection that has been established. -/
theorem closes_forceClose (hx : s.conn c = some x) (hopen : x.state ≠ .kConnecting) :
    ∃ y, s.Worked c x (s.forceClose c x) y ∧ y.state = .kDisConnected := by
  rw [forceClose]
  split
  · rename_i hstate
    have hset : s.Worked c x (s.setConn c { x with state := .kDisConnecting })
        { x with state := .kDisConnecting } := by
      refine .setConn (by simp) ?_
      rcases hstate with hstate | hstate
      · simp [hstate]
      · simp [hstate]
    obtain ⟨y, hy, hclosed⟩ := closes_handleClose hset.conn_self (by simp)
    refine ⟨y, ?_, hclosed⟩
    rw [forceCloseInLoop, if_pos (.inr rfl)]
    exact hset.trans hy
  · rename_i hstate
    refine ⟨x, .refl hx, ?_⟩
    cases h : x.state with
    | kConnecting => contradiction
    | kConnected => exact absurd (.inl h) hstate
    | kDisConnecting => exact absurd (.inr h) hstate
    | kDisConnected => rfl

/-- Behind work that has left the connection in the state of `y`, `connection_` is reset. -/
theorem Worked.closedWhenDestructed_reset (h : s.Worked c x t y) :
    (t.reset.release c).ClosedWhenDestructed ↔
      s.ClosedWhenDestructed ∧ (t.reset.refs c = 0 → y.state = .kDisConnected) := by
  rw [closedWhenDestructed_release, show t.reset.conn c = some y from h.conn_self,
    ClosedWhenDestructed, show t.reset.destructed = s.destructed from h.destructed]
  simp only [Option.mem_some_iff, forall_eq', ClosedWhenDestructed]

/-- So do the states of the connections. -/
theorem Worked.isEstablished_reset (h : s.Worked c x t y) (hs : s.Established)
    (hx : s.conn c = some x) : (t.reset.release c).Established := by
  apply established_release
  have ht := h.isEstablished hs hx
  exact ht

/-- The `reset` gives back exactly one reference. -/
theorem refs_reset_setConn (hconnection : s.connection = some c) :
    (s.setConn c y).reset.refs c + 1 = s.refs c := by
  rw [refs_eq, refs_eq, hconnection, count_toList_some, if_pos rfl]
  simp only [reset, setConn, count_toList_none]
  omega

/-- What `connection_` points to is there. -/
theorem Counted.conn_of_connection (h : s.Counted) (hconnection : s.connection = some c) :
    ∃ x, s.conn c = some x := by
  apply Option.isSome_iff_exists.mp
  rw [h.refs, refs_eq, hconnection, count_toList_some, if_pos rfl]
  omega

/-- A `disconnect()` may let go of the last reference when its close is at once. -/
theorem letsGoClosed_disconnect (hconnection : s.connection = some c) (hx : s.conn c = some x) :
    s.LetsGoClosed .disconnect ↔ (s.refs c = 1 →
      x.state = .kDisConnected ∨ x.state = .kConnected ∧ x.writing = false) := by
  simp only [LetsGoClosed, lets, hconnection, hx, Option.mem_some_iff, forall_eq', true_and]

/-- `disconnect` behind the connector, when `connection_` is set. -/
theorem closedWhenDestructed_disconnect (hconnection : s.connection = some c)
    (hx : s.conn c = some x) :
    ((s.shutdown c x).reset.release c).ClosedWhenDestructed ↔
      s.ClosedWhenDestructed ∧ s.LetsGoClosed .disconnect := by
  rw [letsGoClosed_disconnect hconnection hx]
  obtain ⟨y, hw, hclosed, hstate⟩ | ⟨y, heq, hw, hclosed, hstate⟩ := shutdown_cases hx
  · refine hw.closedWhenDestructed_reset.trans (and_congr_right fun _ => ?_)
    exact iff_of_true (fun _ => hclosed) fun _ => .inr hstate
  · have hrefs := refs_reset_setConn (y := y) hconnection
    rw [heq]
    refine hw.closedWhenDestructed_reset.trans (and_congr_right fun _ => ?_)
    rw [hclosed, or_iff_left hstate,
      show (s.setConn c y).reset.refs c = 0 ↔ s.refs c = 1 by omega]

/-- The connector does not touch the connections. -/
theorem Steady.of_connector {k : Connector} {a : Action} (h : { s with connector := k }.Steady t a)
    (hlets : { s with connector := k }.lets a = s.lets a) : s.Steady t a where
  counted := h.counted
  established := h.established
  closed := by
    rw [h.closed, LetsGoClosed, hlets]
    rfl

/-- `disconnect()` keeps the invariant. -/
theorem steady_disconnect (hcounted : s.Counted) (hestablished : s.Established) :
    s.Steady s.disconnect .disconnect := by
  refine Steady.of_connector (k := s.connector.stop) ?_ rfl
  have hvcounted : { s with connector := s.connector.stop }.Counted :=
    hcounted.congr rfl (fun _ => rfl) rfl
  have hvestablished : { s with connector := s.connector.stop }.Established := hestablished
  rw [disconnect]
  generalize ({ s with connector := s.connector.stop } : TcpClient) = v
    at hvcounted hvestablished ⊢
  split
  · rename_i hconnection
    exact steady_quiet hvcounted hvestablished rfl (fun _ => rfl) rfl id rfl hconnection
  · rename_i c hconnection
    obtain ⟨x, hx⟩ := hvcounted.conn_of_connection hconnection
    rw [hx]
    obtain ⟨y, hw⟩ := works_shutdown hx
    exact ⟨hw.counted_reset hvcounted hx hconnection, hw.isEstablished_reset hvestablished hx,
      closedWhenDestructed_disconnect hconnection hx⟩

/-- The destructor keeps it. -/
theorem steady_destroy (hcounted : s.Counted) (hestablished : s.Established)
    (haborted : s.aborted = false) : s.Steady s.destroy .destroy := by
  have hend : ∀ {v : TcpClient}, s.Steady v .destroy → s.Steady
      { v with destroyed := true, aborted := v.aborted || v.connector.channel } .destroy := by
    intro v hv
    refine ⟨hv.counted.congr rfl (fun _ => rfl) rfl, fun ha => ?_, hv.closed⟩
    simp only [Bool.or_eq_false_iff] at ha
    exact hv.established ha.1
  rw [destroy]
  apply hend
  split
  · exact steady_quiet hcounted hestablished rfl (fun _ => rfl) rfl id rfl rfl
  · rename_i c hconnection
    obtain ⟨x, hx⟩ := hcounted.conn_of_connection hconnection
    have hopen : x.state ≠ .kConnecting := hestablished haborted c x hx
    rw [hx]
    have hset : s.Worked c x (s.setConn c { x with closeCallback := false })
        { x with closeCallback := false } := .setConn id id
    obtain ⟨y, hy, hclosed⟩ := closes_forceClose hset.conn_self hopen
    have hw := hset.trans hy
    refine ⟨hw.counted_reset hcounted hx hconnection, hw.isEstablished_reset hestablished hx, ?_⟩
    refine hw.closedWhenDestructed_reset.trans (and_congr_right fun _ => ?_)
    exact iff_of_true (fun _ => hclosed) (letsGoClosed_of_none rfl)

/-! ### A new connection -/

/-- The assignment trades the reference to the old connection for one to the new. -/
theorem refs_assign (d : Nat) : s.assign.refs d + s.connection.toList.count d =
    s.refs d + if d = s.nextConn then 1 else 0 := by
  rw [refs_eq, refs_eq]
  simp only [assign, setConn, count_toList_some, eq_comm (a := s.nextConn)]
  omega

/-- The new connection is fresh. -/
theorem conn_assign_self : s.assign.conn s.nextConn = some {} := Function.update_self _ _ _

/-- All others stay as they are. -/
theorem conn_assign_ne {d : Nat} (hd : d ≠ s.nextConn) : s.assign.conn d = s.conn d :=
  Function.update_of_ne hd _ _

/-- Numbers that were not given out have no connection yet. -/
theorem fresh_assign (h : s.Counted) : ∀ d, s.assign.nextConn ≤ d → s.assign.conn d = none := by
  intro d hd
  have hle : s.nextConn + 1 ≤ d := hd
  rw [conn_assign_ne (by omega)]
  exact h.fresh d (by omega)

/-- Behind the assignment the old connection has lost a reference, and the new one has one. -/
theorem isSome_assign (h : s.Counted) {d : Nat} (hd : s.connection ≠ some d) :
    (s.assign.conn d).isSome ↔ s.assign.refs d ≠ 0 := by
  have hrefs := refs_assign (s := s) d
  have hcount : s.connection.toList.count d = 0 := by
    cases hconnection : s.connection with
    | none => rfl
    | some o =>
      rw [count_toList_some, if_neg]
      rintro rfl
      exact hd hconnection
  rw [hcount, Nat.add_zero] at hrefs
  by_cases hnew : d = s.nextConn
  · rw [if_pos hnew] at hrefs
    rw [hnew, conn_assign_self, ← hnew]
    exact iff_of_true rfl (by omega)
  · rw [if_neg hnew, Nat.add_zero] at hrefs
    rw [conn_assign_ne hnew, hrefs]
    exact h.refs d

/-- The counts hold behind an assignment and the drop of the old connection. -/
theorem counted_assign (h : s.Counted) : (s.assign.drop s.connection).Counted := by
  cases hconnection : s.connection with
  | none => exact ⟨fun d => isSome_assign h (by simp [hconnection]), fresh_assign h⟩
  | some o =>
    refine counted_release (fun d hd => isSome_assign h ?_) (fun _ => ?_) (fresh_assign h)
    · simpa [hconnection] using Ne.symm hd
    · obtain ⟨x, hx⟩ := h.conn_of_connection hconnection
      rw [conn_assign_ne (h.lt_nextConn hx).ne, hx]
      rfl

/-- The assignment destroys the old connection when it held its last reference, so that this one
must have been closed. -/
theorem closedWhenDestructed_assign (h : s.Counted) :
    (s.assign.drop s.connection).ClosedWhenDestructed ↔ s.ClosedWhenDestructed ∧
      ∀ o ∈ s.connection, ∀ x ∈ s.conn o, s.refs o = 1 → x.state = .kDisConnected := by
  cases hconnection : s.connection with
  | none => simp [drop, ClosedWhenDestructed, assign, setConn]
  | some o =>
    obtain ⟨x, hx⟩ := h.conn_of_connection hconnection
    have hne := (h.lt_nextConn hx).ne
    have hrefs := refs_assign (s := s) o
    rw [hconnection, count_toList_some, if_pos rfl, if_neg hne] at hrefs
    rw [drop, closedWhenDestructed_release, conn_assign_ne hne,
      show s.assign.refs o = 0 ↔ s.refs o = 1 by omega]
    simp only [Option.mem_some_iff, forall_eq']
    rfl

/-- The drop of the old connection makes none. -/
theorem conn_drop_assign {d : Nat} (hd : d ≠ s.nextConn)
    (h : (s.assign.drop s.connection).conn d = some x) : s.conn d = some x := by
  cases hconnection : s.connection with
  | none => rwa [hconnection, drop, conn_assign_ne hd] at h
  | some o =>
    rw [hconnection, drop] at h
    rw [← conn_assign_ne hd]
    exact conn_of_conn_release h

/-- A drop gives no reference away but that of its frame. -/
theorem refs_drop (o : Option Nat) (d : Nat) : (s.drop o).refs d = s.refs d := by
  cases o with
  | none => rfl
  | some c => exact refs_release d

/-- The new connection, behind the assignment. -/
theorem new_drop_assign (h : s.Counted) :
    (s.assign.drop s.connection).refs s.nextConn ≠ 0 ∧
      (s.assign.drop s.connection).conn s.nextConn = some {} := by
  have hrefs := refs_assign (s := s) s.nextConn
  have hfresh := h.refs_fresh le_rfl
  rw [if_pos rfl, hfresh] at hrefs
  rw [refs_eq] at hfresh
  have hpos : (s.assign.drop s.connection).refs s.nextConn ≠ 0 := by
    rw [refs_drop]
    omega
  refine ⟨hpos, ?_⟩
  obtain ⟨x, hx⟩ := Option.isSome_iff_exists.mp (((counted_assign h).refs _).mpr hpos)
  have hassign : s.assign.conn s.nextConn = some x := by
    cases hconnection : s.connection with
    | none => rwa [hconnection] at hx
    | some o =>
      rw [hconnection, drop] at hx
      exact conn_of_conn_release hx
  rw [hx, ← hassign, conn_assign_self]

/-- The establishment works on the new connection alone. -/
theorem worked_connectEstablelished (hx : s.conn c = some {}) :
    s.Worked c {} ((s.push (.newConnection c)).connectEstablelished c {})
      { state := .kConnected } := by
  have hpush : s.Worked c {} (s.push (.newConnection c)) {} := .push hx (by simp [Frame.holds])
  have hset : (s.push (.newConnection c)).Worked c {}
      ((s.push (.newConnection c)).setConn c { state := .kConnected }) { state := .kConnected } :=
    .setConn (by simp) (by simp)
  exact (hpush.trans hset).trans (.invoke hset.conn_self _)

/-- `newConnection` keeps the invariant, both when it replaces a connection and when it is the
first. -/
theorem steady_newConnection {a : Action} (hcounted : s.Counted) (hestablished : s.Established)
    (haborted : s.aborted = false) (hlets : s.lets a = s.connection) (ha : a ≠ .disconnect) :
    s.Steady s.newConnection a := by
  have hguard : (∀ o ∈ s.connection, ∀ x ∈ s.conn o, s.refs o = 1 → x.state = .kDisConnected) ↔
      s.LetsGoClosed a := by
    simp only [LetsGoClosed, hlets, ha, false_and, or_false]
  have hclosed := closedWhenDestructed_assign hcounted
  have hassign := counted_assign hcounted
  have hkeep := fun d (hd : d ≠ s.nextConn) x => conn_drop_assign (x := x) hd
  obtain ⟨hnew, hself⟩ := new_drop_assign hcounted
  rw [hguard] at hclosed
  rw [newConnection]
  generalize s.assign.drop s.connection = v at hclosed hassign hkeep hnew hself ⊢
  split
  · rename_i hv
    exact ⟨hassign, fun hnot => by rw [hv] at hnot; contradiction, hclosed⟩
  · have hw := worked_connectEstablelished hself
    generalize (v.push (.newConnection s.nextConn)).connectEstablelished s.nextConn {} = w at hw ⊢
    have hrelease : w.release s.nextConn = w := by
      apply release_of_refs
      rcases hw.refs_self with hle | hstate
      · omega
      · contradiction
    rw [← hrelease]
    refine ⟨hw.counted hassign hself, established_release fun _ d x hx => ?_,
      (hw.closedWhenDestructed hassign hself).trans hclosed⟩
    by_cases hd : d = s.nextConn
    · rw [hd, hw.conn_self] at hx
      obtain rfl := Option.some.inj hx
      simp
    · rw [hw.conn_ne hd] at hx
      exact hestablished haborted d x (hkeep d hd x hx)

/-! ### Runs -/

/-- A frame that holds nothing is taken off the stack, or put on it. -/
theorem refs_stack {stack : List Frame}
    (hstack : stack.filterMap Frame.holds = s.stack.filterMap Frame.holds) (d : Nat) :
    { s with stack }.refs d = s.refs d := by
  rw [refs_eq, refs_eq, hstack]

/-- A frame that goes on works on its connection, and holds no other. -/
theorem steady_resumeConn {env : Answers} {frame : Frame} {rest : List Frame}
    {f : ClientConn → TcpClient} (hcounted : s.Counted) (hestablished : s.Established)
    (hstack : s.stack = frame :: rest) (hholds : frame.holds = none)
    (hlets : s.lets (.resume env) = none)
    (hf : ∀ x, s.conn c = some x → { s with stack := rest }.Works c x (f x)) :
    s.Steady ({ s with stack := rest }.resumeConn c f) (.resume env) := by
  have hpop : rest.filterMap Frame.holds = s.stack.filterMap Frame.holds := by
    rw [hstack, List.filterMap_cons_none hholds]
  have hrefs := refs_stack hpop
  have hvcounted : { s with stack := rest }.Counted := hcounted.congr rfl hrefs rfl
  rw [resumeConn]
  split
  · exact steady_quiet hcounted hestablished rfl hrefs rfl id rfl hlets
  · rename_i x hx
    obtain ⟨y, hw⟩ := hf x hx
    refine ⟨hw.counted hvcounted hx, established_release (hw.isEstablished hestablished hx), ?_⟩
    exact (hw.closedWhenDestructed hvcounted hx).trans
      (and_iff_left (letsGoClosed_of_none hlets)).symm

/-- A functor queued holds one more reference. -/
theorem steady_queueInLoop (hcounted : s.Counted) (hestablished : s.Established)
    (hsome : (s.conn c).isSome) :
    s.Steady { s with pendingFunc := s.pendingFunc ++ [c] } (.queueInLoop c) where
  counted := by
    refine ⟨fun d => ?_, hcounted.fresh⟩
    have hrefs : { s with pendingFunc := s.pendingFunc ++ [c] }.refs d =
        s.refs d + if c = d then 1 else 0 := by
      rw [refs_eq, refs_eq, List.count_append, List.count_singleton]
      simp only [beq_iff_eq]
      omega
    rw [hrefs]
    by_cases hd : c = d
    · rw [← hd, if_pos rfl]
      exact iff_of_true hsome (by omega)
    · rw [if_neg hd]
      exact hcounted.refs d
  established := hestablished
  closed := (and_iff_left (letsGoClosed_of_none rfl)).symm

/-- `connect()` keeps the invariant. -/
theorem steady_connect {r : ConnectResult} (hcounted : s.Counted) (hestablished : s.Established)
    (haborted : s.aborted = false) : s.Steady (s.connect r) (.connect r) := by
  cases r with
  | connected =>
    have h := steady_newConnection (s := { s with connector.state := .kConnected })
      (a := .connect .connected) (hcounted.congr rfl (fun _ => rfl) rfl) hestablished haborted rfl
      (by simp)
    exact h.of_connector rfl
  | inProgress => exact steady_quiet hcounted hestablished rfl (fun _ => rfl) rfl id rfl rfl
  | failed => exact steady_quiet hcounted hestablished rfl (fun _ => rfl) rfl id rfl rfl

/-- So does the event of the connector's channel. -/
theorem steady_connectorWrite {err : Bool} (hcounted : s.Counted) (hestablished : s.Established)
    (haborted : s.aborted = false) : s.Steady (s.connectorWrite err) (.connectorWrite err) := by
  rw [connectorWrite]
  split
  · rename_i hstate
    refine steady_quiet hcounted hestablished rfl (fun _ => rfl) rfl id rfl ?_
    cases err with
    | true => rfl
    | false => exact if_neg hstate
  · rename_i hstate
    split
    · rename_i herr
      refine steady_quiet hcounted hestablished rfl (fun _ => rfl) rfl id rfl ?_
      rw [herr]
      rfl
    · rename_i herr
      obtain rfl : err = false := by simpa using herr
      have hlets : s.lets (.connectorWrite false) = s.connection := if_pos (not_not.mp hstate)
      have h := steady_newConnection (s := { s with
        connector := { state := .kConnected, channel := false } }) (a := .connect .connected)
        (hcounted.congr rfl (fun _ => rfl) rfl) hestablished haborted rfl (by simp)
      refine ⟨h.counted, h.established, h.closed.trans (and_congr_right fun _ => ?_)⟩
      simp only [LetsGoClosed, hlets]
      simp [lets]
      rfl

/-- A frame that holds a connection is taken off the stack. -/
theorem dropped_pop {frame : Frame} {rest : List Frame} (hstack : s.stack = frame :: rest)
    (hholds : frame.holds = some c) : s.Dropped c { s with stack := rest } where
  conn := rfl
  refs d := by
    rw [refs_eq, refs_eq, hstack, List.filterMap_cons_some hholds, List.count_cons]
    simp only [beq_iff_eq, eq_comm (a := c)]
    omega
  nextConn := rfl
  destructed := rfl
  aborted := rfl

/-- A functor that has run gives its reference back. -/
theorem dropped_func {rest : List Nat} (hfunc : s.func = c :: rest) :
    s.Dropped c { s with func := rest } where
  conn := rfl
  refs d := by
    rw [refs_eq, refs_eq, hfunc, List.count_cons]
    simp only [beq_iff_eq, eq_comm (a := c)]
    omega
  nextConn := rfl
  destructed := rfl
  aborted := rfl

/-- Every step keeps the counts and the states, and destroys a closed connection only just where its
condition says so. -/
theorem steady_step {a : Action} (hcounted : s.Counted) (hestablished : s.Established)
    (hstep : s.step a = some t) : s.Steady t a := by
  unfold step at hstep
  split at hstep
  · contradiction
  rename_i haborted
  have haborted : s.aborted = false := by simpa using haborted
  cases a with
  | enter =>
    obtain ⟨-, hstep⟩ := Option.ite_none_right_eq_some.mp hstep
    obtain rfl := Option.some.inj hstep
    exact steady_quiet hcounted hestablished rfl (refs_stack rfl) rfl id rfl rfl
  | ret =>
    dsimp only at hstep
    split at hstep
    · rename_i conn rest hstack
      obtain rfl := Option.some.inj hstep
      cases conn with
      | none =>
        have hpop : rest.filterMap Frame.holds = s.stack.filterMap Frame.holds := by
          rw [hstack, List.filterMap_cons_none rfl]
        refine steady_quiet hcounted hestablished rfl (refs_stack hpop) rfl id rfl ?_
        simp only [lets, hstack]
      | some c =>
        refine steady_dropped hcounted hestablished (dropped_pop hstack rfl) ?_ (by simp)
        simp only [lets, hstack]
    · contradiction
  | resume env =>
    dsimp only at hstep
    split at hstep
    · rename_i frame rest hstack
      cases frame with
      | user conn => contradiction
      | newConnection c =>
        obtain rfl := Option.some.inj hstep
        refine steady_dropped hcounted hestablished (dropped_pop hstack rfl) ?_ (by simp)
        simp only [lets, hstack]
      | handleWrite c =>
        obtain rfl := Option.some.inj hstep
        refine steady_resumeConn hcounted hestablished hstack rfl ?_ fun x hx => ?_
        · simp only [lets, hstack]
        · exact works_handleWriteRest (s := { s with stack := rest }) hx env
      | handleWriteEnd c =>
        obtain rfl := Option.some.inj hstep
        refine steady_resumeConn hcounted hestablished hstack rfl ?_ fun x hx => ?_
        · simp only [lets, hstack]
        · exact works_handleWriteEnd (s := { s with stack := rest }) hx
    · contradiction
  | connect r =>
    obtain ⟨-, hstep⟩ := Option.ite_none_right_eq_some.mp hstep
    obtain rfl := Option.some.inj hstep
    exact steady_connect hcounted hestablished haborted
  | disconnect =>
    obtain ⟨-, hstep⟩ := Option.ite_none_right_eq_some.mp hstep
    obtain rfl := Option.some.inj hstep
    exact steady_disconnect hcounted hestablished
  | destroy =>
    obtain ⟨-, hstep⟩ := Option.ite_none_right_eq_some.mp hstep
    obtain rfl := Option.some.inj hstep
    exact steady_destroy hcounted hestablished haborted
  | call c call env =>
    obtain ⟨-, hstep⟩ := Option.ite_none_right_eq_some.mp hstep
    exact steady_onConn hcounted hestablished hstep (fun x hx => works_call hx call env) rfl
  | queueInLoop c =>
    obtain ⟨hready, hstep⟩ := Option.ite_none_right_eq_some.mp hstep
    obtain rfl := Option.some.inj hstep
    exact steady_queueInLoop hcounted hestablished hready.2
  | connectorWrite err =>
    obtain ⟨-, hstep⟩ := Option.ite_none_right_eq_some.mp hstep
    obtain rfl := Option.some.inj hstep
    exact steady_connectorWrite hcounted hestablished haborted
  | connectorError =>
    obtain ⟨-, hstep⟩ := Option.ite_none_right_eq_some.mp hstep
    obtain rfl := Option.some.inj hstep
    exact steady_quiet hcounted hestablished rfl (fun _ => rfl) rfl id rfl rfl
  | connectorTimeout =>
    obtain ⟨-, hstep⟩ := Option.ite_none_right_eq_some.mp hstep
    obtain rfl := Option.some.inj hstep
    exact steady_quiet hcounted hestablished rfl (fun _ => rfl) rfl id rfl rfl
  | handleRead c r =>
    obtain ⟨-, hstep⟩ := Option.ite_none_right_eq_some.mp hstep
    exact steady_onConn hcounted hestablished hstep (fun x hx => works_handleRead hx r) rfl
  | handleWrite c env =>
    obtain ⟨-, hstep⟩ := Option.ite_none_right_eq_some.mp hstep
    exact steady_onConn hcounted hestablished hstep (fun x hx => works_handleWrite hx env) rfl
  | handleError c =>
    obtain ⟨-, hstep⟩ := Option.ite_none_right_eq_some.mp hstep
    exact steady_onConn hcounted hestablished hstep (fun x hx => works_handleClose hx) rfl
  | onIdleTimeout c =>
    obtain ⟨-, hstep⟩ := Option.ite_none_right_eq_some.mp hstep
    exact steady_onConn hcounted hestablished hstep (fun x hx => works_forceCloseInLoop hx) rfl
  | onRetransmitTimeout c len env =>
    obtain ⟨-, hstep⟩ := Option.ite_none_right_eq_some.mp hstep
    exact steady_onConn hcounted hestablished hstep
      (fun x hx => works_onRetransmitTimeout hx len env) rfl
  | doPendingFuncs =>
    obtain ⟨hidle, hstep⟩ := Option.ite_none_right_eq_some.mp hstep
    obtain rfl := Option.some.inj hstep
    have hfunc : s.func = [] := by
      simp only [idle, Bool.and_eq_true, List.isEmpty_iff] at hidle
      exact hidle.2
    refine steady_quiet hcounted hestablished rfl (fun d => ?_) rfl id rfl rfl
    rw [refs_eq, refs_eq s, hfunc]
    simp
  | nextFunc =>
    obtain ⟨-, hstep⟩ := Option.ite_none_right_eq_some.mp hstep
    obtain rfl := Option.some.inj hstep
    exact steady_quiet hcounted hestablished rfl (refs_stack rfl) rfl id rfl rfl
  | dropFunc =>
    dsimp only at hstep
    split at hstep
    · contradiction
    · rename_i c rest hfunc
      obtain ⟨-, hstep⟩ := Option.ite_none_right_eq_some.mp hstep
      obtain rfl := Option.some.inj hstep
      refine steady_dropped hcounted hestablished (dropped_func hfunc) ?_ (by simp)
      simp only [lets, hfunc, List.head?_cons]

/-- A new client counts no reference. -/
theorem counted_init (callbacks : UserCallbacks) : (init callbacks).Counted where
  refs c := iff_of_false Bool.false_ne_true fun h => h List.count_nil
  fresh _ _ := rfl

/-- It has no connection that could be in a wrong state. -/
theorem established_init (callbacks : UserCallbacks) : (init callbacks).Established := by
  intro _ c x hx
  contradiction

/-- In every state of a run a connection is there exactly if it is referenced. -/
theorem counted_of_run {guard : TcpClient → Action → Prop} {callbacks : UserCallbacks}
    {as : List Action} (hrun : Run step guard (init callbacks) as s) :
    s.Counted ∧ s.Established :=
  hrun.invariant (I := fun s => s.Counted ∧ s.Established)
    ⟨counted_init callbacks, established_init callbacks⟩ fun _ _ _ h _ hstep =>
      ⟨(steady_step h.1 h.2 hstep).counted, (steady_step h.1 h.2 hstep).established⟩

/-- In a run every connection that is destroyed has been disconnected exactly if every step keeps
`LetsGoClosed`. That asks something only of a step that drops the last reference to a connection: a
`disconnect` must find it closed, or connected with nothing being written; a new connection that
takes its place in `connection_`, a callback that returns and a functor that ends must find it
closed. -/
theorem closedWhenDestructed_iff_of_run {callbacks : UserCallbacks} {as : List Action}
    (hrun : Run step anyStep (init callbacks) as s) :
    s.ClosedWhenDestructed ↔ Run step LetsGoClosed (init callbacks) as s := by
  constructor
  · intro h
    induction hrun with
    | nil => exact .nil
    | snoc hrun _ hstep ih =>
      obtain ⟨hcounted, hestablished⟩ := counted_of_run hrun
      obtain ⟨hbefore, hguard⟩ := (steady_step hcounted hestablished hstep).closed.mp h
      exact (ih hbefore).snoc hguard hstep
  · intro hguarded
    clear hrun
    induction hguarded with
    | nil => simp [ClosedWhenDestructed, init]
    | snoc hrun hguard hstep ih =>
      obtain ⟨hcounted, hestablished⟩ := counted_of_run hrun
      exact (steady_step hcounted hestablished hstep).closed.mpr ⟨ih, hguard⟩

/-- A connection is made, and a message of two bytes is sent, of which the kernel takes one. -/
def connectAndSend : List Action :=
  [.enter, .connect .connected, .call 1 (.send [10, 11]) { write := .done 1 }, .ret, .resume {}]

/-- The message has been written when the user disconnects. -/
def disconnectWhenWritten : List Action :=
  connectAndSend ++ [.ret, .handleWrite 1 { write := .done 9 }, .resume {}, .enter, .disconnect]

/-- A client that disconnects when its output was written destroys a closed connection. -/
theorem closedWhenDestructed_iff_of_run_whenWritten :
    ∃ s, Run step anyStep (init {}) disconnectWhenWritten s ∧
      s.destructed = [(1, .kDisConnected)] ∧
      (s.ClosedWhenDestructed ↔ Run step LetsGoClosed (init {}) disconnectWhenWritten s) := by
  have hdestructed : (replay step anyStep (init {}) disconnectWhenWritten).map (·.destructed) =
      some [(1, .kDisConnected)] := by
    decide +kernel
  obtain ⟨s, hs, hdestructed⟩ := Option.map_eq_some_iff.mp hdestructed
  exact ⟨s, .of_replay hs, hdestructed, closedWhenDestructed_iff_of_run (.of_replay hs)⟩

/-- The user disconnects while one byte is in the buffer; and the user connects twice. -/
theorem destructed_open :
    (∃ s, Run step anyStep (init {}) (connectAndSend ++ [.disconnect]) s ∧
      s.destructed = [(1, .kDisConnecting)] ∧ ¬s.ClosedWhenDestructed) ∧
    ∃ s, Run step anyStep (init {}) (connectAndSend ++ [.connect .connected]) s ∧
      s.destructed = [(1, .kConnected)] ∧ ¬s.ClosedWhenDestructed := by
  have hopen : ∀ {s : TcpClient} {state : StateE}, s.destructed = [(1, state)] →
      state ≠ .kDisConnected → ¬s.ClosedWhenDestructed := by
    intro s state hdestructed hstate h
    refine hstate (h (1, state) ?_)
    rw [hdestructed]
    exact List.mem_singleton_self _
  constructor
  · have hdestructed : (replay step anyStep (init {}) (connectAndSend ++ [.disconnect])).map
        (·.destructed) = some [(1, .kDisConnecting)] := by
      decide +kernel
    obtain ⟨s, hs, hdestructed⟩ := Option.map_eq_some_iff.mp hdestructed
    exact ⟨s, .of_replay hs, hdestructed, hopen hdestructed (by simp)⟩
  · have hdestructed : (replay step anyStep (init {})
        (connectAndSend ++ [.connect .connected])).map (·.destructed) =
          some [(1, .kConnected)] := by
      decide +kernel
    obtain ⟨s, hs, hdestructed⟩ := Option.map_eq_some_iff.mp hdestructed
    exact ⟨s, .of_replay hs, hdestructed, hopen hdestructed (by simp)⟩

end TcpClient

end ClearMoon.Client

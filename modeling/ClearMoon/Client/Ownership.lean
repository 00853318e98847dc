import ClearMoon.Client.TcpClient

/-!
# References to a connection

In every state the connections that have not been destroyed are those with a reference. A step
drops one reference for good at most; code that works on one connection takes away only the
reference of `connection_`, and only when it has closed the connection.
-/

namespace ClearMoon.Client

open ClearMoon.Tcp

namespace TcpClient

variable {s t u : TcpClient} {c : Nat} {x y : ClientConn}

/-- Every connection that is destroyed has been disconnected. -/
def ClosedWhenDestructed (s : TcpClient) : Prop := ∀ p ∈ s.destructed, p.2 = .kDisConnected

/-- The connection that a step drops a reference to, whatever else it does: the reference of
`connection_`, of a callback that returns, or of a functor that has run. -/
def lets (s : TcpClient) : Action → Option Nat
  | .ret =>
    match s.stack with
    | .user conn :: _ => conn
    | _ => none
  | .resume _ =>
    match s.stack with
    | .newConnection c :: _ => some c
    | _ => none
  | .connect .connected => s.connection
  | .connectorWrite false => if s.connector.state = .kConnecting then s.connection else none
  | .disconnect => s.connection
  | .dropFunc => s.func.head?
  | _ => none

/-- The last reference to a connection is dropped only when the connection has been closed, or by
`disconnect`, which finds it connected with nothing being written. -/
def LetsGoClosed (s : TcpClient) (a : Action) : Prop :=
  ∀ c ∈ s.lets a, ∀ x ∈ s.conn c, s.refs c = 1 →
    x.state = .kDisConnected ∨ a = .disconnect ∧ x.state = .kConnected ∧ x.writing = false

instance (s : TcpClient) (a : Action) : Decidable (s.LetsGoClosed a) :=
  inferInstanceAs (Decidable (∀ c ∈ s.lets a, ∀ x ∈ s.conn c, _ → _))

/-! ### Counting -/

/-- The references to a connection, by the four places that hold them. -/
theorem refs_eq (s : TcpClient) (c : Nat) : s.refs c = s.connection.toList.count c +
    (s.stack.filterMap Frame.holds).count c + s.pendingFunc.count c + s.func.count c := by
  simp only [refs, holders, List.count_append]

/-- Exactly the referenced connections are there. -/
structure Counted (s : TcpClient) : Prop where
  refs : ∀ c, (s.conn c).isSome ↔ s.refs c ≠ 0
  fresh : ∀ c, s.nextConn ≤ c → s.conn c = none

/-- No step leaves a connection that has not been established. -/
def Established (s : TcpClient) : Prop :=
  s.aborted = false → ∀ c x, s.conn c = some x → x.state ≠ .kConnecting

/-- A connection that is there is held somewhere. -/
theorem Counted.refs_pos (h : s.Counted) (hx : s.conn c = some x) : s.refs c ≠ 0 := by
  apply (h.refs c).mp
  rw [hx]
  rfl

/-- Nothing refers to a connection that has not been made. -/
theorem Counted.refs_fresh (h : s.Counted) (hc : s.nextConn ≤ c) : s.refs c = 0 := by
  by_contra hne
  have hsome := (h.refs c).mpr hne
  rw [h.fresh c hc] at hsome
  contradiction

/-- A step that leaves the connections and their references alone. -/
theorem Counted.congr (h : s.Counted) (hconn : t.conn = s.conn)
    (hrefs : ∀ c, t.refs c = s.refs c) (hnext : t.nextConn = s.nextConn) : t.Counted where
  refs c := by rw [hconn, hrefs]; exact h.refs c
  fresh c := by rw [hconn, hnext]; exact h.fresh c

/-- Either nothing happens, or the connection has lost its last reference and is destructed. -/
theorem release_cases (s : TcpClient) (c : Nat) :
    (s.release c = s ∧ (s.conn c = none ∨ s.refs c ≠ 0)) ∨
      ∃ x, s.release c = s.destruct c x ∧ s.conn c = some x ∧ s.refs c = 0 := by
  rw [release]
  split
  · rename_i hx
    exact .inl ⟨rfl, .inl hx⟩
  · rename_i x hx
    split
    · rename_i hrefs
      exact .inl ⟨rfl, .inr hrefs⟩
    · rename_i hrefs
      exact .inr ⟨x, rfl, hx, not_not.mp hrefs⟩

/-- A connection that is still held is not destructed. -/
theorem release_of_refs (h : s.refs c ≠ 0) : s.release c = s := by
  obtain ⟨heq, -⟩ | ⟨x, -, -, hrefs⟩ := s.release_cases c
  · exact heq
  · contradiction

/-- What is there behind a release was there before. -/
theorem conn_of_conn_release {d : Nat} (h : (s.release c).conn d = some x) :
    s.conn d = some x := by
  obtain ⟨heq, -⟩ | ⟨y, heq, -, -⟩ := s.release_cases c
  · rwa [heq] at h
  · rw [heq, destruct] at h
    have hd : d ≠ c := by
      rintro rfl
      simp at h
    rwa [← Function.update_of_ne hd none s.conn]

/-- A release destructs no other connection. -/
theorem conn_release_ne {d : Nat} (hne : d ≠ c) : (s.release c).conn d = s.conn d := by
  obtain ⟨h, -⟩ | ⟨x, h, -, -⟩ := s.release_cases c
  · rw [h]
  · rw [h]
    exact Function.update_of_ne hne _ _

@[simp] theorem refs_release (d : Nat) : (s.release c).refs d = s.refs d := by
  obtain ⟨h, -⟩ | ⟨x, h, -, -⟩ := s.release_cases c
  · rw [h]
  · rw [h]
    rfl

@[simp] theorem nextConn_release : (s.release c).nextConn = s.nextConn := by
  obtain ⟨h, -⟩ | ⟨x, h, -, -⟩ := s.release_cases c
  · rw [h]
  · rw [h]
    rfl

/-- A connection outlives the release exactly if it is held. -/
theorem isSome_release : ((s.release c).conn c).isSome ↔ (s.conn c).isSome ∧ s.refs c ≠ 0 := by
  obtain ⟨h, hkept⟩ | ⟨x, h, hx, hrefs⟩ := s.release_cases c
  · rw [h]
    rcases hkept with hnone | hrefs
    · simp [hnone]
    · simp [hrefs]
  · rw [h]
    simp [destruct, hrefs]

/-- Behind `release` the connection is there exactly if it is referenced. -/
theorem counted_release (h : ∀ d ≠ c, (s.conn d).isSome ↔ s.refs d ≠ 0)
    (hc : s.refs c ≠ 0 → (s.conn c).isSome) (hfresh : ∀ d, s.nextConn ≤ d → s.conn d = none) :
    (s.release c).Counted where
  refs d := by
    rw [refs_release]
    by_cases hd : d = c
    · rw [hd, isSome_release]
      exact ⟨fun h => h.2, fun h => ⟨hc h, h⟩⟩
    · rw [conn_release_ne hd]
      exact h d hd
  fresh d hd := by
    rw [nextConn_release] at hd
    by_cases hdc : d = c
    · obtain rfl := hdc
      have hnone := isSome_release (s := s) (c := d)
      rw [hfresh d hd] at hnone
      simpa using hnone
    · rw [conn_release_ne hdc]
      exact hfresh d hd

/-- A release establishes nothing, and leaves nothing half established. -/
theorem established_release (h : s.Established) : (s.release c).Established := by
  obtain ⟨heq, -⟩ | ⟨x, heq, -, -⟩ := s.release_cases c
  · rwa [heq]
  · rw [heq]
    intro ha d y hy
    have ha : s.aborted = false := by
      simp only [destruct, Bool.or_eq_false_iff] at ha
      exact ha.1
    rw [← heq] at hy
    exact h ha d y (conn_of_conn_release hy)

/-- What `release` adds to the connections that have been destroyed. -/
theorem closedWhenDestructed_release : (s.release c).ClosedWhenDestructed ↔
    s.ClosedWhenDestructed ∧ ∀ x ∈ s.conn c, s.refs c = 0 → x.state = .kDisConnected := by
  obtain ⟨h, hkept⟩ | ⟨x, h, hx, hrefs⟩ := s.release_cases c
  · rw [h]
    rcases hkept with hnone | hrefs
    · simp [hnone]
    · simp [hrefs]
  · rw [h]
    simp only [destruct, ClosedWhenDestructed, List.forall_mem_append, List.forall_mem_singleton,
      hx, Option.mem_some_iff, forall_eq', hrefs, forall_const]

/-! ### Work on one connection -/

/-- What code that works on a connection may do: change it, push frames that hold nothing else,
and have `connection_` reset when it has closed it. -/
structure Worked (s : TcpClient) (c : Nat) (x : ClientConn) (t : TcpClient) (y : ClientConn) :
    Prop where
  conn : t.conn = Function.update s.conn c (some y)
  stack : ∃ fs, t.stack = fs ++ s.stack ∧ ∀ d ∈ fs.filterMap Frame.holds, d = c
  connection : t.connection = s.connection ∨
    s.connection = some c ∧ t.connection = none ∧ y.state = .kDisConnected
  pendingFunc : t.pendingFunc = s.pendingFunc
  func : t.func = s.func
  nextConn : t.nextConn = s.nextConn
  destructed : t.destructed = s.destructed
  established : y.state = .kConnecting → x.state = .kConnecting
  closed : x.state = .kDisConnected → y.state = .kDisConnected
  aborted : t.aborted = false → s.aborted = false

namespace Worked

/-- Doing nothing is some work on a connection. -/
theorem refl (hx : s.conn c = some x) : s.Worked c x s x where
  conn := by rw [← hx, Function.update_eq_self]
  stack := ⟨[], rfl, by simp⟩
  connection := .inl rfl
  pendingFunc := rfl
  func := rfl
  nextConn := rfl
  destructed := rfl
  established := id
  closed := id
  aborted := id

/-- The connection worked on is there afterwards, as the work has left it. -/
theorem conn_self (h : s.Worked c x t y) : t.conn c = some y := by
  rw [h.conn, Function.update_self]

/-- Work on a connection may be done in parts. -/
theorem trans {z : ClientConn} (h : s.Worked c x t y) (h' : t.Worked c y u z) :
    s.Worked c x u z where
  conn := by rw [h'.conn, h.conn, Function.update_idem]
  stack := by
    obtain ⟨fs, hfs, hc⟩ := h.stack
    obtain ⟨gs, hgs, hc'⟩ := h'.stack
    refine ⟨gs ++ fs, by rw [hgs, hfs, List.append_assoc], ?_⟩
    rw [List.filterMap_append, List.forall_mem_append]
    exact ⟨hc', hc⟩
  connection := by
    rcases h.connection with hsame | ⟨hsome, hnone, hstate⟩
    · rw [← hsame]
      exact h'.connection
    · refine .inr ⟨hsome, ?_, h'.closed hstate⟩
      rcases h'.connection with hsame | ⟨-, hnone', -⟩
      · rw [hsame, hnone]
      · exact hnone'
  pendingFunc := h'.pendingFunc.trans h.pendingFunc
  func := h'.func.trans h.func
  nextConn := h'.nextConn.trans h.nextConn
  destructed := h'.destructed.trans h.destructed
  established := h.established ∘ h'.established
  closed := h'.closed ∘ h.closed
  aborted := h.aborted ∘ h'.aborted

/-- A member of the connection is stored; its state goes forward only. -/
theorem setConn (hestablished : y.state = .kConnecting → x.state = .kConnecting)
    (hclosed : x.state = .kDisConnected → y.state = .kDisConnected) :
    s.Worked c x (s.setConn c y) y where
  conn := rfl
  stack := ⟨[], rfl, by simp⟩
  connection := .inl rfl
  pendingFunc := rfl
  func := rfl
  nextConn := rfl
  destructed := rfl
  established := hestablished
  closed := hclosed
  aborted := id

/-- A callback begins, and holds the connection it is called for. -/
theorem push {frame : Frame} (hx : s.conn c = some x) (hframe : ∀ d ∈ frame.holds, d = c) :
    s.Worked c x (s.push frame) x :=
  { refl hx with
    stack := ⟨[frame], rfl, by
      cases hholds : frame.holds with
      | none => simp [hholds]
      | some d => simpa [hholds] using hframe d hholds⟩ }

/-- A callback is called if it is installed. -/
theorem invoke (hx : s.conn c = some x) (installed : Bool) :
    s.Worked c x (s.invoke installed c) x := by
  rw [TcpClient.invoke]
  split
  · exact push hx (by simp [Frame.holds])
  · exact refl hx

/-- An assertion fails in the middle of the work. -/
theorem abort (hx : s.conn c = some x) : s.Worked c x s.abort x :=
  { refl hx with aborted := by simp [TcpClient.abort] }

end Worked

/-- Code that works on a connection. -/
def Works (s : TcpClient) (c : Nat) (x : ClientConn) (t : TcpClient) : Prop :=
  ∃ y, s.Worked c x t y

theorem conn_setConn : (s.setConn c x).conn c = some x := Function.update_self _ _ _

/-- What follows some work on the connection may be any work on it. -/
theorem Worked.then (h : s.Worked c x t y) (h' : t.Works c y u) : s.Works c x u := by
  obtain ⟨z, hz⟩ := h'
  exact ⟨z, h.trans hz⟩

/-- The state of the connection is not touched. -/
theorem works_setConn (h : (s.setConn c y).Works c y t) (hstate : y.state = x.state) :
    s.Works c x t := by
  refine Worked.then (.setConn ?_ ?_) h
  · rw [hstate]
    exact id
  · rw [hstate]
    exact id

/-- The close callback of the client gives `connection_` up when the connection has been closed. -/
theorem worked_removeConnection (hx : s.conn c = some x) (hstate : x.state = .kDisConnected) :
    s.Worked c x (s.removeConnection c x) x := by
  rw [removeConnection]
  split
  · exact .abort hx
  · split
    · rename_i hconnection
      have hstay : s.reset.connectDestroyed c x = s.reset := by
        rw [connectDestroyed, hstate]
        rfl
      rw [hstay]
      exact { Worked.refl hx with connection := .inr ⟨hconnection, rfl, hstate⟩ }
    · exact .refl hx

/-- A connection that has been established is disconnected behind `handleClose`. -/
theorem closes_handleClose (hx : s.conn c = some x) (hopen : x.state ≠ .kConnecting) :
    ∃ y, s.Worked c x (s.handleClose c x) y ∧ y.state = .kDisConnected := by
  have hclose : ∀ y : ClientConn, y.state = .kDisConnected → s.Worked c x
      (if y.closeCallback then (s.setConn c y).removeConnection c y else s.setConn c y) y := by
    intro y hstate
    have hset : s.Worked c x (s.setConn c y) y := .setConn (by simp [hstate]) fun _ => hstate
    split
    · exact hset.trans (worked_removeConnection conn_setConn hstate)
    · exact hset
  unfold handleClose
  split
  · rename_i hstate
    exact ⟨x, .refl hx, hstate⟩
  · contradiction
  · exact ⟨_, hclose _ rfl, rfl⟩
  · exact ⟨_, hclose _ rfl, rfl⟩

/-- `handleClose` works on its own connection only. -/
theorem works_handleClose (hx : s.conn c = some x) : s.Works c x (s.handleClose c x) := by
  by_cases hopen : x.state = .kConnecting
  · rw [handleClose, hopen]
    exact ⟨x, .abort hx⟩
  · obtain ⟨y, hy, -⟩ := closes_handleClose hx hopen
    exact ⟨y, hy⟩

theorem works_forceCloseInLoop (hx : s.conn c = some x) :
    s.Works c x (s.forceCloseInLoop c x) := by
  rw [forceCloseInLoop]
  split
  · exact works_handleClose hx
  · exact ⟨x, .refl hx⟩

/-- `shutdownInLoop` shuts the write side, and closes the connection if nothing is being written. -/
theorem works_shutdownInLoop : s.Works c x (s.shutdownInLoop c x) := by
  rw [shutdownInLoop]
  refine works_setConn (y := { x with writeShut := true }) ?_ rfl
  split
  · exact ⟨_, .refl conn_setConn⟩
  · exact works_handleClose conn_setConn

theorem works_shutdown (hx : s.conn c = some x) : s.Works c x (s.shutdown c x) := by
  rw [shutdown]
  split
  · rename_i hstate
    refine Worked.then (.setConn (y := { x with state := .kDisConnecting }) ?_ ?_)
      works_shutdownInLoop
    · simp
    · simp [hstate]
  · exact ⟨x, .refl hx⟩

theorem works_forceClose (hx : s.conn c = some x) : s.Works c x (s.forceClose c x) := by
  rw [forceClose]
  split
  · rename_i hstate
    refine Worked.then (.setConn (y := { x with state := .kDisConnecting }) ?_ ?_)
      (works_forceCloseInLoop conn_setConn)
    · simp
    · rcases hstate with hstate | hstate
      · simp [hstate]
      · simp [hstate]
  · exact ⟨x, .refl hx⟩

/-! ### Sending -/

/-- What is left of a message goes to the buffer, and may be followed by a shutdown. -/
theorem works_sendRest (rest : Nat) : s.Works c x (s.sendRest c x rest) := by
  rw [sendRest]
  generalize hy : (if rest = 0 then x
    else { x with buffered := x.buffered + rest, writing := true }) = y
  refine works_setConn (y := y) ?_ ?_
  · split
    · exact works_shutdownInLoop
    · exact ⟨y, .refl conn_setConn⟩
  · rw [← hy]
    split
    · rfl
    · rfl

/-- Whatever `::write` answers, a message concerns the connection it is sent on. -/
theorem works_sendInLoop (hx : s.conn c = some x) (len : Nat) (env : Answers) :
    s.Works c x (s.sendInLoop c x len env) := by
  rw [sendInLoop]
  split
  · exact ⟨x, .refl hx⟩
  · split
    · split
      · split
        · exact ⟨x, .invoke hx _⟩
        · exact works_sendRest _
      · exact works_sendRest len
      · exact works_sendRest len
    · exact works_sendRest len

/-- So does a file, whether it can be opened or not. -/
theorem works_sendFileInLoop (hx : s.conn c = some x) (env : Answers) :
    s.Works c x (s.sendFileInLoop c x env) := by
  rw [sendFileInLoop]
  split
  · exact ⟨x, .refl hx⟩
  · split
    · exact works_forceCloseInLoop hx
    · exact works_setConn ⟨_, .refl conn_setConn⟩ rfl

theorem works_send (hx : s.conn c = some x) (len : Nat) (env : Answers) :
    s.Works c x (s.send c x len env) := by
  rw [send]
  split
  · exact ⟨x, .refl hx⟩
  · exact works_sendInLoop hx len env

/-- No call of the user reaches another connection than the one it is made on. -/
theorem works_call (hx : s.conn c = some x) (call : ConnCall) (env : Answers) :
    s.Works c x (s.call c x env call) := by
  cases call with
  | send data => exact works_send hx _ env
  | sendFile filePath =>
    rw [TcpClient.call, sendFile]
    split
    · exact ⟨x, .refl hx⟩
    · exact works_sendFileInLoop hx env
  | shutdown => exact works_shutdown hx
  | forceClose => exact works_forceClose hx
  | sendWithRetransmit data seq => exact works_send hx _ env
  | ackReceived seq => exact ⟨x, .refl hx⟩

/-! ### Events -/

/-- A read delivers to its own connection, or closes it. -/
theorem works_handleRead (hx : s.conn c = some x) (r : ReadResult) :
    s.Works c x (s.handleRead c x r) := by
  unfold handleRead
  split
  · exact works_handleClose hx
  · exact ⟨x, .invoke hx _⟩
  · exact ⟨x, .refl hx⟩
  · exact works_handleClose hx

/-- A write drains the buffer of its own connection, or closes it. -/
theorem works_handleWriteBuffer (hx : s.conn c = some x) (env : Answers) :
    s.Works c x (s.handleWriteBuffer c x env) := by
  have hwritten : ∀ z : ClientConn, z.state = x.state → s.Works c x
      (((s.setConn c z).push (.handleWriteEnd c)).invoke s.callbacks.writeComplete c) := by
    intro z hstate
    have hpush : (s.setConn c z).Worked c z ((s.setConn c z).push (.handleWriteEnd c)) z :=
      .push conn_setConn (by simp [Frame.holds])
    exact works_setConn (hpush.then ⟨z, .invoke hpush.conn_self _⟩) hstate
  rw [handleWriteBuffer]
  split
  · split
    · exact hwritten _ rfl
    · exact ⟨x, .refl hx⟩
    · exact works_handleClose hx
    · exact works_handleClose hx
  · exact ⟨x, .refl hx⟩

/-- Behind the write complete callback the shutdown that was put off is made up for. -/
theorem works_handleWriteEnd (hx : s.conn c = some x) : s.Works c x (s.handleWriteEnd c x) := by
  rw [handleWriteEnd]
  split
  · exact works_shutdownInLoop
  · exact ⟨x, .refl hx⟩

/-- The transfer goes on, or ends with the callback. -/
theorem works_sendfile (hx : s.conn c = some x) (left n : Nat) :
    s.Works c x (s.sendfile c x left n) := by
  rw [sendfile]
  split
  · exact ⟨x, .refl hx⟩
  · split
    · exact works_setConn ⟨_, .invoke conn_setConn _⟩ rfl
    · exact works_setConn ⟨_, .refl conn_setConn⟩ rfl

/-- A file that fails closes its connection. -/
theorem works_handleWriteFile (hx : s.conn c = some x) (env : Answers) :
    s.Works c x (s.handleWriteFile c x env) := by
  rw [handleWriteFile]
  split
  · split
    · exact works_sendfile hx _ _
    · exact ⟨x, .refl hx⟩
    · exact works_setConn (works_handleClose conn_setConn) rfl
  · exact works_handleWriteBuffer hx env

/-- The first block of `handleWrite` tests and writes the connection's own buffer. -/
theorem works_handleWrite (hx : s.conn c = some x) (env : Answers) :
    s.Works c x (s.handleWrite c x env) := by
  rw [handleWrite]
  split
  · exact ⟨x, .refl hx⟩
  · split
    · have hpush : s.Worked c x (s.push (.handleWrite c)) x := .push hx (by simp [Frame.holds])
      refine hpush.then ?_
      dsimp only
      split
      · exact works_setConn ⟨_, .invoke conn_setConn _⟩ rfl
      · exact ⟨x, .refl hx⟩
      · exact works_handleClose hx
      · exact works_handleClose hx
    · exact works_handleWriteFile hx env

/-- What follows the callback inside `handleWrite` concerns the same connection. -/
theorem works_handleWriteRest (hx : s.conn c = some x) (env : Answers) :
    s.Works c x (s.handleWriteRest c x env) := by
  rw [handleWriteRest]
  split
  · exact ⟨x, .refl hx⟩
  · exact works_handleWriteFile hx env

/-- A timeout sends again on its own connection, or gives it up. -/
theorem works_onRetransmitTimeout (hx : s.conn c = some x) (len : Option Nat) (env : Answers) :
    s.Works c x (s.onRetransmitTimeout c x env len) := by
  cases len with
  | none => exact works_forceCloseInLoop hx
  | some len => exact works_sendInLoop hx len env

/-! ### Steps -/

theorem count_toList_none (c : Nat) : (none : Option Nat).toList.count c = 0 := rfl

/-- An optional reference counts once, for the connection it is to. -/
theorem count_toList_some (c d : Nat) :
    (some d : Option Nat).toList.count c = if d = c then 1 else 0 := by
  simp [List.count_singleton]

/-- Work keeps the references to the other connections. -/
theorem Worked.refs_ne (h : s.Worked c x t y) {d : Nat} (hd : d ≠ c) : t.refs d = s.refs d := by
  obtain ⟨fs, hfs, hc⟩ := h.stack
  have hnew : (fs.filterMap Frame.holds).count d = 0 := by
    rw [List.count_eq_zero]
    exact fun hmem => hd (hc d hmem)
  have hconnection : t.connection.toList.count d = s.connection.toList.count d := by
    rcases h.connection with hsame | ⟨hsome, hnone, -⟩
    · rw [hsame]
    · rw [hsome, hnone, count_toList_none, count_toList_some, if_neg (Ne.symm hd)]
  rw [refs_eq, refs_eq, hfs, h.pendingFunc, h.func, List.filterMap_append, List.count_append,
    hnew, hconnection, Nat.zero_add]

/-- Work takes away the reference of `connection_` alone, from a connection it has closed. -/
theorem Worked.refs_self (h : s.Worked c x t y) :
    s.refs c ≤ t.refs c ∨ y.state = .kDisConnected := by
  obtain ⟨fs, hfs, hc⟩ := h.stack
  rcases h.connection with hsame | ⟨-, -, hstate⟩
  · left
    rw [refs_eq, refs_eq, hfs, h.pendingFunc, h.func, hsame, List.filterMap_append,
      List.count_append]
    omega
  · exact .inr hstate

/-- The connections that are there have been given numbers before. -/
theorem Counted.lt_nextConn (h : s.Counted) (hx : s.conn c = some x) : c < s.nextConn := by
  by_contra hle
  have hnone := h.fresh c (not_lt.mp hle)
  rw [hnone] at hx
  contradiction

/-- Work on a connection leaves the others as they are. -/
theorem Worked.conn_ne (h : s.Worked c x t y) {d : Nat} (hd : d ≠ c) : t.conn d = s.conn d := by
  rw [h.conn, Function.update_of_ne hd]

/-- It makes no connection. -/
theorem Worked.fresh (h : s.Worked c x t y) (hs : s.Counted) (hx : s.conn c = some x) :
    ∀ d, t.nextConn ≤ d → t.conn d = none := by
  intro d hd
  rw [h.nextConn] at hd
  have hdc : d ≠ c := by
    have hlt := hs.lt_nextConn hx
    omega
  rw [h.conn_ne hdc]
  exact hs.fresh d hd

/-- Behind it the connection is released, and the books are right again. -/
theorem Worked.counted (h : s.Worked c x t y) (hs : s.Counted) (hx : s.conn c = some x) :
    (t.release c).Counted := by
  refine counted_release ?_ ?_ (h.fresh hs hx)
  · intro d hd
    rw [h.refs_ne hd, h.conn_ne hd]
    exact hs.refs d
  · intro _
    rw [h.conn_self]
    rfl

/-- It leaves no connection half established. -/
theorem Worked.isEstablished (h : s.Worked c x t y) (hs : s.Established)
    (hx : s.conn c = some x) : t.Established := by
  intro ht d z hz
  have hopen := hs (h.aborted ht)
  by_cases hd : d = c
  · obtain rfl := hd
    obtain rfl := Option.some.inj (h.conn_self.symm.trans hz)
    exact fun hstate => hopen d x hx (h.established hstate)
  · rw [h.conn_ne hd] at hz
    exact hopen d z hz

/-- Work destroys no connection that it has not closed. -/
theorem Worked.closedWhenDestructed (h : s.Worked c x t y) (hs : s.Counted)
    (hx : s.conn c = some x) :
    (t.release c).ClosedWhenDestructed ↔ s.ClosedWhenDestructed := by
  rw [closedWhenDestructed_release, ClosedWhenDestructed, h.destructed, h.conn_self]
  refine and_iff_left_of_imp fun _ z hz hrefs => ?_
  obtain rfl := Option.some.inj hz
  rcases h.refs_self with hle | hstate
  · exact absurd (Nat.le_zero.mp (hrefs ▸ hle)) (hs.refs_pos hx)
  · exact hstate

/-- A reference has been dropped, and nothing else has been done. -/
structure Dropped (s : TcpClient) (c : Nat) (t : TcpClient) : Prop where
  conn : t.conn = s.conn
  refs : ∀ d, t.refs d + (if d = c then 1 else 0) = s.refs d
  nextConn : t.nextConn = s.nextConn
  destructed : t.destructed = s.destructed
  aborted : t.aborted = s.aborted

/-- A reference that is given up may be the last one; then the connection is destructed. -/
theorem Dropped.counted (h : s.Dropped c t) (hs : s.Counted) : (t.release c).Counted := by
  refine counted_release ?_ ?_ ?_
  · intro d hd
    have hrefs := h.refs d
    rw [if_neg hd, Nat.add_zero] at hrefs
    rw [h.conn, hrefs]
    exact hs.refs d
  · intro hne
    have hrefs := h.refs c
    rw [h.conn, hs.refs]
    omega
  · rw [h.conn, h.nextConn]
    exact hs.fresh

/-- Giving up a reference changes no state. -/
theorem Dropped.isEstablished (h : s.Dropped c t) (hs : s.Established) : t.Established := by
  intro ht
  rw [h.conn]
  exact hs (h.aborted ▸ ht)

/-- Nothing is destructed open exactly if the reference given up is not the last one to an open
connection. -/
theorem Dropped.closedWhenDestructed (h : s.Dropped c t) :
    (t.release c).ClosedWhenDestructed ↔
      s.ClosedWhenDestructed ∧ ∀ x ∈ s.conn c, s.refs c = 1 → x.state = .kDisConnected := by
  have hrefs := h.refs c
  rw [if_pos rfl] at hrefs
  rw [closedWhenDestructed_release, ClosedWhenDestructed, h.destructed, h.conn,
    show t.refs c = 0 ↔ s.refs c = 1 by omega]
  rfl

end TcpClient

end ClearMoon.Client

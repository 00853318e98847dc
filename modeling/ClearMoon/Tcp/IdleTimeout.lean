import ClearMoon.Timer.Expiry
import ClearMoon.Tcp.Output
import ClearMoon.Tcp.Rooted

/-!
# The idle timeout

A connection restarts its idle timer when it is established, when it has read something, and in
`handleWrite`. A `Timed` connection keeps the times of these. While the connection is open and the
loop thread is in no callback, one idle timer is armed, for the end of the timeout since the last
restart; and no connection is closed for idleness before that.
-/

namespace ClearMoon.Tcp

open ClearMoon.Net ClearMoon.Timer

/-- Something was read. -/
def ReadResult.delivers : ReadResult → Bool
  | done (_ :: _) => true
  | _ => false

/-! ## The idle timer of an open connection -/

/-- What the idle timer depends on. -/
structure Dial where
  timers : TimerLoop Task
  idleTimerId : Option TimerId
  pendingRetrans : Std.ExtTreeMap Nat RetransmitNode
  /-- The connection is established, and neither closed nor aborted. -/
  isOpen : Bool

namespace Dial

/-- The idle timer that was started last is the only one that has not been started, unless it has
`lapsed`: then there may be none. -/
structure Wound (x : Dial) (reset : Option Int) (lapsed : Bool) : Prop where
  tidy : x.timers.Tidy (· ≠ .user)
  punctual : x.timers.Punctual
  /-- The ids that the entries keep are not the idle timer's. -/
  entries : ∀ (seq : Nat) (node : RetransmitNode) id, x.pendingRetrans[seq]? = some node →
    node.entry.timerId = some id → ∃ k, x.timers.queue.Issued id (.onRetransmitTimeout k)
  own : ∀ id, x.timers.Armed id .onIdleTimeout → x.idleTimerId = some id
  expires : x.timers.Expires .onIdleTimeout fun e => ∃ r ∈ reset, e = r + kTimeoutMicros
  standing : lapsed = false → x.isOpen = true →
    ∃ id, x.idleTimerId = some id ∧ x.timers.Standing id .onIdleTimeout

variable {x : Dial} {reset : Option Int} {lapsed : Bool}

/-- Of a connection that is not open nothing is expected. -/
theorem Wound.closed (h : x.Wound reset lapsed) (hopen : x.isOpen = false) (lapsed' : Bool) :
    x.Wound reset lapsed' where
  tidy := h.tidy
  punctual := h.punctual
  entries := h.entries
  own := h.own
  expires := h.expires
  standing _ ho := by
    rw [hopen] at ho
    contradiction

/-- One may ask for less than that the idle timer is there. -/
theorem Wound.weaken (h : x.Wound reset lapsed) {lapsed' : Bool}
    (hlapsed : lapsed' = false → lapsed = false) : x.Wound reset lapsed' :=
  ⟨h.tidy, h.punctual, h.entries, h.own, h.expires, fun hl => h.standing (hlapsed hl)⟩

/-- When it has been started, there may be none. -/
theorem Wound.lapse (h : x.Wound reset lapsed) : x.Wound reset true :=
  ⟨h.tidy, h.punctual, h.entries, h.own, h.expires, nofun⟩

/-- The timers change, but for the idle timer, and so do the entries. -/
theorem Wound.retime (h : x.Wound reset lapsed) {timers : TimerLoop Task} {lapsed' : Bool}
    {pendingRetrans : Std.ExtTreeMap Nat RetransmitNode}
    (htidy : timers.Tidy (· ≠ .user)) (hpunctual : timers.Punctual)
    (hspares : x.timers.queue.Spares (· ≠ .user) timers.queue)
    (hentries : ∀ (seq : Nat) (node : RetransmitNode) id, pendingRetrans[seq]? = some node →
      node.entry.timerId = some id → ∃ k, timers.queue.Issued id (.onRetransmitTimeout k))
    (harmed : ∀ id, timers.Armed id .onIdleTimeout → x.timers.Armed id .onIdleTimeout)
    (hsub : ∀ id, timers.Standing id .onIdleTimeout → x.timers.Standing id .onIdleTimeout)
    (hlapsed : lapsed' = false → lapsed = false ∧
      ∀ id, x.timers.Standing id .onIdleTimeout → timers.Standing id .onIdleTimeout) :
    Wound { x with timers, pendingRetrans } reset lapsed' where
  tidy := htidy
  punctual := hpunctual
  entries := hentries
  own id hid := h.own id (harmed id hid)
  expires := h.expires.spares (by simp) hspares hsub
  standing hl ho := by
    obtain ⟨hl, hkept⟩ := hlapsed hl
    obtain ⟨id, hid, hstanding⟩ := h.standing hl ho
    exact ⟨id, hid, hkept id hstanding⟩

/-- The timers of some entries are cancelled. -/
theorem Wound.cancelled (h : x.Wound reset lapsed) {ids : TimerId → Prop}
    {timers : TimerLoop Task} {pendingRetrans : Std.ExtTreeMap Nat RetransmitNode}
    (hc : x.timers.Cancelled (· ≠ .user) ids timers) (hclock : timers.clock = x.timers.clock)
    (hspares : x.timers.queue.Spares (· ≠ .user) timers.queue)
    (hids : ∀ id, ids id → ∃ (seq : Nat) (node : RetransmitNode),
      x.pendingRetrans[seq]? = some node ∧ node.entry.timerId = some id)
    (hentries : ∀ (seq : Nat) (node : RetransmitNode), pendingRetrans[seq]? = some node →
      x.pendingRetrans[seq]? = some node) :
    Wound { x with timers, pendingRetrans } reset lapsed := by
  have hidle (id : TimerId) (hid : ids id) : ¬x.timers.Armed id .onIdleTimeout := by
    intro harmed
    obtain ⟨seq, node, hnode, hkept⟩ := hids id hid
    obtain ⟨k, hissued⟩ := h.entries seq node id hnode hkept
    have := hissued.of_armed harmed
    contradiction
  have hstanding (id : TimerId) :
      timers.Standing id .onIdleTimeout ↔ x.timers.Standing id .onIdleTimeout := by
    rw [TimerLoop.Standing, TimerLoop.Standing, hc.armed, hc.due]
    exact or_congr_left (and_iff_left_of_imp fun harmed hid => hidle id hid harmed)
  refine h.retime hc.tidy (h.punctual.congr hc.batch hclock) hspares ?_ ?_ ?_ ?_
  · intro seq node id hnode hid
    obtain ⟨k, hissued⟩ := h.entries seq node id (hentries seq node hnode) hid
    exact ⟨k, hissued.keeps hc.keeps⟩
  · exact fun id harmed => ((hc.armed id _).mp harmed).1
  · exact fun id => (hstanding id).mp
  · exact fun hl => ⟨hl, fun id => (hstanding id).mpr⟩

/-- A retransmit timer is added, for an entry. -/
theorem Wound.added (h : x.Wound reset lapsed) {id : TimerId} {k : Nat}
    {timers : TimerLoop Task} {pendingRetrans : Std.ExtTreeMap Nat RetransmitNode}
    (ha : x.timers.Added (· ≠ .user) id (.onRetransmitTimeout k) timers)
    (hclock : timers.clock = x.timers.clock)
    (hspares : x.timers.queue.Spares (· ≠ .user) timers.queue)
    (hentries : ∀ (seq : Nat) (node : RetransmitNode), pendingRetrans[seq]? = some node →
      node.entry.timerId = some id ∨ x.pendingRetrans[seq]? = some node) :
    Wound { x with timers, pendingRetrans } reset lapsed := by
  have hstanding (i : TimerId) :
      timers.Standing i .onIdleTimeout ↔ x.timers.Standing i .onIdleTimeout := by
    rw [TimerLoop.Standing, TimerLoop.Standing, ha.armed, ha.due]
    simp
  refine h.retime ha.tidy (h.punctual.congr ha.batch hclock) hspares ?_ ?_ ?_ ?_
  · intro seq node i hnode hi
    rcases hentries seq node hnode with hid | hnode
    · have he : id = i := Option.some.inj (hid.symm.trans hi)
      exact ⟨k, he ▸ ha.issued⟩
    · obtain ⟨k', hissued⟩ := h.entries seq node i hnode hi
      exact ⟨k', hissued.keeps ha.keeps⟩
  · intro i harmed
    simpa using (ha.armed i _).mp harmed
  · exact fun i => (hstanding i).mp
  · exact fun hl => ⟨hl, fun i => (hstanding i).mpr⟩

end Dial

namespace TcpLoop

variable {w w' : TcpLoop} {reset : Option Int} {lapsed : Bool}

def dial (w : TcpLoop) : Dial where
  timers := w.timers
  idleTimerId := w.conn.idleTimerId
  pendingRetrans := w.conn.pendingRetrans
  isOpen := (w.conn.state = .kConnected || w.conn.state = .kDisConnecting) && !w.aborted

abbrev Wound (w : TcpLoop) (reset : Option Int) (lapsed : Bool) : Prop :=
  w.dial.Wound reset lapsed

/-- The dial is open with its connection. -/
theorem isOpen_iff : w.dial.isOpen = true ↔ w.IsOpen := by
  simp [dial, IsOpen]

/-! ### Operations that leave the idle timer alone -/

@[simp] theorem dial_note (e : Event) : (w.note e).dial = w.dial := rfl

@[simp] theorem dial_push (frame : Frame) : (w.push frame).dial = w.dial := rfl

@[simp] theorem dial_invoke (cb : Callback) : (w.invoke cb).dial = w.dial := by
  rw [invoke]
  split <;> rfl

@[simp] theorem dial_runInLoop (inThread : Bool) (f : Functor) :
    (w.runInLoop inThread f).dial = w.dial := by
  rw [runInLoop]
  split <;> rfl

@[simp] theorem dial_disableWriting : w.disableWriting.dial = w.dial := rfl

@[simp] theorem dial_dropFile : w.dropFile.dial = w.dial := by
  obtain ⟨files, h⟩ := w.closeFile_frame
  rw [dropFile, h]
  rfl

@[simp] theorem dial_openFile (filePath : Bytes) (fd : Addr) :
    (w.openFile filePath fd).dial = w.dial := by
  rw [openFile]
  split <;> rfl

@[simp] theorem dial_appendOutput (rest : Bytes) : (w.appendOutput rest).dial = w.dial := by
  rw [appendOutput]
  split
  · rfl
  · dsimp only
    split <;> rfl

@[simp] theorem dial_sendRest (rest : Bytes) : (w.sendRest rest).dial = w.dial := by
  rw [sendRest]
  split
  · rw [dial_runInLoop, dial_appendOutput]
  · exact dial_appendOutput rest

@[simp] theorem dial_sendInLoop (data : Bytes) (env : Env) :
    (w.sendInLoop data env).dial = w.dial := by
  rw [sendInLoop]
  split
  · rfl
  · dsimp only
    split
    · split
      · split
        · rw [dial_invoke, dial_note, dial_note]
        · rw [dial_sendRest, dial_note, dial_note]
      · rw [dial_sendRest, dial_note]
      · rw [dial_sendRest, dial_note]
    · rw [dial_sendRest, dial_note]

@[simp] theorem dial_send (inThread : Bool) (data : Bytes) :
    (w.send inThread data).dial = w.dial := by
  rw [send]
  split
  · rfl
  · rw [dial_runInLoop, dial_note]

/-- A call may shut the connection down, but leaves it open for now. -/
theorem dial_call (inThread : Bool) (c : ConnCall) : (w.call inThread c).dial = w.dial := by
  cases c with
  | send data => exact dial_send inThread data
  | sendFile filePath =>
    rw [call, sendFile]
    split
    · rfl
    · rw [dial_runInLoop, dial_note]
  | shutdown =>
    rw [call, shutdown]
    split
    · rename_i hstate
      rw [dial_runInLoop, dial_note]
      simp [dial, setState, hstate]
    · rfl
  | forceClose =>
    rw [call, forceClose]
    split
    · rename_i hstate
      rw [dial_runInLoop]
      simp [dial, setState, hstate]
    · rfl
  | sendWithRetransmit data seq => exact dial_runInLoop inThread _
  | ackReceived seq => exact dial_runInLoop inThread _

/-! ### Timers are cancelled and added -/

/-- Cancelling one timer of the connection leaves the others as they are. -/
theorem spares_cancel (h : w.timers.Tidy (· ≠ .user)) (id : Option TimerId) :
    w.timers.queue.Spares (· ≠ .user) (w.cancel id).timers.queue := by
  cases id with
  | none => exact .refl _ _
  | some id => exact TimerQueue.spares_cancelInLoop h.inv.owned id

/-- So does cancelling those of all entries. -/
theorem spares_foldl_cancel (nodes : List (Nat × RetransmitNode)) (h : w.timers.Tidy (· ≠ .user)) :
    w.timers.queue.Spares (· ≠ .user)
      (nodes.foldl (fun w kv => w.cancel kv.2.entry.timerId) w).timers.queue := by
  induction nodes generalizing w with
  | nil => exact .refl _ _
  | cons kv nodes ih =>
    obtain ⟨timers, hcancel, hc⟩ := cancel_spec h kv.2.entry.timerId
    have hspares := spares_cancel h kv.2.entry.timerId
    rw [List.foldl_cons]
    rw [hcancel] at hspares ⊢
    exact hspares.trans hc.keeps (ih (w := { w with timers }) hc.tidy)

/-- So does adding one. -/
theorem spares_runAfter {timer : Addr} (ha : w.timers.AddressOk timer) (micros : Int) (cb : Task) :
    w.timers.queue.Spares (· ≠ .user) (w.runAfter micros cb timer).2.timers.queue := by
  rw [runAfter, dif_pos ha.free]
  exact TimerQueue.spares_add ha.free

theorem clock_cancel (id : Option TimerId) : (w.cancel id).timers.clock = w.timers.clock := by
  obtain ⟨queue, h⟩ := w.cancel_frame id
  rw [h]

/-- No time passes while the timers of the entries are cancelled. -/
theorem clock_foldl_cancel (nodes : List (Nat × RetransmitNode)) :
    (nodes.foldl (fun w kv => w.cancel kv.2.entry.timerId) w).timers.clock = w.timers.clock := by
  obtain ⟨queue, h⟩ := foldl_cancel_frame nodes w
  rw [h]

/-- Nor while one is added. -/
theorem clock_runAfter (micros : Int) (cb : Task) (timer : Addr) :
    (w.runAfter micros cb timer).2.timers.clock = w.timers.clock := by
  obtain ⟨queue, h⟩ := w.runAfter_frame micros cb timer
  rw [h]

/-- The timer that `runAfter` makes. -/
theorem timer?_runAfter {timer : Addr} (ha : w.timers.AddressOk timer) (micros : Int) (cb : Task) :
    (w.runAfter micros cb timer).2.timers.queue.timer? ⟨timer, w.timers.queue.heap.born⟩ =
      some (.create cb (w.timers.clock + micros) .zero w.timers.queue.heap.born) := by
  rw [TimerQueue.timer?_eq_some, runAfter, dif_pos ha.free]
  have hget := @TimerQueue.get?_add _ _ cb _ (w.timers.clock + micros) w.timers.clock .zero ha.free
    timer
  rw [if_pos rfl] at hget
  exact ⟨hget, rfl⟩

/-- Without the id nothing is expected any more. -/
theorem Wound.cancelIdleTimer (h : w.Wound reset lapsed) : w.cancelIdleTimer.Wound reset true := by
  obtain ⟨timers, hcancel, hc⟩ := cancel_spec h.tidy w.conn.idleTimerId
  have hspares := spares_cancel h.tidy w.conn.idleTimerId
  have hclock := w.clock_cancel w.conn.idleTimerId
  rw [TcpLoop.cancelIdleTimer]
  rw [hcancel] at hspares hclock ⊢
  refine ⟨hc.tidy, h.punctual.congr hc.batch hclock, ?_, ?_, ?_, fun hl => ?_⟩
  · intro seq node id hnode hid
    obtain ⟨k, hissued⟩ := h.entries seq node id hnode hid
    exact ⟨k, hissued.keeps hc.keeps⟩
  · intro id harmed
    obtain ⟨harmed, hother⟩ := (hc.armed id _).mp harmed
    exact absurd (h.own id harmed) hother
  · refine h.expires.spares (by simp) hspares fun id hstanding => ?_
    exact hstanding.imp (fun harmed => ((hc.armed id _).mp harmed).1) (hc.due id _).mp
  · contradiction

/-- The idle timer is started anew; outside of a batch the old one is gone. -/
theorem Wound.resetIdleTimer (h : w.Wound reset lapsed) (hbatch : w.timers.batch = none) {env : Env}
    (ha : w.timers.AddressOk env.timer) (lapsed' : Bool) :
    (w.resetIdleTimer env).Wound (some w.timers.clock) lapsed' := by
  obtain ⟨timers, hcancel, hc⟩ := cancel_spec h.tidy w.conn.idleTimerId
  have hidle := h.cancelIdleTimer
  have hclock := w.clock_cancel w.conn.idleTimerId
  have hnone : w.cancelIdleTimer = { w with timers, conn.idleTimerId := none } := by
    rw [TcpLoop.cancelIdleTimer, hcancel]
  rw [hcancel] at hclock
  rw [TcpLoop.resetIdleTimer]
  rw [hnone] at hidle ⊢
  generalize hv : ({ w with timers, conn.idleTimerId := none } : TcpLoop) = v at hidle ⊢
  have hav : v.timers.AddressOk env.timer := hv ▸ hc.address ha
  have hbatch : v.timers.batch = none := by
    rw [← hv]
    exact hc.batch.trans hbatch
  have hclock : v.timers.clock = w.timers.clock := by
    rw [← hv]
    exact hclock
  have hnot (id : TimerId) : ¬v.timers.Armed id .onIdleTimeout := by
    intro harmed
    have := hidle.own id harmed
    rw [← hv] at this
    contradiction
  obtain ⟨timers', hadd, had⟩ := runAfter_spec hidle.tidy hav kTimeoutMicros .onIdleTimeout
  have htimer := timer?_runAfter hav kTimeoutMicros .onIdleTimeout
  have hclock' := v.clock_runAfter kTimeoutMicros .onIdleTimeout env.timer
  rw [hadd] at htimer hclock' ⊢
  generalize TimerId.mk env.timer v.timers.queue.heap.born = new at htimer had ⊢
  have hstanding (id : TimerId) : timers'.Standing id .onIdleTimeout ↔ id = new := by
    rw [TimerLoop.standing_iff (had.batch.trans hbatch), had.armed]
    exact ⟨fun hid => hid.elim And.left fun harmed => absurd harmed (hnot id),
      fun hid => .inl ⟨hid, rfl⟩⟩
  refine ⟨had.tidy, hidle.punctual.congr had.batch hclock', ?_, ?_, ?_, fun _ _ => ?_⟩
  · intro seq node id hnode hid
    obtain ⟨k, hissued⟩ := hidle.entries seq node id hnode hid
    exact ⟨k, hissued.keeps had.keeps⟩
  · intro id harmed
    rw [(hstanding id).mp (.inl harmed)]
    rfl
  · intro id t hid ht
    obtain rfl := (hstanding id).mp hid
    obtain rfl := Option.some.inj (htimer.symm.trans ht)
    exact ⟨w.timers.clock, rfl, congrArg (· + kTimeoutMicros) hclock⟩
  · exact ⟨new, rfl, (hstanding new).mpr rfl⟩

/-- Dropping the entries does not stop the idle timer. -/
theorem Wound.clearRetrans (h : w.Wound reset lapsed) : w.clearRetrans.Wound reset lapsed := by
  obtain ⟨timers, hcancel, hc⟩ := foldl_cancel_spec w.conn.pendingRetrans.toList h.tidy
  have hspares := spares_foldl_cancel w.conn.pendingRetrans.toList h.tidy
  have hclock := clock_foldl_cancel (w := w) w.conn.pendingRetrans.toList
  rw [TcpLoop.clearRetrans]
  rw [hcancel] at hspares hclock ⊢
  refine Dial.Wound.cancelled h hc hclock hspares ?_ ?_
  · rintro id ⟨⟨seq, node⟩, hmem, hid⟩
    exact ⟨seq, node, Std.ExtTreeMap.mem_toList_iff_getElem?_eq_some.mp hmem, hid⟩
  · intro seq node hnode
    simp at hnode

/-- Nor does an ack. -/
theorem Wound.ackReceived (h : w.Wound reset lapsed) (seq : Nat) :
    (w.ackReceived seq).Wound reset lapsed := by
  rw [TcpLoop.ackReceived]
  split
  · exact h
  · rename_i node hnode
    obtain ⟨timers, hcancel, hc⟩ := cancel_spec h.tidy node.entry.timerId
    have hspares := spares_cancel h.tidy node.entry.timerId
    have hclock := w.clock_cancel node.entry.timerId
    rw [hcancel] at hspares hclock ⊢
    refine Dial.Wound.cancelled h hc hclock hspares (fun id hid => ⟨seq, node, hnode, hid⟩) ?_
    intro k node' hnode'
    rw [Std.ExtTreeMap.getElem?_erase] at hnode'
    split at hnode'
    · contradiction
    · exact hnode'

/-- An entry gets a new timer. -/
theorem Wound.resetRetransmitTimer (h : w.Wound reset lapsed) {node : RetransmitNode} {env : Env}
    (ha : w.timers.AddressOk env.timer)
    (hnode : ∀ id, node.entry.timerId = some id → ∃ (seq : Nat) (node' : RetransmitNode),
      w.conn.pendingRetrans[seq]? = some node' ∧ node'.entry.timerId = some id) :
    (w.resetRetransmitTimer node env).Wound reset lapsed := by
  obtain ⟨timers, hcancel, hc⟩ := cancel_spec h.tidy node.entry.timerId
  have hspares := spares_cancel h.tidy node.entry.timerId
  have hclock := w.clock_cancel node.entry.timerId
  rw [TcpLoop.resetRetransmitTimer]
  rw [hcancel] at hspares hclock ⊢
  dsimp only
  generalize (↑(caculate_backoff_jitter _ _ _ _) * 1000 : Int) = micros
  have hcancelled : Wound { w with timers } reset lapsed :=
    Dial.Wound.cancelled h hc hclock hspares hnode fun _ _ hn => hn
  generalize hv : ({ w with timers } : TcpLoop) = v at hcancelled ⊢
  have hav : v.timers.AddressOk env.timer := hv ▸ hc.address ha
  obtain ⟨timers', hadd, had⟩ :=
    runAfter_spec hcancelled.tidy hav micros (.onRetransmitTimeout node.entry.seq)
  have hspares' := spares_runAfter hav micros (.onRetransmitTimeout node.entry.seq)
  have hclock' := v.clock_runAfter micros (.onRetransmitTimeout node.entry.seq) env.timer
  rw [hadd] at hspares' hclock' ⊢
  refine Dial.Wound.added hcancelled had hclock' hspares' fun seq node' hnode' => ?_
  rw [Std.ExtTreeMap.getElem?_insert] at hnode'
  split at hnode'
  · obtain rfl := Option.some.inj hnode'
    exact .inl rfl
  · exact .inr hnode'

/-- Nor does the lambda that makes an entry. -/
theorem Wound.sendFuncEnd (h : w.Wound reset lapsed) {data : Bytes} {seq : Nat} {env : Env}
    (ha : w.timers.AddressOk env.timer) : (w.sendFuncEnd data seq env).Wound reset lapsed := by
  rw [TcpLoop.sendFuncEnd]
  split
  · exact h.resetRetransmitTimer ha (by simp)
  · exact Wound.resetRetransmitTimer (w := { w with nextNode := w.nextNode + 1 }) h ha (by simp)

/-- Whatever an erased node has left behind, the timer that is armed is no idle timer. -/
theorem Wound.followErased (h : w.Wound reset lapsed) {n : Nat} {env : Env}
    (ha : w.timers.AddressOk env.timer) : (w.followErased n env).Wound reset lapsed := by
  rw [TcpLoop.followErased]
  dsimp only
  split
  · rename_i node hnode
    obtain ⟨seq, -, hseq⟩ := Option.bind_eq_some_iff.mp hnode
    exact Wound.resetRetransmitTimer (w := { w with dangling := w.dangling ++ [n] }) h ha
      fun id hid => ⟨seq, node, hseq, hid⟩
  · generalize hv : ({ w with dangling := w.dangling ++ [n] } : TcpLoop) = v
    generalize (↑(caculate_backoff_jitter _ _ _ _) * 1000 : Int) = micros
    have hwound : v.Wound reset lapsed := hv ▸ h
    have hav : v.timers.AddressOk env.timer := hv ▸ ha
    obtain ⟨timers, hadd, had⟩ :=
      runAfter_spec hwound.tidy hav micros (.onRetransmitTimeout env.stale.seq)
    have hspares := spares_runAfter hav micros (.onRetransmitTimeout env.stale.seq)
    have hclock := v.clock_runAfter micros (.onRetransmitTimeout env.stale.seq) env.timer
    rw [hadd] at hspares hclock ⊢
    exact Dial.Wound.added hwound had hclock hspares fun _ _ hnode => .inr hnode

/-- Nor does a retry, even one through a dangling reference. -/
theorem Wound.onRetransmitTimeoutEnd (h : w.Wound reset lapsed) {seq n : Nat} {env : Env}
    (ha : w.timers.AddressOk env.timer) :
    (w.onRetransmitTimeoutEnd seq n env).Wound reset lapsed := by
  rw [TcpLoop.onRetransmitTimeoutEnd]
  split
  · exact h.followErased ha
  · rename_i node hnode
    split
    · exact h.followErased ha
    · exact h.resetRetransmitTimer ha fun id hid => ⟨seq, node, hnode, hid⟩

/-! ### Closing -/

/-- A connection is open or closed with or without its timers. -/
theorem isOpen_clear : w.cancelIdleTimer.clearRetrans.dial.isOpen = w.dial.isOpen := by
  obtain ⟨queue, h⟩ := w.clear_frame
  rw [h]
  rfl

/-- An assertion that fails ends the process. -/
theorem Wound.abort (h : w.Wound reset lapsed) (lapsed' : Bool) :
    w.abort.Wound reset lapsed' where
  tidy := h.tidy
  punctual := h.punctual
  entries := h.entries
  own := h.own
  expires := h.expires
  standing _ ho := by simp [dial, TcpLoop.abort] at ho

/-- A connection that is closed is not open, whatever it was. -/
theorem Wound.handleClose (h : w.Wound reset lapsed) (lapsed' : Bool) :
    w.handleClose.Wound reset lapsed' := by
  have hclosed : ({ (w.setState .kDisConnected).removeChannel.dropFile with
      conn.fileSentOffset := 0, conn.fileTotalSize := 0 }.cancelIdleTimer.clearRetrans.invoke
        .close).Wound reset lapsed' := by
    have hset : (w.setState .kDisConnected).Wound reset lapsed :=
      ⟨h.tidy, h.punctual, h.entries, h.own, h.expires,
        fun _ ho => absurd ho (by simp [dial, setState])⟩
    have hdropped : (w.setState .kDisConnected).removeChannel.dropFile.dial =
        (w.setState .kDisConnected).dial := dial_dropFile
    generalize hv : ({ (w.setState .kDisConnected).removeChannel.dropFile with
      conn.fileSentOffset := 0, conn.fileTotalSize := 0 } : TcpLoop) = v
    have hdial : v.dial = (w.setState .kDisConnected).dial := hv ▸ hdropped
    have hwound : v.Wound reset lapsed := by rwa [Wound, hdial]
    rw [Wound, dial_invoke]
    refine hwound.cancelIdleTimer.clearRetrans.closed ?_ lapsed'
    rw [isOpen_clear, hdial]
    simp [dial, setState]
  rw [TcpLoop.handleClose]
  split
  · rename_i hstate
    exact h.closed (by simp [dial, hstate]) lapsed'
  · exact h.abort lapsed'
  · exact hclosed
  · exact hclosed

/-- A connection that is closed by force is not open any more. -/
theorem Wound.forceCloseInLoop (h : w.Wound reset lapsed) (lapsed' : Bool) :
    w.forceCloseInLoop.Wound reset lapsed' := by
  rw [TcpLoop.forceCloseInLoop]
  split
  · exact h.handleClose lapsed'
  · rename_i hstate
    rw [not_or] at hstate
    exact h.closed (by simp [dial, hstate.1, hstate.2]) lapsed'

/-- Nor is one that a shutdown has closed. -/
theorem Wound.shutdownInLoop (h : w.Wound reset lapsed) : w.shutdownInLoop.Wound reset lapsed := by
  have hshut : w.shutdownWrite.Wound reset lapsed := h
  rw [TcpLoop.shutdownInLoop]
  split
  · exact hshut.handleClose lapsed
  · exact hshut

/-- Whatever is left of the timers, a connection that is destroyed has none. -/
theorem Wound.connectDestroyed (h : w.Wound reset lapsed) :
    w.connectDestroyed.Wound reset true := by
  have hclear {v : TcpLoop} (hv : v.Wound reset true) :
      v.cancelIdleTimer.clearRetrans.removeChannel.Wound reset true :=
    hv.cancelIdleTimer.clearRetrans
  rw [TcpLoop.connectDestroyed]
  split
  · exact hclear (v := w.setState .kDisConnected)
      ⟨h.tidy, h.punctual, h.entries, h.own, h.expires, by simp⟩
  · exact hclear h.lapse

/-- A connection is established with an idle timer. -/
theorem Wound.connectEstablelished (h : w.Wound reset lapsed) (hbatch : w.timers.batch = none)
    {env : Env} (ha : w.timers.AddressOk env.timer) (hstate : w.conn.state = .kConnecting)
    (lapsed' : Bool) : (w.connectEstablelished env).Wound (some w.timers.clock) lapsed' := by
  rw [TcpLoop.connectEstablelished, if_neg (not_not.mpr hstate), Wound, dial_invoke]
  have hset : (w.enableReading.setState .kConnected).Wound reset true :=
    ⟨h.tidy, h.punctual, h.entries, h.own, h.expires, by simp⟩
  exact hset.resetIdleTimer hbatch ha lapsed'

/-- Opening a file does not restart the idle timer. -/
theorem Wound.sendFileInLoop (h : w.Wound reset lapsed) (filePath : Bytes) (env : Env) :
    (w.sendFileInLoop filePath env).Wound reset lapsed := by
  have hopened (fd : Addr) :
      ((w.note (.taken (.file filePath))).openFile filePath fd).Wound reset lapsed := by
    rw [Wound, dial_openFile]
    exact h
  rw [TcpLoop.sendFileInLoop]
  split
  · exact h
  · dsimp only
    split
    · exact Wound.forceCloseInLoop (w := w.note _) h lapsed
    · rename_i fd _
      have hfreed := hopened fd
      generalize (w.note (.taken (.file filePath))).openFile filePath fd = v at hfreed ⊢
      exact Wound.forceCloseInLoop (w := { v with files := v.files.free fd }) hfreed lapsed
    · rename_i fd _
      exact hopened fd

/-- Nor does a timeout, before its `sendInLoop`. -/
theorem Wound.onRetransmitTimeout (h : w.Wound reset lapsed) (seq : Nat) :
    (w.onRetransmitTimeout seq).Wound reset lapsed := by
  rw [TcpLoop.onRetransmitTimeout]
  split
  · exact h
  · rename_i node _
    split
    · have herased : Wound { w with conn.pendingRetrans := w.conn.pendingRetrans.erase seq } reset
          lapsed := by
        refine ⟨h.tidy, h.punctual, fun k n id hn => ?_, h.own, h.expires, h.standing⟩
        refine h.entries k n id ?_
        change (w.conn.pendingRetrans.erase seq)[k]? = some n at hn
        rw [Std.ExtTreeMap.getElem?_erase] at hn
        split at hn
        · contradiction
        · exact hn
      exact herased.forceCloseInLoop lapsed
    · dsimp only
      split
      · exact h
      · exact h

/-! ### Events -/

/-- Nor does what is sent of a file, apart from `handleWrite` itself. -/
theorem Wound.sendfile (h : w.Wound reset lapsed) (n : Nat) :
    (w.sendfile n).Wound reset lapsed := by
  rw [TcpLoop.sendfile]
  generalize w.unsent.take (min n chunkSize) = sent
  dsimp only
  split
  · exact h
  · split
    · rw [Wound, dial_invoke, dial_disableWriting, dial_dropFile]
      exact h
    · exact h

/-- Nor does a write of the buffer. -/
theorem Wound.handleWriteBuffer (h : w.Wound reset lapsed) (env : Env) :
    (w.handleWriteBuffer env).Wound reset lapsed := by
  rw [TcpLoop.handleWriteBuffer]
  split
  · split
    · rw [Wound, dial_invoke]
      split
      · exact h
      · exact h
    · exact h
    · exact h.handleClose lapsed
    · exact h.handleClose lapsed
  · exact h

/-- Nor does the transfer as a whole. -/
theorem Wound.handleWriteFile (h : w.Wound reset lapsed) (env : Env) :
    (w.handleWriteFile env).Wound reset lapsed := by
  rw [TcpLoop.handleWriteFile]
  split
  · split
    · exact h.sendfile _
    · exact h
    · have hdropped : w.dropFile.disableWriting.Wound reset lapsed := by
        rw [Wound, dial_disableWriting, dial_dropFile]
        exact h
      exact hdropped.handleClose lapsed
  · exact h.handleWriteBuffer env

/-- When `handleRead` reads something. -/
theorem Wound.handleRead (h : w.Wound reset lapsed) (hbatch : w.timers.batch = none) {env : Env}
    (ha : w.timers.AddressOk env.timer) :
    (w.handleRead env).Wound (if env.read.delivers then some w.timers.clock else reset)
      lapsed := by
  rw [TcpLoop.handleRead]
  cases env.read with
  | done data =>
    cases data with
    | nil => exact h.handleClose lapsed
    | cons b data =>
      rw [Wound, dial_invoke]
      exact Wound.resetIdleTimer
        (w := { w with conn.readBuffer := w.conn.readBuffer.readFd (b :: data) }) h hbatch ha lapsed
  | again => exact h
  | error => exact h.handleClose lapsed

/-- When `handleWrite` gets past its test. -/
theorem Wound.handleWrite (h : w.Wound reset lapsed) (hbatch : w.timers.batch = none) {env : Env}
    (ha : w.timers.AddressOk env.timer) :
    (w.handleWrite env).Wound (if w.conn.channel.isWriting then some w.timers.clock else reset)
      lapsed := by
  rw [TcpLoop.handleWrite]
  by_cases hwriting : w.conn.channel.isWriting
  · have hidle := h.resetIdleTimer hbatch ha lapsed
    rw [if_neg (by simp [hwriting]), if_pos hwriting]
    generalize some w.timers.clock = reset' at hidle ⊢
    generalize w.resetIdleTimer env = v at hidle ⊢
    have hpush : (v.push .handleWrite).Wound reset' lapsed := hidle
    dsimp only
    split
    · split
      · rw [Wound, dial_invoke]
        split
        · exact hpush
        · exact hpush
      · exact hpush
      · exact hpush.handleClose lapsed
      · exact hpush.handleClose lapsed
    · exact hidle.handleWriteFile env
  · rw [if_pos (by simp [hwriting]), if_neg hwriting]
    exact h

/-! ## Restarts of the idle timer -/

/-- `connectEstablelished` gets past its assertion. -/
def establishes (w : TcpLoop) : Action → Bool
  | .run _ => w.todo = some .connectEstablelished && w.conn.state = .kConnecting
  | _ => false

/-- `connectDestroyed` is run. -/
def destroys (w : TcpLoop) : Action → Bool
  | .run _ => w.todo = some .connectDestroyed
  | _ => false

/-- The write test of `Channel::handleEvent` succeeds, and `handleWrite` gets past its test. -/
def passesWriting (w : TcpLoop) : Action → Bool
  | .resume _ => w.stack.head? = some (.handleEvent .write) && w.conn.channel.revents.epollout &&
      w.conn.channel.isWriting
  | _ => false

/-- The step calls `resetIdleTimer`. -/
def restarts (w : TcpLoop) (a : Action) : Bool :=
  w.establishes a || w.delivers a || w.passesWriting a

/-- The idle timer has been started, and `onIdleTimeout` runs next. -/
def timesOut (w : TcpLoop) : Bool := w.todo = some .onIdleTimeout

/-- Nothing but a timer runs `onIdleTimeout`. -/
theorem Stacks.timesOut (h : w.Stacks w') (htodo : w.timesOut = false) : w'.timesOut = false := by
  rw [TcpLoop.timesOut, decide_eq_false_iff_not] at htodo ⊢
  intro he
  rcases h.todo _ he with hw | hcalled
  · exact htodo hw
  · contradiction

/-- The idle timer is restarted by two of the tests of `Channel::handleEvent`. -/
theorem restarts_event (env : Env) {stage : EventStage} {rest : List Frame}
    (hstack : w.stack = .handleEvent stage :: rest) : w.restarts (.resume env) =
      (stage = .read && (w.conn.channel.revents.epollin || w.conn.channel.revents.epollrdhup ||
        w.conn.channel.revents.epollpri) && env.read.delivers ||
      stage = .write && w.conn.channel.revents.epollout && w.conn.channel.isWriting) := by
  rw [restarts, show w.establishes (.resume env) = false from rfl, delivers, passesWriting, hstack]
  rcases env.read with (_ | _) | _ | _ <;> simp [ReadResult.delivers]

/-- `handleEvent` restarts the idle timer where it reads data, and where the channel is writing. -/
theorem Wound.handleEvent (h : w.Wound reset lapsed) (hbatch : w.timers.batch = none) {env : Env}
    (ha : w.timers.AddressOk env.timer) {stage : EventStage} {rest : List Frame}
    (hstack : w.stack = .handleEvent stage :: rest) :
    ({ w with stack := rest }.handleEvent env stage).Wound
      (if w.restarts (.resume env) then some w.timers.clock else reset) lapsed := by
  have hrestarts := restarts_event env hstack
  have hpush (stage : EventStage) :
      ({ w with stack := rest }.push (.handleEvent stage)).Wound reset lapsed := h
  cases stage with
  | error =>
    rw [hrestarts, TcpLoop.handleEvent]
    split
    · exact (hpush .read).handleClose lapsed
    · exact hpush .read
  | read =>
    rw [TcpLoop.handleEvent]
    split
    · rename_i hevent
      have hreads : w.restarts (.resume env) = env.read.delivers := by
        simpa [show (_ || _ || _) = true from hevent] using hrestarts
      rw [hreads]
      exact (hpush .hup).handleRead hbatch ha
    · rename_i hevent
      have hnot : w.restarts (.resume env) = false := by
        simpa [show (_ || _ || _) = false from Bool.eq_false_iff.mpr hevent] using hrestarts
      rw [hnot]
      exact hpush .hup
  | hup =>
    rw [hrestarts, TcpLoop.handleEvent]
    split
    · exact (hpush .write).handleClose lapsed
    · exact hpush .write
  | write =>
    rw [TcpLoop.handleEvent]
    split
    · rename_i hevent
      have hwrites : w.restarts (.resume env) = w.conn.channel.isWriting := by
        simpa [show w.conn.channel.revents.epollout = true from hevent] using hrestarts
      rw [hwrites]
      exact Wound.handleWrite (w := { w with stack := rest }) h hbatch ha
    · rename_i hevent
      have hnot : w.restarts (.resume env) = false := by
        simpa [show w.conn.channel.revents.epollout = false from Bool.eq_false_iff.mpr hevent]
          using hrestarts
      rw [hnot]
      exact h

/-! ## Steps -/

/-- The other functors leave the idle timer running. -/
theorem Wound.run {f : Functor} (h : w.Wound reset lapsed) (hidle : f ≠ .onIdleTimeout)
    (hestablish : f ≠ .connectEstablelished) (hdestroy : f ≠ .connectDestroyed) (env : Env) :
    (w.run env f).Wound reset lapsed := by
  cases f with
  | connectEstablelished => contradiction
  | connectDestroyed => contradiction
  | sendInLoop data =>
    rw [TcpLoop.run, Wound, dial_sendInLoop]
    exact h
  | sendFileInLoop filePath => exact h.sendFileInLoop filePath env
  | shutdownInLoop => exact h.shutdownInLoop
  | forceCloseInLoop => exact h.forceCloseInLoop lapsed
  | sendFunc data seq =>
    rw [TcpLoop.run, sendFunc, Wound, dial_send]
    exact h
  | ackReceived seq => exact h.ackReceived seq
  | onIdleTimeout => contradiction
  | onRetransmitTimeout seq => exact h.onRetransmitTimeout seq
  | user => exact h

/-- The timer queue goes on by itself. -/
theorem Wound.timers (h : w.Wound reset lapsed) {a : Timer.Action Task} {timers : TimerLoop Task}
    {lapsed' : Bool} (hstep : w.timers.step a = some timers) (htidy : timers.Tidy (· ≠ .user))
    (harmed : ∀ id, timers.Armed id .onIdleTimeout → w.timers.Armed id .onIdleTimeout)
    (hsub : ∀ id, timers.Standing id .onIdleTimeout → w.timers.Standing id .onIdleTimeout)
    (hlapsed : lapsed' = false → lapsed = false ∧
      ∀ id, w.timers.Standing id .onIdleTimeout → timers.Standing id .onIdleTimeout) :
    Dial.Wound { w.dial with timers } reset lapsed' := by
  refine Dial.Wound.retime h htidy (h.punctual.step h.tidy.inv hstep) (h.tidy.spares hstep) ?_
    harmed hsub hlapsed
  intro seq node id hnode hid
  obtain ⟨k, hissued⟩ := h.entries seq node id hnode hid
  exact ⟨k, hissued.keeps (TimerLoop.keeps_of_step hstep)⟩

/-- A batch begins. -/
theorem Wound.beginBatch (h : w.Wound reset lapsed) {timers : TimerLoop Task}
    (hstep : w.timers.step .handleRead = some timers) :
    Dial.Wound { w.dial with timers } reset lapsed := by
  obtain ⟨htidy, hsplit, hbatch, -⟩ := h.tidy.handleRead hstep
  refine h.timers hstep htidy (fun id harmed => (hsplit id _).mpr (.inl harmed)) ?_
    fun hl => ⟨hl, ?_⟩
  · exact fun id hstanding => .inl ((hsplit id _).mpr hstanding)
  · exact fun id hstanding => (hsplit id _).mp ((TimerLoop.standing_iff hbatch).mp hstanding)

/-- The idle timer fires only as something to be run. -/
theorem timesOut_of_todo (htodo : w.todo = none) : w.timesOut = false := by
  simp [timesOut, htodo]

/-- The loop of `TimerQueue::handleRead` goes on, and starts the idle timer only when that has
expired. -/
theorem Wound.handleTimers (h : w.Wound reset lapsed) (htodo : w.todo = none)
    (hr : w.handleTimers = some w') : w'.Wound reset (lapsed || w'.timesOut) ∧
      w'.timers.clock = w.timers.clock ∧
      (w'.timesOut = true → ∃ r ∈ reset, r + kTimeoutMicros ≤ w.timers.clock) := by
  unfold TcpLoop.handleTimers at hr
  split at hr
  · contradiction
  · obtain ⟨timers, hstep, hw⟩ := Option.map_eq_some_iff.mp hr
    obtain ⟨htidy, harmed, hdue⟩ := h.tidy.callbackReturns hstep
    have hdial : w'.dial = { w.dial with timers } := hw ▸ rfl
    have hclock : w'.timers = timers := hw ▸ rfl
    have htimes : w'.timesOut = false := timesOut_of_todo (hw ▸ htodo)
    rw [Wound, hdial, htimes, Bool.or_false, hclock]
    refine ⟨h.timers hstep htidy (fun id => (harmed id _).mp) ?_ fun hl => ⟨hl, ?_⟩, ?_, by simp⟩
    · exact fun id => Or.imp (harmed id _).mp (hdue id _).mp
    · exact fun id => Or.imp (harmed id _).mpr (hdue id _).mpr
    · cases TimerLoop.moves_of_step hstep with
      | callbackReturns hb => rfl
  · rename_i hb
    obtain ⟨timers, hstep, hw⟩ := Option.map_eq_some_iff.mp hr
    obtain ⟨id, cb, hcb, -, hstarted, htidy, harmed, hdue, -⟩ := h.tidy.nextEntry hb hstep
    have hdial : w'.dial = { w.dial with timers } := hw ▸ rfl
    have hclock : w'.timers = timers := hw ▸ rfl
    have hnext : w'.todo = some cb.functor := by
      rw [← hw]
      exact congrArg (Option.map Task.functor) hcb
    rw [Wound, hdial, hclock]
    refine ⟨h.timers hstep htidy (fun i => (harmed i _).mp) ?_ fun hl => ?_, ?_, fun htimes => ?_⟩
    · exact fun i => Or.imp (harmed i _).mp fun hi => ((hdue i _).mp hi).1
    · obtain ⟨hl, hother⟩ := Bool.or_eq_false_iff.mp hl
      refine ⟨hl, fun i => Or.imp (harmed i _).mpr fun hi => (hdue i _).mpr ⟨hi, ?_⟩⟩
      rintro rfl
      obtain rfl := hi.callback_eq hstarted
      simp [timesOut, hnext, Task.functor] at hother
    · cases TimerLoop.moves_of_step hstep with
      | nextEntry hb => rfl
    · have hcb : cb = .onIdleTimeout := by
        rw [timesOut, hnext, decide_eq_true_eq, Option.some.injEq] at htimes
        cases cb with
        | onIdleTimeout => rfl
        | onRetransmitTimeout seq => contradiction
        | user => contradiction
      subst hcb
      obtain ⟨t, ht, hle⟩ := h.punctual.expired hstarted
      obtain ⟨r, hr, he⟩ := h.expires id t (.inr hstarted) ht
      exact ⟨r, hr, he ▸ hle⟩
  · obtain ⟨timers, hstep, hw⟩ := Option.map_eq_some_iff.mp hr
    obtain ⟨htidy, harmed, hnone, hb⟩ := h.tidy.endBatch hstep
    have harmed (id : TimerId) := harmed id .onIdleTimeout (by simp)
    have hdial : w'.dial = { w.dial with timers } := hw ▸ rfl
    have hclock : w'.timers = timers := hw ▸ rfl
    have htimes : w'.timesOut = false := timesOut_of_todo (hw ▸ htodo)
    rw [Wound, hdial, htimes, Bool.or_false, hclock]
    refine ⟨h.timers hstep htidy (fun id => (harmed id).mp) ?_ fun hl => ⟨hl, ?_⟩, ?_, by simp⟩
    · exact fun id hid => .inl ((harmed id).mp ((TimerLoop.standing_iff hb).mp hid))
    · exact fun id hid => .inl ((harmed id).mpr (hid.resolve_right (hnone id _)))
    · cases TimerLoop.moves_of_step hstep with
      | endBatch hb => rfl

/-- What is run next: a restart sets the idle timer by the clock. -/
theorem Wound.runTodo {env : Env} {f : Functor} (h : w.Wound reset (lapsed || w.timesOut))
    (hrooted : w.Rooted) (htodo : w.todo = some f) (ha : w.timers.AddressOk env.timer) :
    (w.clearTodo.run env f).Wound
      (if w.establishes (.run env) then some w.timers.clock else reset)
      (if w.establishes (.run env) then false else lapsed || w.destroys (.run env)) := by
  have hclear : w.clearTodo.Wound reset (lapsed || w.timesOut) := h
  have htimes : w.timesOut = (f = .onIdleTimeout : Bool) := by simp [timesOut, htodo]
  rw [establishes, destroys, htodo]
  rw [htimes] at hclear
  by_cases hestablish : f = .connectEstablelished
  · subst hestablish
    by_cases hstate : w.conn.state = .kConnecting
    · rw [hstate]
      exact hclear.connectEstablelished (hrooted.batch_of_establish htodo) ha hstate _
    · have haborted : w.clearTodo.run env .connectEstablelished = w.clearTodo.abort :=
        if_pos hstate
      rw [haborted]
      simpa [hstate] using hclear.abort lapsed
  · by_cases hdestroy : f = .connectDestroyed
    · subst hdestroy
      rw [TcpLoop.run]
      simpa using hclear.connectDestroyed
    · by_cases hidle : f = .onIdleTimeout
      · subst hidle
        rw [TcpLoop.run]
        simpa using hclear.forceCloseInLoop lapsed
      · simpa [hestablish, hdestroy, hidle] using hclear.run hidle hestablish hdestroy env

/-- What code that goes on does to the idle timer. -/
theorem Wound.resumeFrame {env : Env} {frame : Frame} {rest : List Frame}
    (h : w.Wound reset lapsed) (hrooted : w.Rooted) (htodo : w.todo = none)
    (hstack : w.stack = frame :: rest) (ha : w.timers.AddressOk env.timer)
    (hr : { w with stack := rest }.resumeFrame env frame = some w') :
    w'.Wound (if w.restarts (.resume env) then some w.timers.clock else reset)
      (lapsed || w'.timesOut) := by
  have hpop : ({ w with stack := rest } : TcpLoop).Wound reset lapsed := h
  have hquiet (hframe : ∀ stage, frame ≠ .handleEvent stage) :
      w.restarts (.resume env) = false := by
    have hhead (stage : EventStage) : w.stack.head? ≠ some (.handleEvent stage) := by
      rw [hstack]
      simpa using hframe stage
    simp [restarts, establishes, delivers, passesWriting, hhead]
  have hweaken {r : Option Int} (hw : w'.Wound r lapsed) : w'.Wound r (lapsed || w'.timesOut) :=
    hw.weaken fun hl => (Bool.or_eq_false_iff.mp hl).1
  cases frame with
  | user cb => contradiction
  | handleEvent stage =>
    obtain rfl := Option.some.inj hr
    exact hweaken (h.handleEvent (hrooted.batch_of_event hstack) ha hstack)
  | handleWrite =>
    obtain rfl := Option.some.inj hr
    rw [hquiet (by simp)]
    refine hweaken ?_
    rw [handleWriteRest]
    split
    · exact hpop
    · exact hpop.handleWriteFile env
  | handleWriteEnd =>
    obtain rfl := Option.some.inj hr
    rw [hquiet (by simp)]
    refine hweaken ?_
    rw [handleWriteEnd]
    split
    · rw [Wound, dial_runInLoop]
      exact hpop
    · exact hpop
  | sendFunc data seq =>
    obtain rfl := Option.some.inj hr
    rw [hquiet (by simp)]
    exact hweaken (hpop.sendFuncEnd ha)
  | onRetransmitTimeout seq node =>
    obtain rfl := Option.some.inj hr
    rw [hquiet (by simp)]
    exact hweaken (hpop.onRetransmitTimeoutEnd ha)
  | timerQueue =>
    rw [hquiet (by simp)]
    exact (hpop.handleTimers htodo hr).1

/-- User code has nothing of the connection's to run. -/
theorem timesOut_of_inUserCode (h : w.inUserCode = true) : w.timesOut = false := by
  rw [inUserCode, Bool.and_eq_true, Option.isNone_iff_eq_none] at h
  exact timesOut_of_todo h.1

/-- Every step leaves the idle timer wound, or winds it anew. -/
theorem Wound.step {a : Action} (h : w.Wound reset (lapsed || w.timesOut)) (hrooted : w.Rooted)
    (hstep : w.step a = some w') :
    w'.Wound (if w.restarts a then some w.timers.clock else reset)
      ((if w.establishes a then false else lapsed || w.destroys a) || w'.timesOut) := by
  have hkeep (hquiet : w.restarts a = false ∧ w.establishes a = false ∧ w.destroys a = false)
      (hwound : w'.Wound reset (lapsed || w.timesOut))
      (htimes : w.timesOut = true → w'.timesOut = true) :
      w'.Wound (if w.restarts a then some w.timers.clock else reset)
        ((if w.establishes a then false else lapsed || w.destroys a) || w'.timesOut) := by
    obtain ⟨hrestarts, hestablishes, hdestroys⟩ := hquiet
    rw [hrestarts, hestablishes, hdestroys]
    refine hwound.weaken fun hl => ?_
    simp only [Bool.false_eq_true, if_false, Bool.or_false, Bool.or_eq_false_iff] at hl ⊢
    exact ⟨hl.1, Bool.eq_false_iff.mpr fun ht => Bool.eq_false_iff.mp hl.2 (htimes ht)⟩
  cases stepped_of_step hstep with
  | poll hidle hfunc hready hw' =>
    rcases hw' with rfl | rfl
    · exact hkeep ⟨rfl, rfl, rfl⟩ h id
    · exact hkeep ⟨rfl, rfl, rfl⟩ h id
  | event hidle hactive => exact hkeep ⟨rfl, rfl, rfl⟩ h id
  | timerEvent hidle hactive ht => exact hkeep ⟨rfl, rfl, rfl⟩ (h.beginBatch ht) id
  | otherEvent hidle hactive => exact hkeep ⟨rfl, rfl, rfl⟩ h id
  | doPendingFuncs hidle hfunc => exact hkeep ⟨rfl, rfl, rfl⟩ h id
  | nextFunc hidle hfunc =>
    refine hkeep ⟨rfl, rfl, rfl⟩ h fun htimes => ?_
    rw [timesOut_of_todo (idle_iff.mp hidle).1] at htimes
    contradiction
  | @run env f htodo henv =>
    have hrun := h.runTodo hrooted htodo henv.timer
    have hrestarts : w.restarts (.run env) = w.establishes (.run env) := by
      simp [restarts, delivers, passesWriting]
    rw [hrestarts]
    exact hrun.weaken fun hl => (Bool.or_eq_false_iff.mp hl).1
  | @resume env frame rest w' htodo hstack henv hr =>
    rw [timesOut_of_todo htodo, Bool.or_false] at h
    have hres := h.resumeFrame hrooted htodo hstack henv.timer hr
    simpa [establishes, destroys] using hres
  | @call c huser =>
    refine hkeep ⟨rfl, rfl, rfl⟩ ?_ fun htimes => ?_
    · rwa [Wound, dial_call]
    · rw [timesOut_of_inUserCode huser] at htimes
      contradiction
  | connectDestroyed huser =>
    refine hkeep ⟨rfl, rfl, rfl⟩ h fun htimes => ?_
    rw [timesOut_of_inUserCode huser] at htimes
    contradiction
  | retrieve htodo hstack => exact hkeep ⟨rfl, rfl, rfl⟩ h id
  | @addTimer when_ interval timer timers huser ht =>
    cases TimerLoop.moves_of_step ht with
    | addTimer ha hu =>
      have had := @TimerLoop.Tidy.added _ _ .user _ h.tidy when_ interval timer ha
        fun hne => absurd rfl hne
      have harmed (id : TimerId) :=
        (had.armed id .onIdleTimeout).trans (or_iff_right fun hnew => by simp at hnew)
      refine hkeep ⟨rfl, rfl, rfl⟩ (h.timers ht had.tidy (fun id => (harmed id).mp) (fun id => ?_)
        fun hl => ⟨hl, fun id => ?_⟩) id
      · exact Or.imp (harmed id).mp (had.due id _).mp
      · exact Or.imp (harmed id).mpr (had.due id _).mpr
  | @cancelTimer i timers huser hid ht =>
    cases TimerLoop.moves_of_step ht with
    | cancel hu =>
      have hc := h.tidy.cancelled i
      have hother (id : TimerId) (harmed : w.timers.Armed id .onIdleTimeout) : i ≠ id := by
        rintro rfl
        have := user_of_isUserTimer hid harmed
        contradiction
      refine hkeep ⟨rfl, rfl, rfl⟩ (h.timers ht hc.tidy (fun id hid => ?_) (fun id => ?_)
        fun hl => ⟨hl, fun id => ?_⟩) id
      · exact ((hc.armed id _).mp hid).1
      · exact Or.imp (fun hid => ((hc.armed id _).mp hid).1) (hc.due id _).mp
      · exact Or.imp (fun hid => (hc.armed id _).mpr ⟨hid, hother id hid⟩) (hc.due id _).mpr
  | ret htodo hstack => exact hkeep ⟨rfl, rfl, rfl⟩ h id
  | @callElsewhere c =>
    refine hkeep ⟨rfl, rfl, rfl⟩ ?_ fun htimes => ?_
    · rwa [Wound, dial_call]
    · rw [timesOut, (Prod.mk.inj (w.callElsewhere_frame c).1).1]
      exact htimes
  | connectDestroyedElsewhere => exact hkeep ⟨rfl, rfl, rfl⟩ h id
  | runElsewhere => exact hkeep ⟨rfl, rfl, rfl⟩ h id
  | @tick micros timers ht =>
    obtain ⟨htidy, harmed, hdue⟩ := h.tidy.tick ht
    refine hkeep ⟨rfl, rfl, rfl⟩ (h.timers ht htidy (fun id => (harmed id _).mp) ?_ fun hl =>
      ⟨hl, ?_⟩) id
    · exact fun id => Or.imp (harmed id _).mp (hdue id _).mp
    · exact fun id => Or.imp (harmed id _).mpr (hdue id _).mpr

/-- The timer queue goes on, or the clock stands still. -/
theorem clock_le_of_step {a : Action} (hstep : w.step a = some w') :
    w.timers.clock ≤ w'.timers.clock := by
  have hsame {v : TcpLoop} (hv : v.timing = w.timing) : w.timers.clock ≤ v.timers.clock :=
    (Prod.mk.inj hv).2.ge
  have hmoves {b : Timer.Action Task} {timers : TimerLoop Task}
      (ht : w.timers.step b = some timers) : w.timers.clock ≤ timers.clock := by
    cases TimerLoop.moves_of_step ht with
    | tick => simp
    | _ => exact le_rfl
  cases stepped_of_step hstep with
  | poll hidle hfunc hready hw' => rcases hw' with rfl | rfl <;> exact le_rfl
  | event hidle hactive => exact le_rfl
  | timerEvent hidle hactive ht => exact hmoves ht
  | otherEvent hidle hactive => exact le_rfl
  | doPendingFuncs hidle hfunc => exact le_rfl
  | nextFunc hidle hfunc => exact le_rfl
  | @run env f htodo henv => exact hsame (stacks_run (w := w.clearTodo) env f).timing
  | @resume env frame rest w' htodo hstack henv hr =>
    by_cases hroot : frame.root = false
    · exact hsame (stacks_resumeFrame hroot hr).timing
    · cases frame with
      | handleEvent stage =>
        obtain rfl := Option.some.inj hr
        exact hsame (calm_handleEvent (w := { w with stack := rest }) env stage).timing
      | timerQueue =>
        unfold resumeFrame TcpLoop.handleTimers at hr
        dsimp only at hr
        split at hr
        · contradiction
        · obtain ⟨timers, ht, rfl⟩ := Option.map_eq_some_iff.mp hr
          exact hmoves ht
        · obtain ⟨timers, ht, rfl⟩ := Option.map_eq_some_iff.mp hr
          exact hmoves ht
        · obtain ⟨timers, ht, rfl⟩ := Option.map_eq_some_iff.mp hr
          exact hmoves ht
      | _ => simp [Frame.root] at hroot
  | @call c huser => exact hsame (stacks_call true c).timing
  | connectDestroyed huser => exact le_rfl
  | retrieve htodo hstack => exact le_rfl
  | addTimer huser ht => exact hmoves ht
  | cancelTimer huser hid ht => exact hmoves ht
  | ret htodo hstack => exact le_rfl
  | @callElsewhere c => exact hsame (stacks_call false c).timing
  | connectDestroyedElsewhere => exact le_rfl
  | runElsewhere => exact le_rfl
  | tick ht => exact hmoves ht

/-- `onIdleTimeout` is to run because the idle timer has expired, and nothing restarts it before. -/
theorem timesOut_of_step {a : Action} (h : w.Wound reset lapsed)
    (hqueue : .onIdleTimeout ∉ w.queue) (hstep : w.step a = some w') (ht : w'.timesOut = true) :
    w.restarts a = false ∧
      (w.timesOut = true ∨ ∃ r ∈ reset, r + kTimeoutMicros ≤ w.timers.clock) := by
  have hcalled {v : TcpLoop} (hv : v.timesOut = false) (hs : v.Stacks w') : False := by
    rw [hs.timesOut hv] at ht
    contradiction
  cases stepped_of_step hstep with
  | poll hidle hfunc hready hw' =>
    rcases hw' with rfl | rfl
    · exact ⟨rfl, .inl ht⟩
    · exact ⟨rfl, .inl ht⟩
  | event hidle hactive => exact ⟨rfl, .inl ht⟩
  | timerEvent hidle hactive _ => exact ⟨rfl, .inl ht⟩
  | otherEvent hidle hactive => exact ⟨rfl, .inl ht⟩
  | doPendingFuncs hidle hfunc => exact ⟨rfl, .inl ht⟩
  | nextFunc hidle hfunc =>
    obtain rfl : _ = Functor.onIdleTimeout := by simpa [timesOut] using ht
    refine absurd ?_ hqueue
    rw [queue, hfunc]
    exact List.mem_cons_self
  | @run env f htodo henv => exact (hcalled rfl (stacks_run (w := w.clearTodo) env f)).elim
  | @resume env frame rest w' htodo hstack henv hr =>
    have hnot (k : List Frame) : ({ w with stack := k } : TcpLoop).timesOut = false :=
      timesOut_of_todo htodo
    by_cases hroot : frame.root = false
    · exact (hcalled (hnot rest) (stacks_resumeFrame hroot hr)).elim
    · cases frame with
      | handleEvent stage =>
        obtain rfl := Option.some.inj hr
        exact (hcalled (hnot _)
          (calm_handleEvent (w := { w with stack := rest }) env stage).stacks).elim
      | timerQueue =>
        have hpop : ({ w with stack := rest } : TcpLoop).Wound reset lapsed := h
        refine ⟨?_, .inr ((hpop.handleTimers htodo hr).2.2 ht)⟩
        simp [restarts, establishes, delivers, passesWriting, hstack]
      | _ => simp [Frame.root] at hroot
  | @call c huser => exact (hcalled (timesOut_of_inUserCode huser) (stacks_call true c)).elim
  | connectDestroyed huser => contradiction
  | retrieve htodo hstack => exact ⟨rfl, .inl ht⟩
  | addTimer huser _ => exact ⟨rfl, .inl ht⟩
  | cancelTimer huser hid _ => exact ⟨rfl, .inl ht⟩
  | ret htodo hstack => exact ⟨rfl, .inl ht⟩
  | @callElsewhere c =>
    rw [timesOut, (Prod.mk.inj (w.callElsewhere_frame c).1).1] at ht
    exact ⟨rfl, .inl ht⟩
  | connectDestroyedElsewhere => exact ⟨rfl, .inl ht⟩
  | runElsewhere => exact ⟨rfl, .inl ht⟩
  | tick _ => exact ⟨rfl, .inl ht⟩

/-- No thread queues `onIdleTimeout`. -/
theorem functor_ne_onIdleTimeout {a : Action} {f : Functor} (h : a.functor? = some f) :
    f ≠ .onIdleTimeout := by
  cases a with
  | callElsewhere c =>
    obtain rfl := Option.some.inj h
    cases c <;> exact nofun
  | connectDestroyedElsewhere =>
    obtain rfl := Option.some.inj h
    exact nofun
  | runElsewhere =>
    obtain rfl := Option.some.inj h
    exact nofun
  | _ => contradiction

end TcpLoop

/-! ## Runs -/

/-- A connection with the times of what has happened to it. -/
structure Timed where
  loop : TcpLoop
  /-- The last call of `resetIdleTimer`. -/
  reset : Option Int := none
  /-- The last `handleRead` that has read something. -/
  read : Option Int := none
  /-- The last `handleWrite` that got past its test. -/
  written : Option Int := none
  /-- `connectDestroyed` has run since `connectEstablelished`. -/
  destroyed : Bool := false

namespace Timed

open TcpLoop (establishing)

variable {x x' : Timed}

def start (fd : Nat) (callbacks : Callback → Bool) (disk : Bytes → Bytes) : Timed where
  loop := .start fd callbacks disk

def step (x : Timed) (a : Action) : Option Timed :=
  (x.loop.step a).map fun loop =>
    let now := some x.loop.timers.clock
    { loop
      reset := if x.loop.restarts a then now else x.reset
      read := if x.loop.delivers a then now else x.read
      written := if x.loop.passesWriting a then now else x.written
      destroyed := if x.loop.establishes a then false else x.destroyed || x.loop.destroys a }

/-- Established, and neither closed nor destroyed. -/
def Established (x : Timed) : Prop := x.loop.IsOpen ∧ x.destroyed = false

/-- One idle timer is armed, for the end of the timeout since the last restart. -/
def OneIdleTimer (x : Timed) : Prop :=
  ∃ id t r, x.reset = some r ∧ x.loop.timers.queue.timer? id = some t ∧
    t.expiration = r + kTimeoutMicros ∧ ⟨t.expiration, id.timer⟩ ∈ x.loop.timers.queue.timers ∧
    ∀ id', x.loop.timers.Armed id' .onIdleTimeout ↔ id' = id

/-- Nothing has been read or written for the length of the timeout. -/
def Inactive (x : Timed) : Prop :=
  ∀ t, t ∈ x.read ∨ t ∈ x.written → t + kTimeoutMicros ≤ x.loop.timers.clock

/-- What holds in every state of a run. -/
structure Kept (x : Timed) : Prop where
  sound : x.loop.view.Sound
  rooted : x.loop.Rooted
  queue : .onIdleTimeout ∉ x.loop.queue
  wound : x.loop.Wound x.reset (x.destroyed || x.loop.timesOut)
  expired : x.loop.timesOut = true → ∀ r ∈ x.reset, r + kTimeoutMicros ≤ x.loop.timers.clock
  past : ∀ r ∈ x.reset, r ≤ x.loop.timers.clock
  active : ∀ t, t ∈ x.read ∨ t ∈ x.written → ∃ r ∈ x.reset, t ≤ r

/-- A new connection has no idle timer, and is not open. -/
theorem kept_start (fd : Nat) (callbacks : Callback → Bool) (disk : Bytes → Bytes) :
    (start fd callbacks disk).Kept where
  sound := TcpLoop.sound_start fd callbacks disk
  rooted := TcpLoop.rooted_start fd callbacks disk
  queue := by simp [TcpLoop.queue, start, TcpLoop.start]
  wound := by
    have hnone (id : TimerId) : ¬(start fd callbacks disk).loop.timers.Standing id .onIdleTimeout :=
      TimerLoop.not_standing_init 0
    refine ⟨TimerLoop.tidy_init 0 _, TimerLoop.punctual_init 0, ?_, ?_, ?_, fun _ ho => ?_⟩
    · intro seq node id hnode
      simp [TcpLoop.dial, start, TcpLoop.start] at hnode
    · exact fun id harmed => absurd (.inl harmed) (hnone id)
    · exact fun id _ hid => absurd hid (hnone id)
    · contradiction
  expired := nofun
  past := nofun
  active _ ht := by rcases ht with ht | ht <;> contradiction

/-- Every step keeps the idle timer wound. -/
theorem Kept.step {a : Action} (h : x.Kept) (hstep : x.step a = some x') : x'.Kept := by
  obtain ⟨loop, hloop, rfl⟩ := Option.map_eq_some_iff.mp hstep
  have hclock := TcpLoop.clock_le_of_step hloop
  refine ⟨TcpLoop.sound_effect h.sound (TcpLoop.effect_of_step h.sound.sized hloop),
    h.rooted.step hloop, fun hmem => ?_, h.wound.step h.rooted hloop, fun ht r hr => ?_,
    fun r hr => ?_, fun t ht => ?_⟩
  · rcases (TcpLoop.queues_of_step h.sound.sized hloop).mem hmem with hmem | hf
    · exact h.queue hmem
    · exact TcpLoop.functor_ne_onIdleTimeout hf rfl
  · obtain ⟨hquiet, hbefore⟩ := TcpLoop.timesOut_of_step h.wound h.queue hloop ht
    have hr : r ∈ x.reset := by simpa [hquiet] using hr
    rcases hbefore with hbefore | ⟨r', hr', hle⟩
    · exact (h.expired hbefore r hr).trans hclock
    · obtain rfl := Option.some.inj (hr.symm.trans hr')
      exact hle.trans hclock
  · refine le_trans ?_ hclock
    dsimp only at hr
    split at hr
    · obtain rfl := Option.some.inj hr
      exact le_rfl
    · exact h.past r hr
  · dsimp only at ht ⊢
    by_cases hactive : t = x.loop.timers.clock ∧ x.loop.restarts a = true
    · exact ⟨t, by rw [if_pos hactive.2, hactive.1]; rfl, le_rfl⟩
    · have hbefore : t ∈ x.read ∨ t ∈ x.written := by
        refine ht.imp (fun ht => ?_) fun ht => ?_
        · split at ht
          · rename_i hread
            obtain rfl := Option.some.inj ht
            exact absurd ⟨rfl, by simp [TcpLoop.restarts, hread]⟩ hactive
          · exact ht
        · split at ht
          · rename_i hwrite
            obtain rfl := Option.some.inj ht
            exact absurd ⟨rfl, by simp [TcpLoop.restarts, hwrite]⟩ hactive
          · exact ht
      obtain ⟨r, hr, hle⟩ := h.active t hbefore
      split
      · exact ⟨_, rfl, hle.trans (h.past r hr)⟩
      · exact ⟨r, hr, hle⟩

/-- In every state of a run the idle timer is wound. -/
theorem kept_of_run {fd : Nat} {callbacks : Callback → Bool} {disk : Bytes → Bytes}
    {as : List Action} (h : Run step anyStep (start fd callbacks disk) as x) : x.Kept :=
  h.invariant (kept_start fd callbacks disk) fun _ _ _ hx _ hstep => hx.step hstep

/-- Between callbacks a connection that is open has one idle timer, armed for the end of the timeout
since the last restart. -/
theorem Kept.oneIdleTimer (h : x.Kept) (hidle : x.loop.idle = true) (hopen : x.Established) :
    x.OneIdleTimer := by
  obtain ⟨hopen, hdestroyed⟩ := hopen
  have htimes := TcpLoop.timesOut_of_todo (TcpLoop.idle_iff.mp hidle).1
  have hbatch := h.rooted.batch_of_idle hidle
  obtain ⟨id, hid, hstanding⟩ := h.wound.standing (by simp [hdestroyed, htimes])
    (TcpLoop.isOpen_iff.mpr hopen)
  have harmed := (TimerLoop.standing_iff hbatch).mp hstanding
  obtain ⟨t, ht, -⟩ := hstanding.live
  obtain ⟨r, hr, he⟩ := h.wound.expires id t hstanding ht
  refine ⟨id, t, r, hr, ht, he, ?_, fun id' => ⟨fun harmed' => ?_, fun heq => heq ▸ harmed⟩⟩
  · obtain ⟨u, hu, -, hmem⟩ := h.wound.tidy.inv.owned.active.mp harmed.2
    obtain rfl := Option.some.inj (hu.symm.trans (TimerQueue.timer?_eq_some.mp ht).1)
    exact hmem
  · exact Option.some.inj ((h.wound.own id' harmed').symm.trans hid)

/-- In every run an open connection has one idle timer whenever the loop thread is in no callback,
armed for the end of the timeout since the last restart; and when `onIdleTimeout` is run, nothing
has been read or written for that long. -/
theorem idleTimeout_of_run {fd : Nat} {callbacks : Callback → Bool} {disk : Bytes → Bytes}
    {as : List Action} (h : Run step anyStep (start fd callbacks disk) as x) :
    (x.loop.idle = true → x.Established → x.OneIdleTimer) ∧
      (x.loop.todo = some .onIdleTimeout → x.Inactive) := by
  have hkept := kept_of_run h
  refine ⟨hkept.oneIdleTimer, fun htodo t ht => ?_⟩
  obtain ⟨r, hr, hle⟩ := hkept.active t ht
  have hexpired := hkept.expired (by simp [TcpLoop.timesOut, htodo]) r hr
  omega

/-- The timeout is over, but `poll` reports input as well, before the timers. -/
def readInTime : List Action :=
  establishing ++ [.ret, .tick 60000000, .poll [.conn, .timerQueue] { epollin := true }, .dispatch,
    .resume { timer := 2 }, .resume { timer := 2, read := .done [7] }, .ret, .resume { timer := 3 },
    .resume { timer := 3 }, .dispatch, .resume { timer := 3 }]

/-- Nothing happens until the timeout is over once more. -/
def inactive : List Action :=
  [.doPendingFuncs, .tick 60000000, .poll [.timerQueue] {}, .dispatch, .resume { timer := 3 }]

theorem idleTimeout_of_run_readInTime :
    (∃ x, Run step anyStep (start 7 (fun _ => true) id) readInTime x ∧ x.loop.idle = true ∧
      x.Established ∧ x.reset = some 60000000 ∧ x.OneIdleTimer) ∧
    ∃ x, Run step anyStep (start 7 (fun _ => true) id) (readInTime ++ inactive) x ∧
      x.loop.todo = some .onIdleTimeout ∧ x.read = some 60000000 ∧ x.Inactive := by
  have hread : (replay step anyStep (start 7 (fun _ => true) id) readInTime).map
      (fun x => (x.loop.idle, x.loop.conn.state, x.loop.aborted, x.destroyed, x.reset)) =
      some (true, .kConnected, false, false, some 60000000) := by
    decide +kernel
  have hinactive : (replay step anyStep (start 7 (fun _ => true) id) (readInTime ++ inactive)).map
      (fun x => (x.loop.todo, x.read)) = some (some .onIdleTimeout, some 60000000) := by
    decide +kernel
  constructor
  · obtain ⟨x, hx, he⟩ := Option.map_eq_some_iff.mp hread
    simp only [Prod.mk.injEq] at he
    obtain ⟨hidle, hstate, hlive, hdestroyed, hreset⟩ := he
    have hopen : x.Established := ⟨⟨.inl hstate, hlive⟩, hdestroyed⟩
    exact ⟨x, .of_replay hx, hidle, hopen, hreset,
      (idleTimeout_of_run (.of_replay hx)).1 hidle hopen⟩
  · obtain ⟨x, hx, he⟩ := Option.map_eq_some_iff.mp hinactive
    obtain ⟨htodo, hread⟩ := Prod.mk.inj he
    exact ⟨x, .of_replay hx, htodo, hread, (idleTimeout_of_run (.of_replay hx)).2 htodo⟩

end Timed

end ClearMoon.Tcp

import ClearMoon.Tcp.Held
import ClearMoon.Tcp.Send

/-!
# Retransmit timers

Every step of the loop keeps the timers of a connection matched with the ids that it keeps, unless
the lambda of `sendWithRetransmit` overwrites an entry whose timer is armed. So whenever the loop
thread runs no callback, the armed retransmit timers and the pending entries correspond one to one.
-/

namespace ClearMoon.Tcp

open ClearMoon.Net ClearMoon.Timer

namespace TcpLoop

variable {w : TcpLoop} {b : Nat}

def held (w : TcpLoop) : Held where
  timers := w.timers
  idleTimerId := w.conn.idleTimerId
  pendingRetrans := w.conn.pendingRetrans
  timeout := w.todo.bind Functor.timeout?
  frames := w.stack.filter Frame.ofTimers

abbrev Matched (w : TcpLoop) (b : Nat) : Prop := w.held.Matched b

/-! ## Timers are cancelled and added -/

/-- Cancelling by an id that may be invalid. -/
theorem cancel_spec {p : Task → Prop} (h : w.timers.Tidy p) (id : Option TimerId) :
    ∃ timers, w.cancel id = { w with timers } ∧ w.timers.Cancelled p (id = some ·) timers := by
  cases id with
  | none => exact ⟨w.timers, rfl, h.cancelled_none (by simp)⟩
  | some id =>
    have hc := h.cancelled id
    exact ⟨_, rfl, by simpa using hc⟩

/-- Cancelling by the ids of all entries. -/
theorem foldl_cancel_spec {p : Task → Prop} (nodes : List (Nat × RetransmitNode))
    (h : w.timers.Tidy p) :
    ∃ timers, nodes.foldl (fun w kv => w.cancel kv.2.entry.timerId) w = { w with timers } ∧
      w.timers.Cancelled p (fun id => ∃ kv ∈ nodes, kv.2.entry.timerId = some id) timers := by
  induction nodes generalizing w with
  | nil => exact ⟨w.timers, rfl, h.cancelled_none (by simp)⟩
  | cons kv nodes ih =>
    obtain ⟨timers, hcancel, hc⟩ := cancel_spec h kv.2.entry.timerId
    obtain ⟨timers', hrest, hc'⟩ := ih (w := { w with timers }) hc.tidy
    refine ⟨timers', ?_, ?_⟩
    · rw [List.foldl_cons, hcancel, hrest]
    · simpa using hc.trans hc'

/-- A timer that is added gets the next serial. -/
theorem runAfter_spec {p : Task → Prop} (h : w.timers.Tidy p) {timer : Addr}
    (ha : w.timers.AddressOk timer) (micros : Int) (cb : Task) :
    ∃ timers, w.runAfter micros cb timer =
        (some ⟨timer, w.timers.queue.heap.born⟩, { w with timers }) ∧
      w.timers.Added p ⟨timer, w.timers.queue.heap.born⟩ cb timers := by
  refine ⟨_, dif_pos ha.free, ?_⟩
  exact h.added ha fun _ => rfl

/-! ## Operations that leave the timers alone -/

@[simp] theorem held_note (e : Event) : (w.note e).held = w.held := rfl

/-- A frame of user code holds no timer. -/
theorem held_push {frame : Frame} (h : frame.ofTimers = false) :
    (w.push frame).held = w.held := by
  unfold held push
  rw [List.filter_cons_of_neg (by simp [h])]

@[simp] theorem held_invoke (cb : Callback) : (w.invoke cb).held = w.held := by
  rw [invoke]
  split
  · exact held_push rfl
  · rfl

/-- Handing over what is run next, unless a timeout is. -/
theorem held_runInLoop {f : Functor} (h : w.held.timeout = none) (hf : f.timeout? = none)
    (inThread : Bool) : (w.runInLoop inThread f).held = w.held := by
  cases inThread with
  | false => rfl
  | true =>
    change { w.held with timeout := f.timeout? } = w.held
    rw [hf, ← h]

theorem held_dropFile : w.dropFile.held = w.held := by
  obtain ⟨files, h⟩ := w.closeFile_frame
  rw [dropFile, h]
  rfl

theorem held_openFile (filePath : Bytes) (fd : Addr) :
    (w.openFile filePath fd).held = w.held := by
  rw [openFile]
  split <;> rfl

theorem held_appendOutput (rest : Bytes) : (w.appendOutput rest).held = w.held := by
  rw [appendOutput]
  split
  · rfl
  · dsimp only
    split <;> rfl

/-- What is left of a message may put a shutdown in place of what is run next. -/
theorem held_sendRest (h : w.held.timeout = none) (rest : Bytes) :
    (w.sendRest rest).held = w.held := by
  have happend := w.held_appendOutput rest
  rw [sendRest]
  split
  · rw [held_runInLoop (by rwa [happend]) rfl, happend]
  · exact happend

/-- Sending holds nothing of the timers. -/
theorem held_sendInLoop (h : w.held.timeout = none) (data : Bytes) (env : Env) :
    (w.sendInLoop data env).held = w.held := by
  have hrest {v : TcpLoop} (hv : v.held = w.held) (rest : Bytes) :
      (v.sendRest rest).held = w.held := by
    rw [held_sendRest (by rwa [hv]), hv]
  rw [sendInLoop]
  split
  · rfl
  · dsimp only
    split
    · split
      · split
        · exact held_invoke _
        · exact hrest (v := (w.note _).note _) rfl _
      · exact hrest (v := w.note _) rfl _
      · exact hrest (v := w.note _) rfl _
    · exact hrest (v := w.note _) rfl _

/-- Nor does `send`. -/
theorem held_send (h : w.held.timeout = none) (inThread : Bool) (data : Bytes) :
    (w.send inThread data).held = w.held := by
  rw [send]
  split
  · rfl
  · exact held_runInLoop (w := w.note _) (f := .sendInLoop data) h rfl inThread

/-- Nor does a call of the user. -/
theorem held_call (h : w.held.timeout = none) (inThread : Bool) (c : ConnCall) :
    (w.call inThread c).held = w.held := by
  cases c with
  | send data => exact held_send h inThread data
  | sendFile filePath =>
    rw [call, sendFile]
    split
    · rfl
    · exact held_runInLoop (w := w.note _) (f := .sendFileInLoop filePath) h rfl inThread
  | shutdown =>
    rw [call, shutdown]
    split
    · exact held_runInLoop (w := (w.setState .kDisConnecting).note .shutdown)
        (f := .shutdownInLoop) h rfl inThread
    · rfl
  | forceClose =>
    rw [call, forceClose]
    split
    · exact held_runInLoop (w := w.setState .kDisConnecting) (f := .forceCloseInLoop) h rfl
        inThread
    · rfl
  | sendWithRetransmit data seq => exact held_runInLoop (f := .sendFunc data seq) h rfl inThread
  | ackReceived seq => exact held_runInLoop (f := .ackReceived seq) h rfl inThread

/-! ## The idle timer -/

/-- The ids of the connection's timers do not get mixed up. -/
theorem Matched.not_live_idle (h : w.Matched b) {id : TimerId} (hid : w.conn.idleTimerId = some id)
    (seq : Nat) : ¬w.held.Live seq id := by
  intro hlive
  have := (h.idle_issued id hid).of_armed hlive
  contradiction

/-- Without its id the idle timer is not armed. -/
theorem Matched.cancelIdleTimer (h : w.Matched b) : w.cancelIdleTimer.Matched b := by
  obtain ⟨timers, hcancel, hc⟩ := cancel_spec h.tidy w.conn.idleTimerId
  rw [TcpLoop.cancelIdleTimer, hcancel]
  refine Held.Matched.cancelled h hc (fun seq id hid => h.not_live_idle hid seq) ?_ ?_
  · intro id hid
    contradiction
  · intro id hid hout
    exact absurd hid hout

/-- The idle timer that is started has the id that is kept. -/
theorem Matched.resetIdleTimer (h : w.Matched b) {env : Env}
    (ha : w.timers.AddressOk env.timer) : (w.resetIdleTimer env).Matched b := by
  obtain ⟨timers, hcancel, hc⟩ := cancel_spec h.tidy w.conn.idleTimerId
  have hidle := h.cancelIdleTimer
  have hw : w.cancelIdleTimer = { w with timers, conn.idleTimerId := none } := by
    rw [TcpLoop.cancelIdleTimer, hcancel]
  rw [TcpLoop.resetIdleTimer]
  rw [hw] at hidle ⊢
  obtain ⟨timers', hadd, had⟩ := runAfter_spec (w := { w with timers, conn.idleTimerId := none })
    hidle.tidy (hc.address ha) kTimeoutMicros .onIdleTimeout
  rw [hadd]
  refine Held.Matched.retime hidle (by rw [had.batch]; exact id) had.tidy had.keeps ?_ ?_ ?_ ?_
  · intro id hid
    obtain rfl := Option.some.inj hid
    exact had.issued
  · intro id harmed
    rcases (had.armed id _).mp harmed with ⟨rfl, -⟩ | harmed
    · rfl
    · exact absurd (hidle.idle_armed id harmed) (by simp [held])
  · intro seq id
    rw [had.armed]
    exact or_iff_right (by simp)
  · exact fun seq id => had.due id _

/-! ## The retransmit timers -/

/-- All entries and their timers are dropped. -/
theorem Matched.clearRetrans (h : w.Matched b) : w.clearRetrans.Matched b := by
  obtain ⟨timers, hcancel, hc⟩ := foldl_cancel_spec w.conn.pendingRetrans.toList h.tidy
  rw [TcpLoop.clearRetrans, hcancel]
  have hnone (seq : Nat) (id : TimerId) : ¬timers.Armed id (.onRetransmitTimeout seq) := by
    intro harmed
    obtain ⟨hlive, hout⟩ := (hc.armed id _).mp harmed
    obtain ⟨node, hnode, hid⟩ := (h.paired seq).armed id hlive
    exact hout ⟨(seq, node), Std.ExtTreeMap.mem_toList_iff_getElem?_eq_some.mpr hnode, hid⟩
  refine ⟨h.shaped.same hc.batch id rfl, hc.tidy,
    fun id hid => (h.idle_issued id hid).keeps hc.keeps, ?_, fun seq => ?_⟩
  · intro id harmed
    exact h.idle_armed id ((hc.armed id _).mp harmed).1
  · have hfired (id : TimerId) :
        timers.Due id (.onRetransmitTimeout seq) ↔ w.held.Fired seq id := hc.due id _
    refine Held.Paired.none (by simp [held]) (hnone seq) ?_ ?_
    · intro id id' hid hid'
      exact (h.paired seq).one id id' ((hfired id).mp hid) ((hfired id').mp hid')
    · intro hrun id hid
      exact (h.paired seq).alone hrun id ((hfired id).mp hid)

/-- The entry goes, and its timer with it. -/
theorem Matched.ackReceived (h : w.Matched b) (seq : Nat) : (w.ackReceived seq).Matched b := by
  rw [TcpLoop.ackReceived]
  split
  · exact h
  · rename_i node hnode
    have hp := h.paired seq
    obtain ⟨timers, hcancel, hc⟩ := cancel_spec h.tidy node.entry.timerId
    rw [hcancel]
    refine Held.Matched.erase h hc.batch hc.tidy hc.keeps ?_ ?_ ?_ fun k id => hc.due id _
    · exact fun id hid => ((hc.armed id _).mp hid).1
    · intro id hid
      obtain ⟨hlive, hout⟩ := (hc.armed id _).mp hid
      obtain ⟨node', hnode', hid'⟩ := hp.armed id hlive
      obtain rfl := Option.some.inj (hnode.symm.trans hnode')
      exact hout hid'
    · intro k hk id
      rw [hc.armed]
      exact and_iff_left_of_imp fun hlive hid => hp.not_live hnode hid hk hlive

/-- No entry of the number has an armed timer. -/
def Unarmed (w : TcpLoop) (seq : Nat) : Prop :=
  ∀ node ∈ w.conn.pendingRetrans[seq]?, ∀ id ∈ node.entry.timerId,
    (⟨id.sequence, id.timer⟩ : ActiveTimer) ∉ w.timers.queue.activeTimers

instance (w : TcpLoop) (seq : Nat) : Decidable (w.Unarmed seq) :=
  decidable_of_iff ((w.conn.pendingRetrans[seq]?.all fun node => node.entry.timerId.all fun id =>
    decide ((⟨id.sequence, id.timer⟩ : ActiveTimer) ∉ w.timers.queue.activeTimers)) = true)
    (by simp [Unarmed, Option.all_eq_true])

/-- A new entry, or a new one in the place of one whose timer is not armed. -/
theorem Matched.sendFuncEnd (h : w.Matched b) {data : Bytes} {seq : Nat} {env : Env}
    (ha : w.timers.AddressOk env.timer) (hfree : w.Unarmed seq) :
    (w.sendFuncEnd data seq env).Matched b := by
  have hp := h.paired seq
  have hnone (id : TimerId) : ¬w.held.Live seq id := by
    intro hlive
    obtain ⟨node, hnode, hid⟩ := hp.armed id hlive
    exact hfree node hnode id hid hlive.2
  have harm (v : TcpLoop) (hv : v.held = w.held) (n : Nat) :
      (v.resetRetransmitTimer ⟨n, { seq, data }⟩ env).Matched b := by
    have hvm : v.Matched b := by rwa [Matched, hv]
    have hva : v.timers.AddressOk env.timer := by
      rwa [show v.timers = _ from congrArg Held.timers hv]
    obtain ⟨timers, hcancel, hc⟩ := cancel_spec hvm.tidy none
    rw [resetRetransmitTimer, hcancel]
    dsimp only
    generalize (↑(caculate_backoff_jitter _ _ _ _) * 1000 : Int) = micros
    obtain ⟨timers', hadd, had⟩ := runAfter_spec (w := { v with timers }) hc.tidy (hc.address hva)
      micros (.onRetransmitTimeout seq)
    rw [hadd]
    refine @Held.Matched.rearm v.held _ _ hvm ⟨n, { seq, data }⟩ _ _ _ _ rfl hc had ?_ ?_
      (fun _ => rfl) (.inl rfl) ⟨Nat.zero_le b, hvm.shaped.begun_of_busy⟩
    · intro id hid
      contradiction
    · intro id hlive
      rw [hv] at hlive
      exact absurd hlive (hnone id)
  rw [TcpLoop.sendFuncEnd]
  split
  · rename_i node _
    exact harm w rfl node.id
  · exact harm { w with nextNode := w.nextNode + 1 } rfl w.nextNode

/-- An entry whose data has been handed over again gets a new timer, if it is still there. -/
theorem Matched.onRetransmitTimeoutEnd {rest : List Frame} {seq n : Nat} {env : Env}
    (h : w.Matched b) (hstack : w.stack = .onRetransmitTimeout seq n :: rest)
    (htodo : w.todo = none)
    (ha : w.timers.AddressOk env.timer)
    (hfinds : w.conn.pendingRetrans[seq]?.map RetransmitNode.id = some n) :
    ({ w with stack := rest }.onRetransmitTimeoutEnd seq n env).Matched b := by
  have hp := h.paired seq
  have hframes : w.held.frames = .onRetransmitTimeout seq n :: rest.filter Frame.ofTimers := by
    change w.stack.filter Frame.ofTimers = _
    rw [hstack]
    rfl
  obtain ⟨node, hnode, hid⟩ := Option.map_eq_some_iff.mp hfinds
  have hseq : node.entry.seq = seq := hp.key node hnode
  have hnot (id : TimerId) : ¬w.held.Fired seq id :=
    hp.alone (.inr ⟨n, hframes ▸ List.mem_cons_self⟩) id
  have htimeout : w.held.timeout = none := by
    rw [held, htodo]
    rfl
  have hfound : { w with stack := rest }.conn.pendingRetrans[seq]? = some node := hnode
  obtain ⟨timers, hcancel, hc⟩ :=
    cancel_spec (w := { w with stack := rest }) h.tidy node.entry.timerId
  rw [TcpLoop.onRetransmitTimeoutEnd, hfound]
  dsimp only
  rw [if_neg (not_not.mpr hid), resetRetransmitTimer, hcancel]
  dsimp only
  generalize (↑(caculate_backoff_jitter _ _ _ _) * 1000 : Int) = micros
  obtain ⟨timers', hadd, had⟩ := runAfter_spec (w := { w with stack := rest, timers }) hc.tidy
    (hc.address ha) micros (.onRetransmitTimeout node.entry.seq)
  rw [hadd]
  subst hseq
  refine @Held.Matched.rearm w.held _ _ h
    { node with entry.retries := node.entry.retries + 1 } _ _ _ _ rfl hc had
    (hp.issued node hnode) ?_ ?_ (.inr ⟨n, hframes⟩) ⟨?_, ?_⟩
  · intro id hlive
    obtain ⟨node', hnode', hid'⟩ := hp.armed id hlive
    obtain rfl := Option.some.inj (hnode.symm.trans hnode')
    exact hid'
  · rintro (ht | ⟨id, hfired⟩)
    · rw [htimeout] at ht
      contradiction
    · exact absurd hfired (hnot id)
  · exact (hp.paced node hnode).2 (.inr (.inr ⟨n, hframes ▸ List.mem_cons_self⟩))
  · rintro (ht | ⟨id, hfired⟩ | ⟨m, hm⟩)
    · have ht : w.held.timeout = some node.entry.seq := ht
      rw [htimeout] at ht
      contradiction
    · exact absurd hfired (hnot id)
    · rw [h.shaped.bottom hframes] at hm
      simp at hm

/-! ## Closing -/

/-- A close cancels what the ids are of, and forgets the ids. -/
theorem Matched.handleClose (h : w.Matched b) : w.handleClose.Matched b := by
  have hclosed : ({ (w.setState .kDisConnected).removeChannel.dropFile with
      conn.fileSentOffset := 0, conn.fileTotalSize := 0 }.cancelIdleTimer.clearRetrans.invoke
        .close).Matched b := by
    have hdrop : ((w.setState .kDisConnected).removeChannel.dropFile).Matched b := by
      rw [Matched, held_dropFile]
      exact h
    rw [Matched, held_invoke]
    exact Matched.clearRetrans (Matched.cancelIdleTimer hdrop)
  rw [TcpLoop.handleClose]
  split
  · exact h
  · exact h
  · exact hclosed
  · exact hclosed

/-- So does a close by force. -/
theorem Matched.forceCloseInLoop (h : w.Matched b) : w.forceCloseInLoop.Matched b := by
  rw [TcpLoop.forceCloseInLoop]
  split
  · exact h.handleClose
  · exact h

/-- So does a shutdown that comes to a close. -/
theorem Matched.shutdownInLoop (h : w.Matched b) : w.shutdownInLoop.Matched b := by
  have hshut : w.shutdownWrite.Matched b := h
  rw [TcpLoop.shutdownInLoop]
  split
  · exact hshut.handleClose
  · exact hshut

/-- A connection that is established gets its idle timer. -/
theorem Matched.connectEstablelished (h : w.Matched b) {env : Env}
    (ha : w.timers.AddressOk env.timer) : (w.connectEstablelished env).Matched b := by
  rw [TcpLoop.connectEstablelished]
  split
  · exact h
  · rw [Matched, held_invoke]
    exact Matched.resetIdleTimer (w := w.enableReading.setState .kConnected) h ha

/-- One that is destroyed loses its timers. -/
theorem Matched.connectDestroyed (h : w.Matched b) : w.connectDestroyed.Matched b := by
  have hclear {v : TcpLoop} (hv : v.Matched b) :
      v.cancelIdleTimer.clearRetrans.removeChannel.Matched b := hv.cancelIdleTimer.clearRetrans
  rw [TcpLoop.connectDestroyed]
  split
  · exact hclear (v := w.setState .kDisConnected) h
  · exact hclear h

/-- A file that cannot be opened closes the connection. -/
theorem Matched.sendFileInLoop (h : w.Matched b) (filePath : Bytes) (env : Env) :
    (w.sendFileInLoop filePath env).Matched b := by
  have hopened (fd : Addr) :
      ((w.note (.taken (.file filePath))).openFile filePath fd).Matched b := by
    rw [Matched, held_openFile]
    exact h
  rw [TcpLoop.sendFileInLoop]
  split
  · exact h
  · dsimp only
    split
    · exact Matched.forceCloseInLoop (w := w.note _) h
    · rename_i fd _
      have hfreed := hopened fd
      generalize (w.note (.taken (.file filePath))).openFile filePath fd = v at hfreed ⊢
      exact Matched.forceCloseInLoop (w := { v with files := v.files.free fd }) hfreed
    · rename_i fd _
      exact hopened fd

/-- The timeout of a number: its entry is given up, or handed over once more. -/
theorem Matched.onRetransmitTimeout {seq : Nat} (h : w.Matched b)
    (htodo : w.todo = some (.onRetransmitTimeout seq)) :
    (w.clearTodo.onRetransmitTimeout seq).Matched b := by
  have htimeout : w.held.timeout = some seq := by
    rw [held, htodo]
    rfl
  have hp := h.paired seq
  rw [TcpLoop.onRetransmitTimeout]
  split
  · rename_i hnone
    exact Held.Matched.settled h htimeout hnone
  · rename_i node hnode
    have hnode : w.conn.pendingRetrans[seq]? = some node := hnode
    split
    · rename_i hretries
      have hnone (id : TimerId) : ¬w.held.Live seq id := by
        intro hlive
        obtain ⟨node', hnode', hid⟩ := hp.armed id hlive
        have hzero := hp.stale (.inl htimeout) node' hnode' id hid hlive
        obtain rfl := Option.some.inj (hnode.symm.trans hnode')
        rw [hzero] at hretries
        contradiction
      have herase := Held.Matched.erase h rfl h.tidy (.ofDeletes rfl fun ht => ht)
        (fun _ hid => hid)
        hnone (fun _ _ _ => Iff.rfl) fun _ _ => Iff.rfl
      refine Matched.forceCloseInLoop
        (w := { w.clearTodo with conn.pendingRetrans := w.conn.pendingRetrans.erase seq }) ?_
      refine Held.Matched.settled herase htimeout ?_
      simp [held]
    · have hresent := Held.Matched.resent h htimeout hnode
      have hheld {v : TcpLoop} (hv : v.timers = w.timers ∧ v.conn.idleTimerId = w.conn.idleTimerId ∧
          v.conn.pendingRetrans = w.conn.pendingRetrans ∧
          v.stack = .onRetransmitTimeout seq node.id :: w.stack) :
          { v with todo := some (.sendInLoop node.entry.data) }.Matched b := by
        obtain ⟨htimers, hidle, hpending, hstack⟩ := hv
        rw [Matched, held]
        dsimp only
        rw [htimers, hidle, hpending, hstack]
        exact hresent
      dsimp only
      split
      · exact hheld ⟨rfl, rfl, rfl, rfl⟩
      · exact hheld ⟨rfl, rfl, rfl, rfl⟩

/-! ## Events -/

/-- A read restarts the idle timer, or closes the connection. -/
theorem Matched.handleRead (h : w.Matched b) {env : Env} (ha : w.timers.AddressOk env.timer) :
    (w.handleRead env).Matched b := by
  rw [TcpLoop.handleRead]
  split
  · exact h.handleClose
  · rename_i data _ _
    rw [Matched, held_invoke]
    exact Matched.resetIdleTimer
      (w := { w with conn.readBuffer := w.conn.readBuffer.readFd data }) h ha
  · exact h
  · exact h.handleClose

/-- What is sent of a file concerns no timer. -/
theorem Matched.sendfile (h : w.Matched b) (n : Nat) : (w.sendfile n).Matched b := by
  rw [TcpLoop.sendfile]
  generalize w.unsent.take (min n chunkSize) = sent
  dsimp only
  split
  · exact h
  · generalize hv : { w with conn.fileSentOffset := w.conn.fileSentOffset + sent.length }.note
      (.sentFile sent) = v
    have hheld : v.held = w.held := by rw [← hv]; rfl
    split
    · have hdrop : v.dropFile.disableWriting.held = w.held := (held_dropFile).trans hheld
      rwa [Matched, held_invoke, hdrop]
    · rwa [Matched, hheld]

/-- A write that fails closes the connection. -/
theorem Matched.handleWriteBuffer (h : w.Matched b) (env : Env) :
    (w.handleWriteBuffer env).Matched b := by
  rw [TcpLoop.handleWriteBuffer]
  split
  · split
    · rename_i n _
      have hpush : (w.push .handleWriteEnd).held = w.held := held_push rfl
      rw [Matched, held_invoke]
      split
      · change (w.push .handleWriteEnd).held.Matched b
        rwa [hpush]
      · change (w.push .handleWriteEnd).held.Matched b
        rwa [hpush]
    · exact h
    · exact h.handleClose
    · exact h.handleClose
  · exact h

/-- So does a transfer that fails. -/
theorem Matched.handleWriteFile (h : w.Matched b) (env : Env) :
    (w.handleWriteFile env).Matched b := by
  rw [TcpLoop.handleWriteFile]
  split
  · split
    · exact h.sendfile _
    · exact h
    · have hdrop : w.dropFile.disableWriting.Matched b := by
        change w.dropFile.held.Matched b
        rwa [held_dropFile]
      exact hdrop.handleClose
  · exact h.handleWriteBuffer env

/-- `handleWrite` restarts the idle timer before anything else. -/
theorem Matched.handleWrite (h : w.Matched b) {env : Env} (ha : w.timers.AddressOk env.timer) :
    (w.handleWrite env).Matched b := by
  rw [TcpLoop.handleWrite]
  split
  · exact h
  · have hidle := h.resetIdleTimer ha
    generalize w.resetIdleTimer env = v at hidle ⊢
    have hpush : (v.push .handleWrite).Matched b := by rwa [Matched, held_push rfl]
    dsimp only
    split
    · split
      · rename_i n _
        rw [Matched, held_invoke]
        split
        · exact hpush
        · exact hpush
      · exact hpush
      · exact hpush.handleClose
      · exact hpush.handleClose
    · exact hidle.handleWriteFile env

/-- The tests of `handleEvent` come to one of these. -/
theorem Matched.handleEvent (h : w.Matched b) {env : Env} (ha : w.timers.AddressOk env.timer)
    (stage : EventStage) : (w.handleEvent env stage).Matched b := by
  have hpush (stage : EventStage) : (w.push (.handleEvent stage)).Matched b := by
    rwa [Matched, held_push rfl]
  cases stage with
  | error =>
    rw [TcpLoop.handleEvent]
    split
    · exact (hpush .read).handleClose
    · exact hpush .read
  | read =>
    rw [TcpLoop.handleEvent]
    split
    · exact (hpush .hup).handleRead ha
    · exact hpush .hup
  | hup =>
    rw [TcpLoop.handleEvent]
    split
    · exact (hpush .write).handleClose
    · exact hpush .write
  | write =>
    rw [TcpLoop.handleEvent]
    split
    · exact h.handleWrite ha
    · exact h

/-! ## Runs -/

theorem idle_iff : w.idle = true ↔ w.todo = none ∧ w.stack = [] := by
  simp [idle]

/-- The functors match as well. -/
theorem Matched.run {f : Functor} (h : w.Matched b) (htodo : w.todo = some f) {env : Env}
    (ha : w.timers.AddressOk env.timer) : (w.clearTodo.run env f).Matched b := by
  have hclear (hf : f.timeout? = none) : w.clearTodo.held = w.held := by
    have hnone : w.held.timeout = none := by
      rw [held, htodo]
      exact hf
    change { w.held with timeout := none } = w.held
    rw [← hnone]
  have hquiet (hf : f.timeout? = none) : w.clearTodo.Matched b := by rwa [Matched, hclear hf]
  cases f with
  | connectEstablelished => exact (hquiet rfl).connectEstablelished ha
  | connectDestroyed => exact (hquiet rfl).connectDestroyed
  | sendInLoop data =>
    rw [TcpLoop.run, Matched, held_sendInLoop rfl]
    exact hquiet rfl
  | sendFileInLoop filePath => exact (hquiet rfl).sendFileInLoop filePath env
  | shutdownInLoop => exact (hquiet rfl).shutdownInLoop
  | forceCloseInLoop => exact (hquiet rfl).forceCloseInLoop
  | sendFunc data seq =>
    have hpush : (w.clearTodo.push (.sendFunc data seq)).held = w.clearTodo.held := held_push rfl
    rw [TcpLoop.run, sendFunc, Matched, held_send rfl, hpush]
    exact hquiet rfl
  | ackReceived seq => exact (hquiet rfl).ackReceived seq
  | onIdleTimeout => exact (hquiet rfl).forceCloseInLoop
  | onRetransmitTimeout seq => exact h.onRetransmitTimeout htodo
  | user =>
    rw [TcpLoop.run, Matched, held_push rfl]
    exact hquiet rfl

/-- The loop of `TimerQueue::handleRead` goes on. -/
theorem Matched.handleTimers {rest : List Frame} {w' : TcpLoop} (h : w.Matched b)
    (hstack : w.stack = .timerQueue :: rest) (htodo : w.todo = none)
    (hr : { w with stack := rest }.handleTimers = some w') : w'.Matched b := by
  have htimeout : w.held.timeout = none := by
    rw [held, htodo]
    rfl
  have hcons : w.held.frames = .timerQueue :: rest.filter Frame.ofTimers := by
    change w.stack.filter Frame.ofTimers = _
    rw [hstack]
    rfl
  have hframes : w.held.frames = [.timerQueue] := by
    obtain hnil | hone | ⟨seq, n, htwo⟩ := h.shaped.frames
    · rw [hnil] at hcons
      contradiction
    · exact hone
    · rw [htwo] at hcons
      exact absurd (List.cons.inj hcons).1 (by simp)
  have hrest : rest.filter Frame.ofTimers = [] := by
    rw [hframes] at hcons
    exact (List.cons.inj hcons).2.symm
  have hpush (timers : TimerLoop Task) (todo : Option Functor) :
      ({ w with stack := rest, timers, todo }.push .timerQueue).held =
        { w.held with timers, timeout := todo.bind Functor.timeout? } := by
    change Held.mk timers _ _ _ ((Frame.timerQueue :: rest).filter _) = Held.mk timers _ _ _ _
    rw [← hstack]
    rfl
  unfold TcpLoop.handleTimers at hr
  split at hr
  · contradiction
  · obtain ⟨timers, hstep, rfl⟩ := Option.map_eq_some_iff.mp hr
    obtain ⟨htidy, harmed, hdue⟩ := h.tidy.callbackReturns hstep
    have hkeeps := TimerLoop.keeps_of_step hstep
    have hbatch : w.timers.batch.isSome := by
      cases TimerLoop.moves_of_step hstep with
      | callbackReturns hb => exact Option.isSome_of_eq_some hb
    rw [Matched, hpush timers w.todo]
    exact Held.Matched.retime h (fun _ => hbatch) htidy hkeeps
      (fun id hid => (h.idle_issued id hid).keeps hkeeps)
      (fun id hid => h.idle_armed id ((harmed id _).mp hid)) (fun _ id => harmed id _)
      fun _ id => hdue id _
  · rename_i hb
    obtain ⟨timers, hstep, rfl⟩ := Option.map_eq_some_iff.mp hr
    rw [Matched, hpush]
    exact Held.Matched.nextEntry h hb hstep htimeout hframes
  · obtain ⟨timers, hstep, rfl⟩ := Option.map_eq_some_iff.mp hr
    obtain ⟨htidy, harmed, hnone, hb⟩ := h.tidy.endBatch hstep
    have hkeeps := TimerLoop.keeps_of_step hstep
    have hretimed := @Held.Matched.retime _ _ h timers w.conn.idleTimerId
      (by simp [hb]) htidy hkeeps (fun id hid => (h.idle_issued id hid).keeps hkeeps)
      (fun id hid => h.idle_armed id ((harmed id _ (by simp)).mp hid))
      (fun _ id => harmed id _ (by simp)) fun _ id =>
        iff_of_false (by rw [TimerLoop.Due]; exact TimerLoop.not_due_of_batch hb) (hnone id _)
    refine ⟨⟨.inl hrest, fun hsome => ?_, fun hne => absurd hrest hne,
      fun ht => absurd htimeout ht⟩, htidy,
      hretimed.idle_issued, hretimed.idle_armed, fun seq => ?_⟩
    · have hsome : timers.batch.isSome = true := hsome
      rw [hb] at hsome
      contradiction
    · refine (hretimed.paired seq).same (.ofDeletes rfl fun ht => ht) rfl (fun _ => Iff.rfl)
        (fun _ => Iff.rfl) Iff.rfl fun n => ?_
      change _ ∈ rest.filter Frame.ofTimers ↔ _ ∈ w.held.frames
      rw [hrest, hframes]
      simp

/-- Code that goes on matches, if the lambda overwrites no armed timer and the timeout finds its
entry. -/
theorem Matched.resumeFrame {env : Env} {frame : Frame} {rest : List Frame} {w' : TcpLoop}
    (h : w.Matched b) (htodo : w.todo = none) (hstack : w.stack = frame :: rest)
    (ha : w.timers.AddressOk env.timer)
    (hfree : ∀ data seq, frame = .sendFunc data seq → w.Unarmed seq)
    (hfinds : ∀ seq n, frame = .onRetransmitTimeout seq n →
      w.conn.pendingRetrans[seq]?.map RetransmitNode.id = some n)
    (hr : { w with stack := rest }.resumeFrame env frame = some w') : w'.Matched b := by
  have hpop (hf : frame.ofTimers = false) : Matched { w with stack := rest } b := by
    have hsame : { w with stack := rest }.held = w.held := by
      unfold held
      rw [hstack, List.filter_cons_of_neg (by simp [hf])]
    rwa [Matched, hsame]
  cases frame with
  | user cb => contradiction
  | handleEvent stage =>
    obtain rfl := Option.some.inj hr
    exact (hpop rfl).handleEvent ha stage
  | handleWrite =>
    obtain rfl := Option.some.inj hr
    rw [handleWriteRest]
    split
    · exact hpop rfl
    · exact (hpop rfl).handleWriteFile env
  | handleWriteEnd =>
    obtain rfl := Option.some.inj hr
    have hnone : { w with stack := rest }.held.timeout = none := by
      rw [held]
      dsimp only
      rw [htodo]
      rfl
    rw [handleWriteEnd]
    split
    · rw [Matched, held_runInLoop hnone rfl]
      exact hpop rfl
    · exact hpop rfl
  | sendFunc data seq =>
    obtain rfl := Option.some.inj hr
    exact (hpop rfl).sendFuncEnd ha (hfree data seq rfl)
  | onRetransmitTimeout seq n =>
    obtain rfl := Option.some.inj hr
    exact h.onRetransmitTimeoutEnd hstack htodo ha (hfinds seq n rfl)
  | timerQueue => exact h.handleTimers hstack htodo hr

/-- User code has nothing of the connection's to run. -/
theorem timeout_of_inUserCode (h : w.inUserCode = true) : w.held.timeout = none := by
  rw [inUserCode, Bool.and_eq_true, Option.isNone_iff_eq_none] at h
  rw [held, h.1]
  rfl

/-- The user's timers are not the connection's. -/
theorem user_of_isUserTimer {id : TimerId} (hid : w.isUserTimer id = true) {cb : Task}
    (harmed : w.timers.Armed id cb) : cb = .user := by
  obtain ⟨⟨t, ht, rfl⟩, -⟩ := harmed
  obtain ⟨ht, hseq⟩ := TimerQueue.timer?_eq_some.mp ht
  rw [isUserTimer, ht] at hid
  simpa [hseq] using hid

/-- A timer of the user's is cancelled. -/
theorem Matched.cancelTimer (h : w.Matched b) {id : TimerId} (hid : w.isUserTimer id = true) :
    Matched { w with timers.queue := w.timers.queue.cancelInLoop id } b := by
  refine Held.Matched.cancelled h (h.tidy.cancelled id) ?_ (fun _ hi => hi) fun _ hi _ => hi
  rintro seq i rfl hlive
  have := user_of_isUserTimer hid hlive
  contradiction

/-- The batches that begin in a step. -/
def begins (w : TcpLoop) (a : Action) : Nat :=
  match a, w.activeChannels with
  | .dispatch, .timerQueue :: _ => 1
  | _, _ => 0

/-- A call of `onRetransmitTimeout` that comes back from `sendInLoop` has a reference to a node that
is still in the map. -/
def FindsEntry (w : TcpLoop) (a : Action) : Prop :=
  match a, w.stack with
  | .resume _, .onRetransmitTimeout seq node :: _ =>
    (w.conn.pendingRetrans[seq]?).map RetransmitNode.id = some node
  | _, _ => True

instance (w : TcpLoop) (a : Action) : Decidable (w.FindsEntry a) := by
  unfold FindsEntry
  split <;> infer_instance

/-- No entry is overwritten while its timer is armed, and none is erased while `onRetransmitTimeout`
has a reference to it. -/
def OneTimer (w : TcpLoop) (a : Action) : Prop :=
  match a, w.stack with
  | .resume _, .sendFunc _ seq :: _ => w.Unarmed seq
  | .resume _, .onRetransmitTimeout seq node :: _ =>
    (w.conn.pendingRetrans[seq]?).map RetransmitNode.id = some node
  | _, _ => True

instance (w : TcpLoop) (a : Action) : Decidable (w.OneTimer a) := by
  unfold OneTimer
  split <;> infer_instance

/-- What the condition asks of the lambda and of the timeout. -/
theorem oneTimer_of {a : Action}
    (hfree : ∀ env data seq rest, a = .resume env → w.stack = .sendFunc data seq :: rest →
      w.Unarmed seq)
    (hfinds : w.FindsEntry a) : w.OneTimer a := by
  unfold FindsEntry at hfinds
  unfold OneTimer
  split
  · rename_i env data seq rest hstack
    exact hfree env data seq rest rfl hstack
  · rename_i env seq node rest hstack
    simpa [hstack] using hfinds
  · trivial

/-- A step keeps the ids matched, unless it overwrites an entry whose timer is armed or follows a
reference to an entry that is gone. -/
theorem Matched.step {a : Action} {w' : TcpLoop} (h : w.Matched b)
    (hqueue : ∀ f ∈ w.queue, f.timeout? = none) (hone : w.OneTimer a)
    (hstep : w.step a = some w') : w'.Matched (b + w.begins a) := by
  cases stepped_of_step hstep with
  | poll hidle hfunc hready hw' =>
    rcases hw' with rfl | rfl
    · exact h
    · exact h
  | event hidle hactive =>
    rw [Matched, held_push rfl, show w.begins .dispatch = 0 by simp [begins, hactive]]
    exact h
  | @timerEvent rest timers hidle hactive ht =>
    obtain ⟨htodo, hstack⟩ := idle_iff.mp hidle
    have hstart := Held.Matched.handleRead h ht (by rw [held, htodo]; rfl)
      (by rw [held, hstack]; rfl)
    have hheld : ({ w with activeChannels := rest, timers }.push .timerQueue).held =
        { w.held with timers, frames := [.timerQueue] } := by
      simp [held, push, hstack, Frame.ofTimers]
    rwa [Matched, hheld, show w.begins .dispatch = 1 by simp [begins, hactive]]
  | otherEvent hidle hactive =>
    rw [Matched, held_push rfl, show w.begins .dispatch = 0 by simp [begins, hactive]]
    exact h
  | doPendingFuncs hidle hfunc => exact h
  | @nextFunc f fs hidle hfunc =>
    have hf : f.timeout? = none := hqueue f (by rw [queue, hfunc]; exact List.mem_cons_self)
    have hsame : { w with todo := some f, func := fs }.held = w.held := by
      unfold held
      rw [(idle_iff.mp hidle).1]
      change Held.mk _ _ _ f.timeout? _ = Held.mk _ _ _ none _
      rw [hf]
    rwa [Matched, hsame]
  | run htodo henv => exact h.run htodo henv.timer
  | @resume env frame rest w' htodo hstack henv hr =>
    unfold OneTimer at hone
    rw [hstack] at hone
    refine h.resumeFrame htodo hstack henv.timer (fun data seq he => ?_) (fun seq n he => ?_) hr
    · subst he
      exact hone
    · subst he
      exact hone
  | @call c huser => rwa [Matched, held_call (timeout_of_inUserCode huser)]
  | @callElsewhere c =>
    have hsame : (w.call false c).held = w.held := by
      cases c with
      | send data =>
        rw [TcpLoop.call, send]
        split <;> rfl
      | sendFile filePath =>
        rw [TcpLoop.call, sendFile]
        split <;> rfl
      | shutdown =>
        rw [TcpLoop.call, shutdown]
        split <;> rfl
      | forceClose =>
        rw [TcpLoop.call, forceClose]
        split <;> rfl
      | sendWithRetransmit data seq => rfl
      | ackReceived seq => rfl
    rwa [Matched, hsame]
  | connectDestroyed huser =>
    rwa [Matched, held_runInLoop (timeout_of_inUserCode huser) rfl]
  | retrieve htodo hstack => exact h
  | @addTimer when_ interval timer timers huser ht =>
    cases TimerLoop.moves_of_step ht with
    | addTimer ha hu =>
      have had := @TimerLoop.Tidy.added _ _ .user _ h.tidy when_ interval timer ha
        fun hne => absurd rfl hne
      refine Held.Matched.retime h (fun hb => hb) had.tidy had.keeps ?_ ?_ ?_ ?_
      · exact fun id hid => (h.idle_issued id hid).keeps had.keeps
      · intro id hid
        rcases (had.armed id _).mp hid with ⟨-, hcb⟩ | hid
        · contradiction
        · exact h.idle_armed id hid
      · intro seq id
        exact (had.armed id _).trans (or_iff_right (by simp))
      · exact fun seq id => had.due id _
  | cancelTimer huser hid ht =>
    cases TimerLoop.moves_of_step ht with
    | cancel hu => exact h.cancelTimer hid
  | @ret cb rest htodo hstack =>
    have hsame : { w with stack := rest }.held = w.held := by
      unfold held
      rw [hstack, List.filter_cons_of_neg (by simp [Frame.ofTimers])]
    rwa [Matched, hsame]
  | connectDestroyedElsewhere => exact h
  | runElsewhere => exact h
  | @tick micros timers ht =>
    obtain ⟨htidy, harmed, hdue⟩ := h.tidy.tick ht
    have hkeeps := TimerLoop.keeps_of_step ht
    have hbatch : timers.batch = w.timers.batch := by
      cases TimerLoop.moves_of_step ht with
      | tick => rfl
    refine Held.Matched.retime h (fun hb => hbatch ▸ hb) htidy hkeeps ?_ ?_ ?_ ?_
    · exact fun id hid => (h.idle_issued id hid).keeps hkeeps
    · exact fun id hid => h.idle_armed id ((harmed id _).mp hid)
    · exact fun seq id => harmed id _
    · exact fun seq id => hdue id _

/-- What holds in every state of a run. -/
structure Orderly (w : TcpLoop) (b : Nat) : Prop where
  sound : w.view.Sound
  /-- No timeout is queued. -/
  queue : ∀ f ∈ w.queue, f.timeout? = none
  matched : w.Matched b

/-- A new connection has no ids and no timers. -/
theorem orderly_start (fd : Nat) (callbacks : Callback → Bool) (disk : Bytes → Bytes) :
    (start fd callbacks disk).Orderly 0 where
  sound := sound_start fd callbacks disk
  queue := by simp [queue, start, Functor.timeout?]
  matched := by
    have hnone (id : TimerId) (cb : Task) : ¬(start fd callbacks disk).timers.Armed id cb :=
      TimerLoop.not_armed_init 0
    have hbatch : ¬(start fd callbacks disk).held.timers.batch.isSome := by simp [held, start]
    have hidle (id : TimerId) : id ∉ (start fd callbacks disk).held.idleTimerId := by
      simp [held, start]
    refine ⟨⟨.inl rfl, fun hb => absurd hb hbatch, fun hne => absurd rfl hne,
      fun ht => absurd rfl ht⟩, TimerLoop.tidy_init 0 _, fun id hid => absurd hid (hidle id),
      fun id hid => absurd hid (hnone id _), fun seq => ?_⟩
    refine .none ?_ (fun id => hnone id _) ?_ ?_
    · simp [held, start]
    · exact fun id _ hid => absurd hid (TimerLoop.not_due_of_batch rfl)
    · exact fun _ _ => TimerLoop.not_due_of_batch rfl

/-- A functor that is queued is no timeout. -/
theorem timeout_of_functor {a : Action} {f : Functor} (h : a.functor? = some f) :
    f.timeout? = none := by
  cases a with
  | callElsewhere c =>
    obtain rfl := Option.some.inj h
    cases c <;> rfl
  | connectDestroyedElsewhere =>
    obtain rfl := Option.some.inj h
    rfl
  | runElsewhere =>
    obtain rfl := Option.some.inj h
    rfl
  | _ => contradiction

/-- A step that meets the condition keeps ids and timers matched. -/
theorem Orderly.step {a : Action} {w' : TcpLoop} (h : w.Orderly b) (hone : w.OneTimer a)
    (hstep : w.step a = some w') : w'.Orderly (b + w.begins a) where
  sound := sound_effect h.sound (effect_of_step h.sound.sized hstep)
  queue f hf :=
    ((queues_of_step h.sound.sized hstep).mem hf).elim (h.queue f) timeout_of_functor
  matched := h.matched.step h.queue hone hstep

/-! ## Timers and entries -/

/-- The armed retransmit timers and the pending entries correspond one to one: an entry holds the
id of the only timer that is armed for its number. -/
structure OneToOne (w : TcpLoop) : Prop where
  timer : ∀ seq : Nat, ∀ node ∈ w.conn.pendingRetrans[seq]?, node.entry.timerId.isSome
  armed : ∀ (seq : Nat) id, w.timers.Armed id (.onRetransmitTimeout seq) ↔
    ∃ node ∈ w.conn.pendingRetrans[seq]?, node.entry.timerId = some id

/-- When the loop thread is idle, no timer has fired whose timeout is still to come. -/
theorem Orderly.oneToOne (h : w.Orderly b) (hidle : w.idle = true) : w.OneToOne := by
  obtain ⟨htodo, hstack⟩ := idle_iff.mp hidle
  have hbatch : w.timers.batch = none := by
    by_contra hsome
    refine h.matched.shaped.batch (Option.isSome_iff_ne_none.mpr hsome) ?_
    rw [held, hstack]
    rfl
  have hplaced (seq : Nat) (node : RetransmitNode)
      (hnode : w.conn.pendingRetrans[seq]? = some node) :
      ∃ id, node.entry.timerId = some id ∧ w.held.Live seq id := by
    obtain ⟨id, hid, hlive | hfired | htimeout | hmem⟩ := (h.matched.paired seq).placed node hnode
    · exact ⟨id, hid, hlive⟩
    · exact absurd hfired (TimerLoop.not_due_of_batch hbatch)
    · rw [held, htodo] at htimeout
      contradiction
    · rw [held, hstack] at hmem
      contradiction
  refine ⟨fun seq node hnode => ?_, fun seq id => ⟨(h.matched.paired seq).armed id, ?_⟩⟩
  · obtain ⟨id, hid, -⟩ := hplaced seq node hnode
    exact Option.isSome_of_eq_some hid
  · rintro ⟨node, hnode, hid⟩
    obtain ⟨id', hid', hlive⟩ := hplaced seq node hnode
    obtain rfl := Option.some.inj (hid'.symm.trans hid)
    exact hlive

/-- In every run that overwrites no entry with an armed timer, the armed timers and the entries
correspond whenever the loop thread runs no callback. -/
theorem oneToOne_of_run {fd : Nat} {callbacks : Callback → Bool} {disk : Bytes → Bytes}
    {as : List Action} (h : Run step OneTimer (start fd callbacks disk) as w)
    (hidle : w.idle = true) : w.OneToOne := by
  obtain ⟨b, hw⟩ := h.invariant (I := fun w => ∃ b, w.Orderly b)
    ⟨0, orderly_start fd callbacks disk⟩ (by
      rintro w a w' ⟨b, hw⟩ hone hstep
      exact ⟨_, hw.step hone hstep⟩)
  exact hw.oneToOne hidle

/-- In user code, `sendWithRetransmit`, whose message is written at once. -/
def retransmitting (seq timer : Nat) : List Action :=
  [.call (.sendWithRetransmit [7] seq), .run { timer }, .run { timer, write := .done 1 }, .ret,
    .resume { timer }]

/-- A number that times out once, while another one is given. -/
def acknowledged : List Action :=
  establishing ++ retransmitting 5 2 ++ [.ret, .tick 1000, .poll [.timerQueue] {}, .dispatch,
    .resume { timer := 3 }, .run { timer := 3 }, .run { timer := 3, write := .done 1 },
    .call (.sendWithRetransmit [8] 6), .run { timer := 3 }, .run { timer := 3 },
    .resume { timer := 3 }, .ret, .resume { timer := 4 }, .resume { timer := 5 },
    .resume { timer := 5 }]

theorem oneToOne_of_run_acknowledged :
    ∃ w, Run step OneTimer (start 7 (fun _ => true) id) acknowledged w ∧ w.idle = true ∧
      w.conn.pendingRetrans.size = 2 ∧ w.OneToOne := by
  have hreplay : (replay step OneTimer (start 7 (fun _ => true) id) acknowledged).map
      (fun w => (w.idle, w.conn.pendingRetrans.size)) = some (true, 2) := by
    decide +kernel
  obtain ⟨w, hw, he⟩ := Option.map_eq_some_iff.mp hreplay
  obtain ⟨hidle, hsize⟩ := Prod.mk.inj he
  exact ⟨w, .of_replay hw, hidle, hsize, oneToOne_of_run (.of_replay hw) hidle⟩

/-- A number is given again while it is pending. -/
def reusedWhilePending : List Action :=
  establishing ++ retransmitting 5 2 ++ retransmitting 5 3 ++ [.ret]

/-- The timer of the first entry stays armed beside the one of the second. -/
theorem timer_orphaned :
    ∃ w, Run step anyStep (start 7 (fun _ => true) id) reusedWhilePending w ∧ w.idle = true ∧
      w.IsOpen ∧ ¬w.OneToOne := by
  have hreplay : (replay step anyStep (start 7 (fun _ => true) id) reusedWhilePending).map
      (fun w => (w.idle, w.conn.state, w.aborted,
        w.timers.queue.armedWith (.onRetransmitTimeout 5))) =
      some (true, .kConnected, false, [⟨1, 2⟩, ⟨2, 3⟩]) := by
    decide +kernel
  obtain ⟨w, hw, he⟩ := Option.map_eq_some_iff.mp hreplay
  simp only [Prod.mk.injEq] at he
  obtain ⟨hidle, hstate, hlive, harmed⟩ := he
  refine ⟨w, .of_replay hw, hidle, ⟨.inl hstate, hlive⟩, fun hone => ?_⟩
  have hmem (k : ActiveTimer) (hk : k ∈ [(⟨1, 2⟩ : ActiveTimer), ⟨2, 3⟩]) :
      w.timers.Armed ⟨k.timer, k.sequence⟩ (.onRetransmitTimeout 5) :=
    TimerQueue.mem_armedWith.mp (harmed ▸ hk)
  obtain ⟨node, hnode, hid⟩ := (hone.armed 5 _).mp (hmem ⟨1, 2⟩ (by simp))
  obtain ⟨node', hnode', hid'⟩ := (hone.armed 5 _).mp (hmem ⟨2, 3⟩ (by simp))
  obtain rfl := Option.some.inj (hnode.symm.trans hnode')
  rw [hid] at hid'
  simp at hid'

end TcpLoop

end ClearMoon.Tcp

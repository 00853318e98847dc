import ClearMoon.Tcp.Transmission

/-!
# Retransmissions

What happens to the numbers of a connection is recorded along a run. The data of a number that is
given once is handed over a bounded number of times, and not at all once it is acknowledged; and the
timeout behind the last time closes the connection.
-/

namespace ClearMoon.Tcp

open ClearMoon.Net ClearMoon.Timer

namespace TcpLoop

variable {w v w' : TcpLoop} {b : Nat}

/-! ## Before the connection is established -/

/-- A functor changes nothing in what the last poll has seen. -/
theorem polled_run (env : Env) (f : Functor) : (w.run env f).polled = w.polled := by
  cases f with
  | connectDestroyed =>
    have hclear (u : TcpLoop) : u.cancelIdleTimer.clearRetrans.removeChannel.polled = u.polled := by
      obtain ⟨queue, h⟩ := u.clear_frame
      rw [h]
      rfl
    rw [run, connectDestroyed]
    split
    · exact hclear (w.setState .kDisConnected)
    · exact hclear w
  | sendFunc data seq => exact (calm_send (w := w.push (.sendFunc data seq)) true data).polled
  | ackReceived seq =>
    obtain ⟨queue, pendingRetrans, h⟩ := w.ackReceived_frame seq
    rw [run, h]
    rfl
  | onRetransmitTimeout seq =>
    rw [run, onRetransmitTimeout]
    split
    · rfl
    · split
      · exact calm_forceCloseInLoop.polled
      · dsimp only
        split <;> rfl
  | _ => exact (calm_run rfl (by simp) (by simp) env).polled

/-- Nor does a frame that goes on. -/
theorem polled_resumeFrame {env : Env} {frame : Frame} (hr : w.resumeFrame env frame = some w') :
    w'.polled = w.polled := by
  cases frame with
  | user cb => contradiction
  | handleEvent stage =>
    obtain rfl := Option.some.inj hr
    exact (calm_handleEvent env stage).polled
  | handleWrite =>
    obtain rfl := Option.some.inj hr
    exact (calm_handleWriteRest env).polled
  | handleWriteEnd =>
    obtain rfl := Option.some.inj hr
    exact calm_handleWriteEnd.polled
  | sendFunc data seq =>
    obtain rfl := Option.some.inj hr
    obtain ⟨queue, pendingRetrans, nextNode, h⟩ := w.sendFuncEnd_frame data seq env
    rw [h]
    rfl
  | onRetransmitTimeout seq node =>
    obtain rfl := Option.some.inj hr
    obtain ⟨queue, pendingRetrans, dangling, h⟩ := w.onRetransmitTimeoutEnd_frame seq node env
    rw [h]
    rfl
  | timerQueue =>
    unfold resumeFrame handleTimers at hr
    dsimp only at hr
    split at hr
    · contradiction
    all_goals
      obtain ⟨timers, -, rfl⟩ := Option.map_eq_some_iff.mp hr
      rfl

/-- Nor does a call. -/
theorem polled_call (inThread : Bool) (c : ConnCall) : (w.call inThread c).polled = w.polled := by
  by_cases h : inThread = false ∨ c.functor.neutral = true
  · exact (calm_call h).polled
  · cases c with
    | sendWithRetransmit data seq =>
      rw [call, runInLoop]
      split <;> rfl
    | _ => simp [ConnCall.functor, Functor.neutral] at h

/-- Until the connection is established, `connectEstablelished` is the next functor that is not run
from elsewhere, and the loop polls at most once. -/
structure Early (w : TcpLoop) (b : Nat) : Prop where
  once : b + w.activeChannels.count .timerQueue ≤ 1
  ahead : w.todo = some .connectEstablelished ∨ w.func.head? = some .connectEstablelished ∨
    w.func = [] ∧ w.pendingFunc.head? = some .connectEstablelished ∧
      (w.eventHanding = false → b + w.activeChannels.count .timerQueue = 0)

/-- A step that leaves poll and functors alone, and only queues more, keeps the early state. -/
theorem Early.same (h : w.Early b) (hpolled : w'.polled = w.polled)
    (hfunc : w'.func = w.func) {fs : List Functor} (hpending : w'.pendingFunc = w.pendingFunc ++ fs)
    (htodo : w.todo = some .connectEstablelished → w'.todo = some .connectEstablelished) :
    w'.Early b := by
  obtain ⟨hevent, hactive⟩ := Prod.mk.inj hpolled
  refine ⟨hactive ▸ h.once, ?_⟩
  rw [hfunc, hpending, hevent, hactive]
  refine h.ahead.imp htodo (Or.imp_right ?_)
  rintro ⟨hnil, hhead, hzero⟩
  refine ⟨hnil, ?_, hzero⟩
  cases hp : w.pendingFunc with
  | nil => simp [hp] at hhead
  | cons f gs => simpa [hp] using hhead

/-- A batch that `poll` has reported begins, or another event is handled. -/
theorem Early.dispatch {s : Source} {rest : List Source} (h : w.Early b)
    (htodo : w.todo ≠ some .connectEstablelished) (hactive : w.activeChannels = s :: rest)
    (hrest : v.activeChannels = rest) (hevent : v.eventHanding = w.eventHanding)
    (hfunc : v.func = w.func) (hpending : v.pendingFunc = w.pendingFunc) :
    v.Early (b + w.begins .dispatch) := by
  have hsum : b + w.begins .dispatch + v.activeChannels.count .timerQueue =
      b + w.activeChannels.count .timerQueue := by
    rw [hrest]
    cases s <;> simp [begins, hactive, Nat.add_comm, Nat.add_left_comm]
  refine ⟨hsum ▸ h.once, .inr ?_⟩
  rw [hfunc, hpending, hevent, hsum]
  exact h.ahead.resolve_left htodo

/-- `poll` is called when `doPendingFuncs` is over. -/
theorem eventHanding_of_poll {ready : List Source} {revents : Revents}
    (hstep : w.step (.poll ready revents) = some w') :
    w.eventHanding = false ∧ ready.count .timerQueue ≤ 1 ∧ w'.activeChannels = ready := by
  rw [step] at hstep
  split at hstep
  · contradiction
  · obtain ⟨⟨-, hevent, -, hready⟩, h⟩ := Option.ite_none_right_eq_some.mp hstep
    have hnodup : ready.Nodup := by
      rw [reportable, Bool.and_eq_true] at hready
      exact of_decide_eq_true hready.1
    refine ⟨by simpa using hevent, List.nodup_iff_count_le_one.mp hnodup _, ?_⟩
    obtain rfl := Option.some.inj h
    split <;> rfl

/-- Until the connection is established, `connectEstablelished` stays ahead of all that is not run
from elsewhere. -/
theorem Early.step {a : Action} (h : w.conn.state = .kConnecting → w.Early b)
    (hsized : w.view.sized = true) (hstep : w.step a = some w')
    (hstate : w'.conn.state = .kConnecting) : w'.Early (b + w.begins a) := by
  have hbefore : w.conn.state = .kConnecting := by
    by_contra hne
    exact ne_kConnecting_of_rank hne (moves_of_step hstep).rank_le hstate
  replace h := h hbefore
  have huser (hu : w.inUserCode = true) : w.todo ≠ some .connectEstablelished := by
    rw [inUserCode, Bool.and_eq_true, Option.isNone_iff_eq_none] at hu
    simp [hu.1]
  have hidle (hi : w.idle = true) : w.todo ≠ some .connectEstablelished := by
    simp [(idle_iff.mp hi).1]
  have hnil : w.pendingFunc = w.pendingFunc ++ [] := (List.append_nil _).symm
  cases stepped_of_step hstep with
  | @poll ready revents w' hi hfunc hready hw' =>
    obtain ⟨hevent, hcount, hactive⟩ := eventHanding_of_poll hstep
    obtain ⟨-, hhead, hzero⟩ := (h.ahead.resolve_left (hidle hi)).resolve_left (by simp [hfunc])
    have hb := hzero hevent
    have hbegins : w.begins (.poll ready revents) = 0 := rfl
    refine ⟨by rw [hactive, hbegins]; omega, .inr (.inr ?_)⟩
    rcases hw' with rfl | rfl
    · exact ⟨hfunc, hhead, by simp⟩
    · exact ⟨hfunc, hhead, by simp⟩
  | event hi hactive => exact h.dispatch (hidle hi) hactive rfl rfl rfl rfl
  | timerEvent hi hactive ht => exact h.dispatch (hidle hi) hactive rfl rfl rfl rfl
  | otherEvent hi hactive => exact h.dispatch (hidle hi) hactive rfl rfl rfl rfl
  | doPendingFuncs hi hfunc =>
    obtain ⟨-, hhead, -⟩ := (h.ahead.resolve_left (hidle hi)).resolve_left (by simp [hfunc])
    exact ⟨h.once, .inr (.inl hhead)⟩
  | @nextFunc f fs hi hfunc =>
    refine ⟨h.once, .inl ?_⟩
    rcases h.ahead.resolve_left (hidle hi) with hhead | ⟨hempty, -⟩
    · rwa [hfunc, List.head?_cons] at hhead
    · rw [hfunc] at hempty
      contradiction
  | @run env f htodo henv =>
    have hqueues := w.clearTodo.sameQueues_run env f
    refine h.same (polled_run env f) hqueues.func (hqueues.pendingFunc.trans hnil) fun he => ?_
    obtain rfl := Option.some.inj (htodo.symm.trans he)
    have hestablished := w.clearTodo.state_connectEstablelished env hbefore
    rw [run] at hstate
    rw [hestablished] at hstate
    contradiction
  | @resume env frame rest w' htodo hstack henv hr =>
    have hpolled : w'.polled = w.polled := polled_resumeFrame (w := { w with stack := rest }) hr
    cases queues_of_step hsized hstep with
    | same hfunc hpending =>
      exact h.same hpolled hfunc (hpending.trans hnil) fun he => by simp [htodo] at he
    | add ha hfunc hpending => contradiction
  | @call c hu =>
    have hqueues := w.sameQueues_call c
    exact h.same (polled_call true c) hqueues.func (hqueues.pendingFunc.trans hnil)
      fun he => absurd he (huser hu)
  | connectDestroyed hu => exact h.same rfl rfl hnil fun he => absurd he (huser hu)
  | retrieve htodo hstack => exact h.same rfl rfl hnil id
  | addTimer hu ht => exact h.same rfl rfl hnil id
  | cancelTimer hu hid ht => exact h.same rfl rfl hnil id
  | ret htodo hstack => exact h.same rfl rfl hnil id
  | @callElsewhere c =>
    have htodo : (w.call false c).todo = w.todo := congrArg Prod.fst (w.callElsewhere_frame c).1
    cases queues_call c with
    | same hfunc hpending =>
      exact h.same (polled_call false c) hfunc (hpending.trans hnil) htodo.trans
    | add ha hfunc hpending => exact h.same (polled_call false c) hfunc hpending htodo.trans
  | connectDestroyedElsewhere => exact h.same rfl rfl rfl id
  | runElsewhere => exact h.same rfl rfl rfl id
  | tick ht => exact h.same rfl rfl hnil id

end TcpLoop

/-! ## Runs -/

/-- A connection with what has happened to its numbers. -/
structure Recorded where
  loop : TcpLoop
  history : List Transmission := []

namespace Recorded

open TcpLoop (establishing retransmitting)

variable {x x' : Recorded} {seq : Nat}

def start (fd : Nat) (callbacks : Callback → Bool) (disk : Bytes → Bytes) : Recorded where
  loop := .start fd callbacks disk

def step (x : Recorded) (a : Action) : Option Recorded :=
  (x.loop.step a).map fun loop =>
    { loop, history := x.history ++ (x.loop.transmission a).toList }

/-- No number is given to `sendWithRetransmit` twice. -/
def GivenOnce (x : Recorded) (a : Action) : Prop :=
  match x.loop.transmission a with
  | some (.given seq) => .given seq ∉ x.history
  | _ => True

instance (x : Recorded) (a : Action) : Decidable (x.GivenOnce a) := by
  unfold GivenOnce
  split <;> infer_instance

/-- No number is given twice, and none is acknowledged, nor the connection closed, while
`onRetransmitTimeout` has a reference to its entry. -/
def Counts (x : Recorded) (a : Action) : Prop := x.GivenOnce a ∧ x.loop.FindsEntry a

instance (x : Recorded) (a : Action) : Decidable (x.Counts a) :=
  inferInstanceAs (Decidable (_ ∧ _))

/-- What holds in every state of a run. -/
structure Kept (x : Recorded) (b : Nat) : Prop where
  orderly : x.loop.Orderly b
  early : x.loop.conn.state = .kConnecting → x.loop.Early b
  accounted : ∀ seq, (x.loop.standing seq).Accounted seq x.history

/-- A new connection keeps nothing. -/
theorem kept_start (fd : Nat) (callbacks : Callback → Bool) (disk : Bytes → Bytes) :
    (start fd callbacks disk).Kept 0 where
  orderly := TcpLoop.orderly_start fd callbacks disk
  early _ := by
    refine ⟨by simp [start, TcpLoop.start], .inr (.inr ?_)⟩
    simp [start, TcpLoop.start]
  accounted seq := by
    have hnode : ((start fd callbacks disk).loop.standing seq).node = none := by
      simp [start, TcpLoop.start, TcpLoop.standing]
    refine ⟨?_, by simp [start], fun _ => ⟨hnode, rfl, rfl⟩, fun hf => ?_, by simp [start],
      fun _ => hnode, atEvery_nil, fun hf => ?_⟩
    · simp [start, TcpLoop.start, TcpLoop.standing, TcpLoop.queue, Functor.sends?]
    · simp [start] at hf
    · simp [start] at hf

/-- When the lambda of a number goes on, the number has no entry. -/
theorem Kept.unarmed {b : Nat} {data : Bytes} {rest : List Frame} (h : x.Kept b)
    (hstack : x.loop.stack = .sendFunc data seq :: rest) : x.loop.Unarmed seq := by
  have hpos : 0 < (x.loop.standing seq).sending := by
    simp [TcpLoop.standing, hstack, Frame.sends?]
  have hnone : x.loop.conn.pendingRetrans[seq]? = none :=
    ((h.accounted seq).fresh ((h.accounted seq).unfinished (by omega))).1
  simp [TcpLoop.Unarmed, hnone]

/-- A connection that is not established has no entry whose retries are used up. -/
theorem Kept.retries_lt {b : Nat} (h : x.Kept b) (hstate : x.loop.conn.state = .kConnecting)
    {node : RetransmitNode} (hnode : x.loop.conn.pendingRetrans[seq]? = some node) :
    node.entry.retries < kMaxRetries := by
  have hpaced := ((h.orderly.matched.paired seq).paced node hnode).1
  have honce := (h.early hstate).once
  have : kMaxRetries = 5 := rfl
  omega

/-- A step that meets the condition keeps the account of every number. -/
theorem Kept.step {a : Action} {b : Nat} (h : x.Kept b) (hguard : x.Counts a)
    (hstep : x.step a = some x') : x'.Kept (b + x.loop.begins a) := by
  obtain ⟨honce, hfinds⟩ := hguard
  obtain ⟨loop, hloop, rfl⟩ := Option.map_eq_some_iff.mp hstep
  have hone := TcpLoop.oneTimer_of (fun env data seq rest _ hstack => h.unarmed hstack) hfinds
  refine ⟨h.orderly.step hone hloop, TcpLoop.Early.step h.early h.orderly.sound.sized hloop,
    fun seq => ?_⟩
  have hmoves : x.loop.Moves seq (x.loop.transmission a) loop :=
    TcpLoop.transmission_of_step h.orderly hfinds hloop
  refine (h.accounted seq).step hmoves (fun hgiven => ?_) (fun hclosed => ?_)
    fun hstate node hnode => h.retries_lt hstate hnode
  · rw [GivenOnce, hgiven] at honce
    exact honce
  · exact (TcpLoop.effect_of_step h.orderly.sound.sized hloop).forward.1 hclosed

/-- So it stands in every state of every run. -/
theorem kept_of_run {fd : Nat} {callbacks : Callback → Bool} {disk : Bytes → Bytes}
    {as : List Action} (h : Run step Counts (start fd callbacks disk) as x) : ∃ b, x.Kept b := by
  refine h.invariant (I := fun x => ∃ b, x.Kept b) ⟨0, kept_start fd callbacks disk⟩ ?_
  rintro y a z ⟨b, hy⟩ hguard hstep
  exact ⟨_, hy.step hguard hstep⟩

/-- The number has not been acknowledged, and the connection is neither closed nor destroyed. -/
def Unanswered (x : Recorded) (seq : Nat) : Prop :=
  .acked seq ∉ x.history ∧ .destroyed ∉ x.history ∧ x.loop.conn.state ≠ .kDisConnected

/-- Between callbacks, the number has an entry with an armed timer. -/
def Pursued (x : Recorded) (seq : Nat) : Prop :=
  .finished seq ∈ x.history → x.loop.idle = true →
    ∃ node ∈ x.loop.conn.pendingRetrans[seq]?, ∃ id ∈ node.entry.timerId,
      x.loop.timers.Armed id (.onRetransmitTimeout seq)

/-- A timeout of the number erases the entry and closes the connection exactly when its data has
been handed over for the last time. -/
def GivesUp (x : Recorded) (seq : Nat) : Prop :=
  x.loop.todo = some (.onRetransmitTimeout seq) → ∀ env x', x.step (.run env) = some x' →
    (x'.loop.conn.pendingRetrans[seq]? = none ∧ x'.loop.conn.state = .kDisConnected ↔
      x.history.count (.handed seq) = 1 + kMaxRetries)

/-- Between callbacks, a number sent and not acknowledged has an entry with an armed timer. -/
theorem Kept.pursued {b : Nat} (h : x.Kept b) (hopen : x.Unanswered seq) : x.Pursued seq := by
  intro hfinished hidle
  obtain ⟨hacked, hdestroyed, hstate⟩ := hopen
  obtain ⟨node, hnode⟩ := Option.ne_none_iff_exists'.mp
    ((h.accounted seq).kept hfinished hacked hdestroyed hstate)
  have hone := h.orderly.oneToOne hidle
  obtain ⟨id, hid⟩ := Option.isSome_iff_exists.mp (hone.timer seq node hnode)
  exact ⟨node, hnode, id, hid, (hone.armed seq id).mpr ⟨node, hnode, hid⟩⟩

/-- What a timeout does is decided by the retries of the entry, which tell how often the data has
been handed over. -/
theorem Kept.handed_eq {b : Nat} (h : x.Kept b)
    (htodo : x.loop.todo = some (.onRetransmitTimeout seq)) {node : RetransmitNode}
    (hnode : x.loop.conn.pendingRetrans[seq]? = some node) :
    x.history.count (.handed seq) = 1 + node.entry.retries := by
  have haccount := h.accounted seq
  have hnode : (x.loop.standing seq).node = some node := hnode
  have hfinished : .finished seq ∈ x.history := by
    by_contra hf
    rw [(haccount.fresh hf).1] at hnode
    contradiction
  obtain ⟨hhanded, -, -⟩ := haccount.retried hfinished node hnode
  rwa [h.orderly.matched.resends_of_timeout htodo, List.length_nil, Nat.add_zero] at hhanded

/-- A number whose data has been handed over has an entry, unless it has been answered. -/
theorem Kept.node_of_handed {b : Nat} (h : x.Kept b) (hopen : x.Unanswered seq)
    (hcount : x.history.count (.handed seq) = 1 + kMaxRetries) :
    ∃ node, x.loop.conn.pendingRetrans[seq]? = some node := by
  obtain ⟨hacked, hdestroyed, hstate⟩ := hopen
  have haccount := h.accounted seq
  have hfinished : .finished seq ∈ x.history := by
    by_contra hf
    have hhanded := (haccount.fresh hf).2.2
    have hgiven := haccount.given
    have honce := haccount.once
    have hmax : kMaxRetries = 5 := rfl
    omega
  exact Option.ne_none_iff_exists'.mp (haccount.kept hfinished hacked hdestroyed hstate)

/-- Its timeout closes the connection exactly behind the last retry. -/
theorem Kept.givesUp {b : Nat} (h : x.Kept b) (hopen : x.Unanswered seq) : x.GivesUp seq := by
  intro htodo env x' hstep
  obtain ⟨loop, hloop, rfl⟩ := Option.map_eq_some_iff.mp hstep
  cases TcpLoop.stepped_of_step hloop with
  | @run env f htodo' henv =>
    obtain rfl := Option.some.inj (htodo'.symm.trans htodo)
    have hclear : x.loop.clearTodo.conn.pendingRetrans = x.loop.conn.pendingRetrans := rfl
    dsimp only
    rw [TcpLoop.run, TcpLoop.onRetransmitTimeout, hclear]
    cases hnode : x.loop.conn.pendingRetrans[seq]? with
    | none =>
      refine iff_of_false (fun hclosed => hopen.2.2 hclosed.2) fun hcount => ?_
      obtain ⟨node, hsome⟩ := h.node_of_handed hopen hcount
      rw [hnode] at hsome
      contradiction
    | some node =>
      have hhanded := h.handed_eq htodo hnode
      dsimp only
      by_cases hretries : kMaxRetries ≤ node.entry.retries
      · have hlast : x.history.count (.handed seq) = 1 + kMaxRetries := by
          have := (h.accounted seq).bounded
          omega
        rw [if_pos hretries]
        refine iff_of_true ⟨TcpLoop.getElem?_forceCloseInLoop ?_,
          TcpLoop.state_forceCloseInLoop fun hs => ?_⟩ hlast
        · exact Std.ExtTreeMap.getElem?_erase_self
        · exact absurd (h.retries_lt hs hnode) (Nat.not_lt.mpr hretries)
      · rw [if_neg hretries]
        refine iff_of_false (fun hclosed => hopen.2.2 ?_) (by omega)
        rw [← hclosed.2]
        split <;> rfl

/-- In every run that gives no number twice and follows no reference to an erased entry, the data of
a number is handed over once, and again at most `kMaxRetries` times; never once it has been
acknowledged. A number that is not acknowledged has an armed timer, and its timeout after the last
time, and no other, closes the connection, unless that has happened otherwise. -/
theorem bounded_of_run {fd : Nat} {callbacks : Callback → Bool} {disk : Bytes → Bytes}
    {as : List Action} (h : Run step Counts (start fd callbacks disk) as x) (seq : Nat) :
    x.history.count (.handed seq) ≤ 1 + kMaxRetries ∧
      AtEvery (Standing.NotAcked seq) x.history ∧
      (x.Unanswered seq → x.Pursued seq ∧ x.GivesUp seq) := by
  obtain ⟨b, hkept⟩ := kept_of_run h
  exact ⟨(hkept.accounted seq).bounded, (hkept.accounted seq).atEvery,
    fun hopen => ⟨hkept.pursued hopen, hkept.givesUp hopen⟩⟩

/-- A timeout whose data is handed over again, and written at once. -/
def retransmitted (timer : Nat) : List Action :=
  [.tick 10000, .poll [.timerQueue] {}, .dispatch, .resume { timer }, .run { timer },
    .run { timer, write := .done 1 }, .ret, .resume { timer }, .resume { timer := timer + 1 },
    .resume { timer := timer + 1 }, .doPendingFuncs]

/-- A number that times out until its retries are used up, and once more. -/
def neverAcknowledged : List Action :=
  establishing ++ retransmitting 5 2 ++ [.ret] ++ [3, 4, 5, 6, 7].flatMap retransmitted ++
    [.tick 10000, .poll [.timerQueue] {}, .dispatch, .resume { timer := 8 }]

/-- A message without an ack is sent once and as often again as there are retries, and then the
connection is closed. -/
theorem bounded_of_run_neverAcknowledged :
    ∃ x, Run step Counts (start 7 (fun _ => true) id) neverAcknowledged x ∧
      x.history.count (.handed 5) = 1 + kMaxRetries ∧ AtEvery (Standing.NotAcked 5) x.history ∧
      ∃ x', x.step (.run { timer := 9 }) = some x' ∧ x'.loop.conn.pendingRetrans[5]? = none ∧
        x'.loop.conn.state = .kDisConnected := by
  have hreplay : (replay step Counts (start 7 (fun _ => true) id) neverAcknowledged).any
      (fun x => x.loop.todo = some (.onRetransmitTimeout 5) ∧
        x.history.count (.handed 5) = 1 + kMaxRetries ∧ .acked 5 ∉ x.history ∧
        .destroyed ∉ x.history ∧ x.loop.conn.state ≠ .kDisConnected ∧
        (x.step (.run { timer := 9 })).isSome = true) = true := by
    decide +kernel
  obtain ⟨x, hx, hprops⟩ := (Option.any_eq_true _ _).mp hreplay
  obtain ⟨htodo, hcount, hacked, hdestroyed, hstate, hsome⟩ := of_decide_eq_true hprops
  obtain ⟨x', hstep⟩ := Option.isSome_iff_exists.mp hsome
  obtain ⟨-, hat, hopen⟩ := bounded_of_run (.of_replay hx) 5
  obtain ⟨-, hgives⟩ := hopen ⟨hacked, hdestroyed, hstate⟩
  exact ⟨x, .of_replay hx, hcount, hat, x', hstep,
    (hgives htodo { timer := 9 } x' hstep).mpr hcount⟩

/-- In the write complete callback of a retransmission the number is acknowledged and another one
given, whose node takes the place of the erased one. That one times out until it is given up. -/
def replaced : List Action :=
  establishing ++ retransmitting 5 2 ++ [.ret, .tick 10000, .poll [.timerQueue] {}, .dispatch,
    .resume { timer := 3 }, .run { timer := 3 }, .run { timer := 3, write := .done 1 },
    .call (.ackReceived 5), .run { timer := 3 }] ++ retransmitting 6 3 ++
  [.ret, .resume { timer := 4, reused := some 6 }, .resume { timer := 5 }, .resume { timer := 5 },
    .doPendingFuncs] ++ [5, 6, 7, 8].flatMap retransmitted ++
  [.tick 10000, .poll [.timerQueue] {}, .dispatch, .resume { timer := 9 }]

/-- The retries of the second number have been counted up for the first one, so it is given up when
its data has been handed over five times. -/
theorem given_up_early :
    ∃ x, Run step GivenOnce (start 7 (fun _ => true) id) replaced x ∧
      x.history.count (.handed 6) = 5 ∧ x.Unanswered 6 ∧ ¬x.GivesUp 6 := by
  have hreplay : (replay step GivenOnce (start 7 (fun _ => true) id) replaced).any
      (fun x => x.loop.todo = some (.onRetransmitTimeout 6) ∧
        x.history.count (.handed 6) = 5 ∧ .acked 6 ∉ x.history ∧
        .destroyed ∉ x.history ∧ x.loop.conn.state ≠ .kDisConnected ∧
        (x.step (.run { timer := 9 })).any (fun x' =>
          x'.loop.conn.pendingRetrans[6]? = none ∧
            x'.loop.conn.state = .kDisConnected) = true) = true := by
    decide +kernel
  obtain ⟨x, hx, hprops⟩ := (Option.any_eq_true _ _).mp hreplay
  obtain ⟨htodo, hcount, hacked, hdestroyed, hstate, hany⟩ := of_decide_eq_true hprops
  obtain ⟨x', hstep, hclosed⟩ := (Option.any_eq_true _ _).mp hany
  have hgone : x'.loop.conn.pendingRetrans[6]? = none ∧ x'.loop.conn.state = .kDisConnected :=
    of_decide_eq_true hclosed
  refine ⟨x, .of_replay hx, hcount, ⟨hacked, hdestroyed, hstate⟩, fun hgives => ?_⟩
  have hlast := (hgives htodo { timer := 9 } x' hstep).mp hgone
  exact absurd (hcount.symm.trans hlast) (by decide)

end Recorded

end ClearMoon.Tcp

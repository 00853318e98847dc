import ClearMoon.Connect.Connector

/-!
# The timeout of an attempt

Runs of a connector and of the timers of its loop. `start` and `stop` run in functors and in the
callbacks of other timers, the channel's callbacks run outside batches, and `handleTimeout` runs
where the batch comes to the timer of an attempt. As long as no attempt is overwritten, no failed
attempt leaves its timer behind and no attempt begun in a batch is there when the batch comes to an
earlier timeout, the timer that is armed is the one whose id the connector keeps.
-/

namespace ClearMoon.Connect

open ClearMoon.Net ClearMoon.Timer

/-- The steps of the loop thread, and of time. -/
inductive Action where
  /-- `startInLoop`, with the result of `::connect` and the address of a new timer. -/
  | start (r : ConnectResult) (timer : Addr)
  | stop
  | handleWrite (err : Bool)
  | handleError
  /-- User code adds a timer of its own. -/
  | addTimer (when_ : Int) (interval : Interval) (timer : Addr)
  /-- User code cancels a timer of its own. -/
  | cancelTimer (id : TimerId)
  /-- A batch of expired timers begins. -/
  | handleRead
  /-- The batch comes to its next timer. -/
  | nextEntry
  /-- The callback of another timer returns. -/
  | callbackReturns
  | endBatch
  | tick (micros : Nat)

namespace ConnectorLoop

/-- A connector as it is made. -/
def start (newConnCallback : Bool) : ConnectorLoop where
  connector := { newConnCallback }

/-- No timer of the connector has this id. -/
def isUserTimer (w : ConnectorLoop) (id : TimerId) : Bool :=
  (w.timers.queue.timer? id).all (·.callback = .user)

/-- Let the timers take a step. -/
def withTimers (w : ConnectorLoop) (a : Timer.Action Task) : Option ConnectorLoop :=
  (w.timers.step a).map fun timers => { w with timers }

/-- The callback that the batch in progress starts next. -/
def nextCallback (w : ConnectorLoop) : Option Task :=
  match w.timers.batch with
  | some ⟨_, _, e :: _, false⟩ => (w.timers.queue.runEntry e).1
  | _ => none

def step (w : ConnectorLoop) (a : Action) : Option ConnectorLoop :=
  match a with
  | .start r timer =>
    if w.timers.inUserCode ∧ w.timers.AddressOk timer then some (w.connect r timer) else none
  | .stop => if w.timers.inUserCode then some w.stop else none
  | .handleWrite err => if w.timers.batch.isNone then some (w.handleWrite err) else none
  | .handleError => if w.timers.batch.isNone then some w.handleError else none
  | .addTimer when_ interval timer => w.withTimers (.addTimer .user when_ interval timer)
  | .cancelTimer id => if w.isUserTimer id then w.withTimers (.cancel id) else none
  | .handleRead => w.withTimers .handleRead
  | .nextEntry =>
    if w.nextCallback = some .handleTimeout then
      (w.withTimers .nextEntry).bind fun w => w.handleTimeout.withTimers .callbackReturns
    else w.withTimers .nextEntry
  | .callbackReturns => w.withTimers .callbackReturns
  | .endBatch => w.withTimers .endBatch
  | .tick micros => w.withTimers (.tick micros)

/-- The armed timers of attempts. -/
def armedTimeouts (w : ConnectorLoop) : List ActiveTimer := w.timers.queue.armedWith .handleTimeout

/-- While an attempt is in progress, no other one is begun, and it does not fail in `handleWrite`.
When a batch comes to a timeout, the attempt in progress, if any, was not begun in this batch: the
batch has taken its timer out of the queue. -/
def OneAttempt (w : ConnectorLoop) (a : Action) : Prop :=
  w.connector.state = .kConnecting →
    match a with
    | .start r _ => r.proceeds = false
    | .handleWrite err => err = false
    | .nextEntry => w.nextCallback = some .handleTimeout → w.armedTimeouts = []
    | _ => True

instance (w : ConnectorLoop) (a : Action) : Decidable (w.OneAttempt a) := by
  unfold OneAttempt
  cases a <;> infer_instance

/-! ## The invariant -/

/-- The state, the channel and the timer go together; `Live` and `Due` are the timers of attempts
that are in the queue and in the batch in progress. -/
structure Together (c : Connector) (Live Due : TimerId → Prop) : Prop where
  channel_iff : c.channel.isSome ↔ c.state = .kConnecting
  id_iff : c.connectTimeoutId.isSome ↔ c.state = .kConnecting
  armed : ∀ id, Live id → c.connectTimeoutId = some id
  placed : ∀ id, c.connectTimeoutId = some id → Live id ∨ Due id

structure Inv (w : ConnectorLoop) : Prop where
  tidy : w.timers.Tidy (· = .handleTimeout)
  together : Together w.connector (w.timers.Armed · .handleTimeout) (w.timers.Due · .handleTimeout)

variable {w w' : ConnectorLoop}

/-- A connector that was not started has nothing to account for. -/
theorem inv_start (newConnCallback : Bool) : (start newConnCallback).Inv where
  tidy := TimerLoop.tidy_init 0 _
  together := {
    channel_iff := by simp [start]
    id_iff := by simp [start]
    armed := fun id h => absurd h (TimerLoop.not_armed_init 0)
    placed := by simp [start] }

/-- Without an attempt in progress no timer of one is armed. -/
theorem Together.not_armed {c : Connector} {Live Due : TimerId → Prop}
    (h : Together c Live Due) (hstate : c.state ≠ .kConnecting) (id : TimerId) : ¬Live id := by
  intro hid
  have := h.id_iff.mp (by rw [h.armed id hid]; rfl)
  contradiction

/-- Without an attempt in progress there is no channel, and no id is kept. -/
theorem Together.idle {c : Connector} {Live Due : TimerId → Prop} (h : Together c Live Due)
    (hstate : c.state ≠ .kConnecting) : c.channel = none ∧ c.connectTimeoutId = none := by
  constructor
  · by_contra hsome
    exact hstate (h.channel_iff.mp (Option.isSome_iff_ne_none.mpr hsome))
  · by_contra hsome
    exact hstate (h.id_iff.mp (Option.isSome_iff_ne_none.mpr hsome))

/-- A connector that is not connecting, with no timer of an attempt armed. -/
theorem together_idle {c : Connector} {Live Due : TimerId → Prop} (hstate : c.state ≠ .kConnecting)
    (hchannel : c.channel = none) (hid : c.connectTimeoutId = none) (hnone : ∀ id, ¬Live id) :
    Together c Live Due where
  channel_iff := by simp [hchannel, hstate]
  id_iff := by simp [hid, hstate]
  armed id h := absurd h (hnone id)
  placed := by simp [hid]

/-- What the timers do without the connector. -/
theorem Together.timers {c : Connector} {Live Due Live' Due' : TimerId → Prop}
    (h : Together c Live Due) (harmed : ∀ id, Live' id → Live id)
    (hplaced : ∀ id, c.connectTimeoutId = some id → Live id ∨ Due id → Live' id ∨ Due' id) :
    Together c Live' Due' where
  channel_iff := h.channel_iff
  id_iff := h.id_iff
  armed id hid := h.armed id (harmed id hid)
  placed id hid := hplaced id hid (h.placed id hid)

/-! ## What the functions do -/

@[simp] theorem timers_setSock (fd : Option Nat) : (w.setSock fd).timers = w.timers := rfl

/-- The channel's removal touches no timer. -/
@[simp] theorem timers_dropChannel : w.dropChannel.timers = w.timers := by
  rw [dropChannel]
  split <;> rfl

/-- Neither does the callback of a new connection. -/
@[simp] theorem timers_newConnection : w.newConnection.timers = w.timers := by
  rw [newConnection]
  split <;> rfl

@[simp] theorem id_dropChannel :
    w.dropChannel.connector.connectTimeoutId = w.connector.connectTimeoutId := by
  rw [dropChannel]
  split <;> rfl

/-- Behind a cancellation no timeout is remembered. -/
@[simp] theorem id_cancelTimeout : w.cancelTimeout.connector.connectTimeoutId = none := by
  rw [cancelTimeout]
  split
  · assumption
  · rfl

/-- Handing out the socket concerns neither the channel nor the timer. -/
theorem newConnection_frame : w.newConnection.connector.state = w.connector.state ∧
    w.newConnection.connector.channel = w.connector.channel ∧
    w.newConnection.connector.connectTimeoutId = w.connector.connectTimeoutId := by
  rw [newConnection]
  split <;> exact ⟨rfl, rfl, rfl⟩

/-- Cancelling the timer whose id is kept leaves none of the connector's armed. -/
theorem Inv.cancelTimeout (htidy : w.timers.Tidy (· = .handleTimeout))
    (harmed : ∀ id, w.timers.Armed id .handleTimeout → w.connector.connectTimeoutId = some id) :
    w.cancelTimeout.timers.Tidy (· = .handleTimeout) ∧
      ∀ id, ¬w.cancelTimeout.timers.Armed id .handleTimeout := by
  rw [ConnectorLoop.cancelTimeout]
  split
  · rename_i hnone
    refine ⟨htidy, fun id hid => ?_⟩
    have := harmed id hid
    rw [hnone] at this
    contradiction
  · rename_i id hid
    refine ⟨htidy.cancelInLoop id, fun id' hid' => ?_⟩
    obtain ⟨harmed', hne⟩ := (htidy.armed_cancelInLoop id).mp hid'
    have := harmed id' harmed'
    rw [hid, Option.some.injEq] at this
    exact hne this.symm

/-- `handleError` keeps the invariant. -/
theorem Inv.handleError (h : w.Inv) : w.handleError.Inv := by
  rw [ConnectorLoop.handleError]
  split
  · obtain ⟨htidy, hnone⟩ :=
      Inv.cancelTimeout (w := (w.dropChannel.setSock none).setState .kDisconnected)
        (by simpa [setState] using h.tidy) (by simpa [setState, setSock] using h.together.armed)
    refine ⟨htidy, together_idle ?_ ?_ id_cancelTimeout hnone⟩
    · rw [state_cancelTimeout]
      simp [setState]
    · rw [channel_cancelTimeout]
      exact channel_dropChannel
  · exact h

/-- `stop()` keeps it. -/
theorem Inv.stop (h : w.Inv) : w.stop.Inv := by
  rw [ConnectorLoop.stop]
  by_cases hstate : w.connector.state = .kConnecting
  · have hchannel := h.together.channel_iff.mpr hstate
    rw [if_pos hstate]
    dsimp only
    rw [if_pos (show (w.setState .kDisconnected).connector.channel.isSome from hchannel)]
    obtain ⟨htidy, hnone⟩ :=
      Inv.cancelTimeout (w := (w.setState .kDisconnected).dropChannel.setSock none)
        (by simpa [setState] using h.tidy) (by simpa [setState, setSock] using h.together.armed)
    refine ⟨htidy, together_idle ?_ ?_ id_cancelTimeout hnone⟩
    · rw [state_cancelTimeout]
      simp [setSock, setState]
    · rw [channel_cancelTimeout]
      exact channel_dropChannel
  · rw [if_neg hstate]
    obtain ⟨htidy, hnone⟩ := Inv.cancelTimeout h.tidy h.together.armed
    refine ⟨htidy, together_idle ?_ ?_ id_cancelTimeout hnone⟩
    · rwa [state_cancelTimeout]
    · rw [channel_cancelTimeout]
      exact (h.together.idle hstate).1

/-- An attempt that succeeds ends with its channel and its timer. -/
theorem Inv.handleWrite (h : w.Inv) : (w.handleWrite false).Inv := by
  rw [ConnectorLoop.handleWrite]
  split
  · exact h
  · simp only [Bool.false_eq_true, if_false]
    obtain ⟨htidy, hnone⟩ := Inv.cancelTimeout h.tidy h.together.armed
    obtain ⟨hstate, hchannel, hid⟩ :=
      newConnection_frame (w := (w.cancelTimeout.setState .kConnected).dropChannel)
    refine ⟨by simpa [setState] using htidy, together_idle ?_ ?_ ?_ ?_⟩
    · rw [hstate]
      simp [setState]
    · rw [hchannel]
      exact channel_dropChannel
    · rw [hid]
      simp [setState]
    · simpa [setState] using hnone

/-- The timer that ends an attempt is the one whose id is kept; it is not armed any more. -/
theorem Inv.handleTimeout (htidy : w.timers.Tidy (· = .handleTimeout))
    (h : w.connector.state ≠ .kConnecting →
      Together w.connector (w.timers.Armed · .handleTimeout) (w.timers.Due · .handleTimeout))
    (hnone : w.connector.state = .kConnecting → ∀ id, ¬w.timers.Armed id .handleTimeout) :
    w.handleTimeout.Inv := by
  rw [ConnectorLoop.handleTimeout]
  by_cases hstate : w.connector.state = .kConnecting
  · rw [if_neg (by simpa using hstate)]
    refine ⟨by simpa [setState] using htidy, together_idle ?_ ?_ rfl ?_⟩
    · simp [setState]
    · exact channel_dropChannel
    · simpa [setState] using hnone hstate
  · rw [if_pos hstate]
    exact ⟨htidy, h hstate⟩

/-- An attempt that begins when none is in progress. -/
theorem Inv.connect (h : w.Inv) {r : ConnectResult} {timer : Addr}
    (ha : w.timers.AddressOk timer)
    (hr : w.connector.state = .kConnecting → r.proceeds = false) : (w.connect r timer).Inv := by
  cases r with
  | noSocket => exact ⟨h.tidy, h.together.channel_iff, h.together.id_iff, h.together.armed,
      h.together.placed⟩
  | failed fd => exact ⟨h.tidy, h.together.channel_iff, h.together.id_iff, h.together.armed,
      h.together.placed⟩
  | connected fd =>
    have hstate : w.connector.state ≠ .kConnecting := fun hc => by
      simpa [ConnectResult.proceeds] using hr hc
    obtain ⟨hchannel, hid⟩ := h.together.idle hstate
    obtain ⟨hstate', hchannel', hid'⟩ :=
      newConnection_frame (w := (w.setSock (some fd)).setState .kConnected)
    refine ⟨?_, together_idle ?_ ?_ ?_ ?_⟩
    · simpa [ConnectorLoop.connect, setState] using h.tidy
    · rw [ConnectorLoop.connect, hstate']
      simp [setState]
    · rw [ConnectorLoop.connect, hchannel']
      exact hchannel
    · rw [ConnectorLoop.connect, hid']
      exact hid
    · simpa [ConnectorLoop.connect, setState] using h.together.not_armed hstate
  | inProgress fd =>
    have hstate : w.connector.state ≠ .kConnecting := fun hc => by
      simpa [ConnectResult.proceeds] using hr hc
    have hnone := h.together.not_armed hstate
    have harm : w.connect (.inProgress fd) timer =
        { ((w.setSock (some fd)).setState .kConnecting).makeChannel fd with
          connector := { (((w.setSock (some fd)).setState .kConnecting).makeChannel fd).connector
            with connectTimeoutId := some ⟨timer, w.timers.queue.heap.born⟩ }
          timers := { w.timers with
            queue := w.timers.queue.add .handleTimeout (w.timers.clock + connectTimeout) .zero
              timer ha.free w.timers.clock } } :=
      dif_pos ha.free
    have harmed (id : TimerId) :
        TimerLoop.Armed { w.timers with
          queue := w.timers.queue.add .handleTimeout (w.timers.clock + connectTimeout) .zero
            timer ha.free w.timers.clock } id .handleTimeout ↔
          id = ⟨timer, w.timers.queue.heap.born⟩ := by
      rw [TimerLoop.Armed, TimerQueue.armed_add]
      simp only [and_true, or_iff_left_iff_imp]
      exact fun hid => absurd hid (hnone id)
    rw [harm]
    refine ⟨h.tidy.add ha fun _ => rfl, ?_, ?_, fun id hid => ?_, fun id hid => ?_⟩
    · simp [makeChannel, setState]
    · simp [makeChannel, setState]
    · rw [(harmed id).mp hid]
    · rw [Option.some.injEq] at hid
      exact .inl ((harmed id).mpr hid.symm)

/-! ## Runs -/

/-- An action of the timers is a step of the timers alone. -/
theorem withTimers_eq_some {a : Timer.Action Task} (h : w.withTimers a = some w') :
    ∃ timers, w.timers.step a = some timers ∧ w' = { w with timers } := by
  obtain ⟨timers, hstep, rfl⟩ := Option.map_eq_some_iff.mp h
  exact ⟨timers, hstep, rfl⟩

/-- A step of the timers that arms no timer of an attempt, and loses none. -/
theorem Inv.withTimers (h : w.Inv) {timers : TimerLoop Task}
    (htidy : timers.Tidy (· = .handleTimeout))
    (harmed : ∀ id, timers.Armed id .handleTimeout → w.timers.Armed id .handleTimeout)
    (hplaced : ∀ id, w.connector.connectTimeoutId = some id →
      w.timers.Armed id .handleTimeout ∨ w.timers.Due id .handleTimeout →
      timers.Armed id .handleTimeout ∨ timers.Due id .handleTimeout) :
    Inv { w with timers } :=
  ⟨htidy, h.together.timers harmed hplaced⟩

/-- The batch comes to its next timer: the due ones are one less. -/
theorem nextEntry_spec (h : w.Inv) (hstep : w.withTimers .nextEntry = some w') :
    ∃ timers id cb, w' = { w with timers } ∧ w.nextCallback = some cb ∧
      w.timers.Due id cb ∧ timers.Tidy (· = .handleTimeout) ∧
      (∀ id' cb', timers.Armed id' cb' ↔ w.timers.Armed id' cb') ∧
      ∀ id' cb', timers.Due id' cb' ↔ w.timers.Due id' cb' ∧ id' ≠ id := by
  obtain ⟨timers, htimers, rfl⟩ := withTimers_eq_some hstep
  obtain ⟨now, es, e, rest, hb⟩ :
      ∃ now es e rest, w.timers.batch = some ⟨now, es, e :: rest, false⟩ := by
    cases TimerLoop.moves_of_step htimers with
    | nextEntry hb => exact ⟨_, _, _, _, hb⟩
  obtain ⟨id, cb, hrun, -, hdue, htidy, harmed, hdue', -⟩ := h.tidy.nextEntry hb htimers
  refine ⟨timers, id, cb, rfl, ?_, hdue, htidy, harmed, hdue'⟩
  rw [nextCallback, hb]
  exact hrun

/-- A timer of another user is started, or that of the attempt. -/
theorem Inv.nextEntry (h : w.Inv) (hg : w.OneAttempt .nextEntry)
    (hstep : w.step .nextEntry = some w') : w'.Inv := by
  rw [ConnectorLoop.step] at hstep
  split at hstep
  · rename_i hnext
    obtain ⟨u, hu, hstep⟩ := Option.bind_eq_some_iff.mp hstep
    obtain ⟨timers, id, cb, rfl, hcb, hdue, htidy, harmed, hdue'⟩ := nextEntry_spec h hu
    have hinv : (ConnectorLoop.handleTimeout { w with timers }).Inv := by
      refine Inv.handleTimeout (w := { w with timers := timers }) htidy (fun hstate => ?_)
        (fun hstate id' hid' => ?_)
      · obtain ⟨hchannel, hnone⟩ := h.together.idle hstate
        exact together_idle hstate hchannel hnone fun id' hid' =>
          h.together.not_armed hstate id' ((harmed id' _).mp hid')
      · -- the attempt was begun before the batch, which has its timer
        have hnone := List.eq_nil_iff_forall_not_mem.mp (hg hstate hnext)
        exact hnone ⟨id'.sequence, id'.timer⟩
          (TimerQueue.mem_armedWith.mpr ((harmed id' .handleTimeout).mp hid'))
    obtain ⟨timers', htimers', rfl⟩ := withTimers_eq_some hstep
    obtain ⟨htidy', harmed'', hdue''⟩ := hinv.tidy.callbackReturns htimers'
    exact hinv.withTimers htidy' (fun id => (harmed'' id _).mp) fun id _ hplaced =>
      hplaced.imp (harmed'' id _).mpr (hdue'' id _).mpr
  · rename_i hnext
    obtain ⟨timers, id, cb, rfl, hcb, hdue, htidy, harmed, hdue'⟩ := nextEntry_spec h hstep
    refine h.withTimers htidy (fun id' => (harmed id' _).mp) fun id' _ hplaced =>
      hplaced.imp (harmed id' _).mpr fun hdue₀ => (hdue' id' _).mpr ⟨hdue₀, ?_⟩
    rintro rfl
    rw [TimerQueue.DueIn.callback_eq hdue hdue₀] at hcb
    exact hnext hcb

/-- Every step that keeps to one attempt keeps the invariant. -/
theorem Inv.step {a : Action} (h : w.Inv) (hg : w.OneAttempt a) (hstep : w.step a = some w') :
    w'.Inv := by
  cases a with
  | start r timer =>
    obtain ⟨⟨-, ha⟩, hw⟩ := Option.ite_none_right_eq_some.mp hstep
    exact Option.some.inj hw ▸ h.connect ha hg
  | stop =>
    obtain ⟨-, hw⟩ := Option.ite_none_right_eq_some.mp hstep
    exact Option.some.inj hw ▸ h.stop
  | handleWrite err =>
    obtain ⟨-, hw⟩ := Option.ite_none_right_eq_some.mp hstep
    rw [← Option.some.inj hw]
    by_cases hstate : w.connector.state = .kConnecting
    · obtain rfl : err = false := hg hstate
      exact h.handleWrite
    · rwa [ConnectorLoop.handleWrite, if_pos hstate]
  | handleError =>
    obtain ⟨-, hw⟩ := Option.ite_none_right_eq_some.mp hstep
    exact Option.some.inj hw ▸ h.handleError
  | addTimer when_ interval timer =>
    obtain ⟨timers, htimers, rfl⟩ := withTimers_eq_some hstep
    cases TimerLoop.moves_of_step htimers with
    | addTimer ha hu =>
      have harmed (id : TimerId) :
          (w.timers.queue.add .user when_ interval timer ha.free w.timers.clock).Armed id
            .handleTimeout ↔ w.timers.Armed id .handleTimeout := by
        rw [TimerQueue.armed_add]
        simp only [reduceCtorEq, and_false, false_or]
        rfl
      refine h.withTimers (h.tidy.add ha nofun) (fun id => (harmed id).mp) fun id _ hplaced =>
        hplaced.imp (harmed id).mpr (h.tidy.due_add ha _).mpr
  | cancelTimer id =>
    obtain ⟨huser, hstep⟩ := Option.ite_none_right_eq_some.mp hstep
    obtain ⟨timers, htimers, rfl⟩ := withTimers_eq_some hstep
    cases TimerLoop.moves_of_step htimers with
    | cancel hu =>
      refine h.withTimers (h.tidy.cancelInLoop id)
        (fun id' hid' => ((h.tidy.armed_cancelInLoop id).mp hid').1) fun id' _ hplaced =>
        hplaced.imp (fun harmed => (h.tidy.armed_cancelInLoop id).mpr ⟨harmed, ?_⟩)
          (h.tidy.due_cancelInLoop id).mpr
      rintro rfl
      obtain ⟨⟨t, ht, hcb⟩, -⟩ := harmed
      rw [isUserTimer, ht] at huser
      simp [hcb] at huser
  | handleRead =>
    obtain ⟨timers, htimers, rfl⟩ := withTimers_eq_some hstep
    obtain ⟨htidy, harmed, hb, -⟩ := h.tidy.handleRead htimers
    exact h.withTimers htidy (fun id hid => (harmed id _).mpr (.inl hid)) fun id _ hplaced =>
      (harmed id _).mp (hplaced.resolve_right (TimerLoop.not_due_of_batch hb))
  | nextEntry => exact h.nextEntry hg hstep
  | callbackReturns =>
    obtain ⟨timers, htimers, rfl⟩ := withTimers_eq_some hstep
    obtain ⟨htidy, harmed, hdue⟩ := h.tidy.callbackReturns htimers
    exact h.withTimers htidy (fun id => (harmed id _).mp) fun id _ hplaced =>
      hplaced.imp (harmed id _).mpr (hdue id _).mpr
  | endBatch =>
    obtain ⟨timers, htimers, rfl⟩ := withTimers_eq_some hstep
    obtain ⟨htidy, harmed, hnone, -⟩ := h.tidy.endBatch htimers
    exact h.withTimers htidy (fun id => (harmed id _ rfl).mp) fun id _ hplaced =>
      .inl ((harmed id _ rfl).mpr (hplaced.resolve_right (hnone id _)))
  | tick micros =>
    obtain ⟨timers, htimers, rfl⟩ := withTimers_eq_some hstep
    obtain ⟨htidy, harmed, hdue⟩ := h.tidy.tick htimers
    exact h.withTimers htidy (fun id => (harmed id _).mp) fun id _ hplaced =>
      hplaced.imp (harmed id _).mpr (hdue id _).mpr

/-- One timer is armed and there is a channel while an attempt is in progress, and neither
otherwise. -/
def Consistent (w : ConnectorLoop) : Prop :=
  w.armedTimeouts.length = (if w.connector.state = .kConnecting then 1 else 0) ∧
    (w.connector.channel.isSome ↔ w.connector.state = .kConnecting)

instance (w : ConnectorLoop) : Decidable w.Consistent := by
  unfold Consistent
  infer_instance

/-- Between two batches the invariant says what is claimed. -/
theorem Inv.consistent (h : w.Inv) (hidle : w.timers.batch = none) : w.Consistent := by
  refine ⟨?_, h.together.channel_iff⟩
  have hmem (k : ActiveTimer) : k ∈ w.armedTimeouts ↔
      w.connector.connectTimeoutId = some ⟨k.timer, k.sequence⟩ := by
    rw [armedTimeouts, TimerQueue.mem_armedWith]
    exact ⟨h.together.armed _, fun hid =>
      (h.together.placed _ hid).resolve_right (TimerLoop.not_due_of_batch hidle)⟩
  cases hid : w.connector.connectTimeoutId with
  | none =>
    have hstate : w.connector.state ≠ .kConnecting := fun hc => by
      simpa [hid] using h.together.id_iff.mpr hc
    rw [if_neg hstate, List.length_eq_zero_iff, List.eq_nil_iff_forall_not_mem]
    intro k hk
    rw [hmem, hid] at hk
    contradiction
  | some id =>
    rw [if_pos (h.together.id_iff.mp (by rw [hid]; rfl))]
    have hperm : w.armedTimeouts.Perm [⟨id.sequence, id.timer⟩] := by
      refine (List.perm_ext_iff_of_nodup TimerQueue.nodup_armedWith (List.nodup_singleton _)).mpr
        fun k => ?_
      change k ∈ w.armedTimeouts ↔ _
      rw [hmem, hid, List.mem_singleton, Option.some.injEq]
      constructor
      · rintro rfl
        rfl
      · rintro rfl
        rfl
    exact hperm.length_eq

/-- In every run that keeps to one attempt at a time, whenever no batch is in progress, exactly
one timeout is armed while the connector is connecting, and none otherwise. -/
theorem consistent_of_run {newConnCallback : Bool} {as : List Action}
    (h : Run ConnectorLoop.step OneAttempt (start newConnCallback) as w)
    (hidle : w.timers.batch = none) : w.Consistent :=
  (h.invariant (inv_start newConnCallback) fun _ _ _ hw hg hstep => hw.step hg hstep).consistent
    hidle

/-- An attempt that times out, one that is stopped and one that succeeds. -/
def attempts : List Action :=
  [.start (.inProgress 5) 1, .tick 2000000, .handleRead, .nextEntry, .endBatch,
    .start (.inProgress 6) 1, .stop, .start (.failed 7) 1, .start (.inProgress 8) 1,
    .handleWrite false, .start (.inProgress 9) 1]

/-- An attempt that fails and is retried, with one timeout at a time. -/
theorem consistent_of_run_attempts :
    ∃ w, Run ConnectorLoop.step OneAttempt (start true) attempts w ∧ w.timers.batch = none ∧
      w.connector.state = .kConnecting ∧ w.Consistent := by
  have hrun : ((replay ConnectorLoop.step OneAttempt (start true) attempts).map fun w =>
      (w.timers.batch.isNone, w.connector.state)) = some (true, .kConnecting) := by
    decide +kernel
  obtain ⟨w, hw, he⟩ := Option.map_eq_some_iff.mp hrun
  obtain ⟨hbatch, hstate⟩ := Prod.mk.inj he
  have hidle : w.timers.batch = none := Option.isNone_iff_eq_none.mp hbatch
  exact ⟨w, .of_replay hw, hidle, hstate, consistent_of_run (.of_replay hw) hidle⟩

/-- `handleWrite` finds an error. -/
def failInWrite : List Action := [.start (.inProgress 5) 1, .handleWrite true]

/-- A second attempt is begun while the first is in progress. -/
def startTwice : List Action := [.start (.inProgress 5) 1, .start (.inProgress 6) 2]

/-- Both attempts expire in one batch, and a timer of the user stops the first and begins the
second in it. -/
def restartInBatch : List Action :=
  [.addTimer 10 .zero 3, .start (.inProgress 5) 1, .tick 2000000, .handleRead, .nextEntry, .stop,
    .start (.inProgress 6) 2, .callbackReturns, .nextEntry, .endBatch]

/-- A run that replays to an inconsistent state outside a batch refutes the claim. -/
theorem inconsistent_of_replay {as : List Action}
    (h : ((replay ConnectorLoop.step anyStep (start true) as).map fun w =>
      (w.timers.batch.isNone, decide w.Consistent)) = some (true, false)) :
    ∃ w, Run ConnectorLoop.step anyStep (start true) as w ∧ w.timers.batch = none ∧
      ¬w.Consistent := by
  obtain ⟨w, hw, he⟩ := Option.map_eq_some_iff.mp h
  obtain ⟨hbatch, hfalse⟩ := Prod.mk.inj he
  exact ⟨w, .of_replay hw, Option.isNone_iff_eq_none.mp hbatch, of_decide_eq_false hfalse⟩

/-- A timer outlives its attempt, two are armed, or one aborts an attempt that is not its own. -/
theorem timeout_left_behind :
    (∃ w, Run ConnectorLoop.step anyStep (start true) failInWrite w ∧ w.timers.batch = none ∧
      ¬w.Consistent) ∧
    (∃ w, Run ConnectorLoop.step anyStep (start true) startTwice w ∧ w.timers.batch = none ∧
      ¬w.Consistent) ∧
    ∃ w, Run ConnectorLoop.step anyStep (start true) restartInBatch w ∧ w.timers.batch = none ∧
      ¬w.Consistent := by
  refine ⟨inconsistent_of_replay ?_, inconsistent_of_replay ?_, inconsistent_of_replay ?_⟩
  · decide +kernel
  · decide +kernel
  · decide +kernel

end ConnectorLoop

end ClearMoon.Connect

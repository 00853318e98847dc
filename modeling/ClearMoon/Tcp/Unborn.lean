import ClearMoon.Tcp.Transmission

/-!
# Before a connection is established

A connection whose owner has made it, and that has not been established, is not registered with the
poller: no event is reported for it and none of its callbacks runs, as long as nothing is handed to
`sendWithRetransmit`.
-/

namespace ClearMoon.Tcp

open ClearMoon.Net ClearMoon.Timer

/-- Code that puts nothing into the output buffer. -/
def Functor.silent : Functor → Bool
  | sendInLoop _ | sendFileInLoop _ | sendFunc _ _ => false
  | _ => true

namespace TcpLoop

variable {w v w' : TcpLoop}

/-- The poller knows nothing of the connection, and none of its code runs. -/
structure Unborn (w : TcpLoop) : Prop where
  added : w.conn.channel.added = false
  interest : w.poller.interest = ∅
  active : .conn ∉ w.activeChannels
  stack : ∀ f ∈ w.stack, f = .timerQueue ∨ f = .user none
  todo : ∀ f ∈ w.todo, f.silent = true

/-- A connection just made is not established. -/
theorem unborn_start (fd : Nat) (callbacks : Callback → Bool) (disk : Bytes → Bytes) :
    (start fd callbacks disk).Unborn where
  added := rfl
  interest := rfl
  active := List.not_mem_nil
  stack _ hf := absurd hf List.not_mem_nil
  todo f hf := absurd hf (Option.not_mem_none f)

/-- What stays as it is. -/
theorem Unborn.of_same (h : w.Unborn) (hchannel : v.conn.channel = w.conn.channel)
    (hpoller : v.poller = w.poller) (hactive : ∀ s ∈ v.activeChannels, s ∈ w.activeChannels)
    (hstack : ∀ f ∈ v.stack, f ∈ w.stack ∨ f = .timerQueue ∨ f = .user none)
    (htodo : ∀ f ∈ v.todo, f.silent = true) : v.Unborn where
  added := hchannel ▸ h.added
  interest := hpoller ▸ h.interest
  active hmem := h.active (hactive _ hmem)
  stack f hf := (hstack f hf).elim (h.stack f) id
  todo := htodo

/-- A channel that has never been registered is not removed either. -/
theorem removeChannel_of_added (h : w.conn.channel.added = false) : w.removeChannel = w := by
  rw [removeChannel, Channel.remove, h]
  rfl

/-- Code that does not establish the connection leaves it unborn. -/
theorem Unborn.run (h : w.Unborn) (env : Env) {f : Functor} (hf : f.silent = true)
    (htodo : w.todo = none) (hnode : ∀ seq : Nat, w.conn.pendingRetrans[seq]? = none)
    (hstate : w.conn.state = .kConnecting) (hstate' : (w.run env f).conn.state = .kConnecting) :
    (w.run env f).Unborn := by
  have hsame {v : TcpLoop} (hchannel : v.conn.channel = w.conn.channel)
      (hpoller : v.poller = w.poller) (hactive : v.activeChannels = w.activeChannels)
      (hstack : ∀ f ∈ v.stack, f ∈ w.stack ∨ f = .timerQueue ∨ f = .user none)
      (htodo' : v.todo = w.todo) : v.Unborn :=
    h.of_same hchannel hpoller (hactive ▸ fun _ => id) hstack (by rw [htodo', htodo]; simp)
  have hkept (v : TcpLoop) (hs : v.stack = w.stack) (f : Frame) (hmem : f ∈ v.stack) :
      f ∈ w.stack ∨ f = .timerQueue ∨ f = .user none := .inl (hs ▸ hmem)
  have hforce : w.forceCloseInLoop = w := by
    rw [forceCloseInLoop, if_neg (by simp [hstate])]
  have hclose (v : TcpLoop) (hv : v.conn.state = .kConnecting) : v.handleClose = v.abort := by
    rw [handleClose, hv]
  cases f with
  | connectEstablelished =>
    exfalso
    have hrun : (w.run env .connectEstablelished).conn.state = .kConnected :=
      state_connectEstablelished env hstate
    rw [hrun] at hstate'
    contradiction
  | connectDestroyed =>
    obtain ⟨queue, hclear⟩ := w.clear_frame
    have hrun : w.run env .connectDestroyed = w.cancelIdleTimer.clearRetrans := by
      change w.connectDestroyed = _
      rw [connectDestroyed, if_neg (by simp [hstate])]
      refine removeChannel_of_added ?_
      rw [hclear]
      exact h.added
    rw [hrun, hclear]
    exact hsame rfl rfl rfl (hkept _ rfl) rfl
  | shutdownInLoop =>
    change w.shutdownInLoop.Unborn
    rw [shutdownInLoop, hclose w.shutdownWrite hstate]
    split
    · exact hsame rfl rfl rfl (hkept _ rfl) rfl
    · exact hsame rfl rfl rfl (hkept _ rfl) rfl
  | forceCloseInLoop =>
    change w.forceCloseInLoop.Unborn
    rwa [hforce]
  | ackReceived seq =>
    obtain ⟨queue, pendingRetrans, hack⟩ := w.ackReceived_frame seq
    change (w.ackReceived seq).Unborn
    rw [hack]
    exact hsame rfl rfl rfl (hkept _ rfl) rfl
  | onIdleTimeout =>
    change w.forceCloseInLoop.Unborn
    rwa [hforce]
  | onRetransmitTimeout seq =>
    change (w.onRetransmitTimeout seq).Unborn
    rwa [onRetransmitTimeout, hnode]
  | user => exact hsame rfl rfl rfl (fun f hf => (List.mem_cons.mp hf).elim
      (fun he => .inr (.inr he)) .inl) rfl
  | _ => contradiction

/-- A step that leaves the connection connecting leaves it unborn, unless it calls it. -/
theorem Unborn.step {a : Action} (h : w.Unborn) (hqueue : ∀ f ∈ w.queue, f.silent = true)
    (hnode : ∀ seq : Nat, w.conn.pendingRetrans[seq]? = none)
    (hcall : ∀ c, a ≠ .call c ∧ a ≠ .callElsewhere c) (hstep : w.step a = some w')
    (hstate : w'.conn.state = .kConnecting) : w'.Unborn := by
  have hbefore : w.conn.state = .kConnecting := by
    by_contra hne
    exact ne_kConnecting_of_rank hne (moves_of_step hstep).rank_le hstate
  have hpush {v : TcpLoop} {frame : Frame} (hv : v.stack = w.stack)
      (hframe : frame = .timerQueue ∨ frame = .user none) (f : Frame)
      (hf : f ∈ (v.push frame).stack) : f ∈ w.stack ∨ f = .timerQueue ∨ f = .user none := by
    rcases List.mem_cons.mp hf with rfl | hf
    · exact .inr hframe
    · exact .inl (hv ▸ hf)
  have htail {active : List Source} {s : Source} {rest : List Source} (hactive : active = s :: rest)
      (t : Source) (ht : t ∈ rest) : t ∈ active := hactive ▸ List.mem_cons_of_mem _ ht
  cases stepped_of_step hstep with
  | poll hidle hfunc hready hw =>
    have hconn : .conn ∉ ‹List Source› := by
      intro hmem
      rw [reportable, Bool.and_eq_true, h.interest] at hready
      simp [hmem] at hready
    obtain rfl | rfl := hw <;>
      exact ⟨h.added, h.interest, hconn, h.stack, h.todo⟩
  | event hidle hactive => exact absurd (hactive ▸ List.mem_cons_self) h.active
  | timerEvent hidle hactive htimers =>
    exact h.of_same rfl rfl (htail hactive) (hpush rfl (.inl rfl)) h.todo
  | otherEvent hidle hactive =>
    exact h.of_same rfl rfl (htail hactive) (hpush rfl (.inr rfl)) h.todo
  | doPendingFuncs hidle hfunc => exact ⟨h.added, h.interest, h.active, h.stack, h.todo⟩
  | @nextFunc f fs hidle hfunc =>
    refine ⟨h.added, h.interest, h.active, h.stack, fun g hg => ?_⟩
    obtain rfl := Option.some.inj hg
    exact hqueue f (by simp [queue, hfunc])
  | @run env f htodo henv =>
    have hcleared : w.clearTodo.Unborn := ⟨h.added, h.interest, h.active, h.stack, fun f hf =>
      absurd hf (Option.not_mem_none f)⟩
    exact hcleared.run env (h.todo f htodo) rfl hnode hbefore hstate
  | @resume env frame rest _ htodo hstack henv hr =>
    have hrest (f : Frame) (hf : f ∈ rest) : f ∈ w.stack := hstack ▸ List.mem_cons_of_mem _ hf
    obtain rfl | rfl := h.stack frame (hstack ▸ List.mem_cons_self)
    · simp only [resumeFrame, handleTimers] at hr
      split at hr
      · contradiction
      · obtain ⟨timers, -, rfl⟩ := Option.map_eq_some_iff.mp hr
        exact h.of_same rfl rfl (fun _ => id) (fun f hf => (List.mem_cons.mp hf).elim
          (fun he => .inr (.inl he)) fun hf => .inl (hrest f hf)) h.todo
      · obtain ⟨timers, -, rfl⟩ := Option.map_eq_some_iff.mp hr
        refine h.of_same rfl rfl (fun _ => id) (fun f hf => (List.mem_cons.mp hf).elim
          (fun he => .inr (.inl he)) fun hf => .inl (hrest f hf)) fun f hf => ?_
        obtain ⟨task, -, rfl⟩ := Option.map_eq_some_iff.mp hf
        cases task <;> rfl
      · obtain ⟨timers, -, rfl⟩ := Option.map_eq_some_iff.mp hr
        exact h.of_same rfl rfl (fun _ => id) (fun f hf => .inl (hrest f hf)) h.todo
    · contradiction
  | call => exact absurd rfl (hcall _).1
  | connectDestroyed =>
    refine h.of_same rfl rfl (fun _ => id) (fun _ => .inl) fun f hf => ?_
    obtain rfl := Option.some.inj hf
    rfl
  | retrieve htodo hstack =>
    rcases h.stack _ (hstack ▸ List.mem_cons_self) with hf | hf <;> contradiction
  | addTimer => exact ⟨h.added, h.interest, h.active, h.stack, h.todo⟩
  | cancelTimer => exact ⟨h.added, h.interest, h.active, h.stack, h.todo⟩
  | ret htodo hstack =>
    exact h.of_same rfl rfl (fun _ => id)
      (fun f hf => .inl (hstack ▸ List.mem_cons_of_mem _ hf)) h.todo
  | callElsewhere => exact absurd rfl (hcall _).2
  | connectDestroyedElsewhere => exact ⟨h.added, h.interest, h.active, h.stack, h.todo⟩
  | runElsewhere => exact ⟨h.added, h.interest, h.active, h.stack, h.todo⟩
  | tick => exact ⟨h.added, h.interest, h.active, h.stack, h.todo⟩

end TcpLoop

end ClearMoon.Tcp

import ClearMoon.Tcp.Rooted
import ClearMoon.Tcp.Standing

/-!
# What the steps of a connection do to a number

The lambdas of a number are counted in the queues and on the stack, next to its entry and the calls
of `onRetransmitTimeout` that have a reference to it. Every step of a connection moves every number
in one of the ways that a number may be moved.
-/

namespace ClearMoon.Tcp

open ClearMoon.Net ClearMoon.Timer

/-- The number whose lambda the functor is. -/
def Functor.sends? : Functor → Option Nat
  | sendFunc _ seq => some seq
  | _ => none

/-- The number whose lambda stands behind `send`. -/
def Frame.sends? : Frame → Option Nat
  | sendFunc _ seq => some seq
  | _ => none

/-- The reference of a call of `onRetransmitTimeout` for the number. -/
def Frame.resend? (seq : Nat) : Frame → Option Nat
  | onRetransmitTimeout k node => if k = seq then some node else none
  | _ => none

/-- A frame that is not about the retransmission of the number. -/
def Frame.plain (seq : Nat) : Frame → Bool
  | sendFunc _ k | onRetransmitTimeout k _ => k ≠ seq
  | _ => true

/-- The frames that the connection's own code leaves are about no number. -/
theorem Frame.plain_of_inner {f : Frame} (h : f.inner = true) (seq : Nat) : f.plain seq = true := by
  cases f with
  | user cb => rfl
  | handleWrite => rfl
  | handleWriteEnd => rfl
  | _ => contradiction

/-- What it runs next is no transmission. -/
theorem Functor.sends_of_inner {f : Functor} (h : f.inner = true) : f.sends? = none := by
  cases f with
  | sendFunc data seq => contradiction
  | _ => rfl

/-- What a call does to a number. -/
def ConnCall.transmission? : ConnCall → Option Transmission
  | sendWithRetransmit _ seq => some (.given seq)
  | _ => none

namespace TcpLoop

variable {w v w' : TcpLoop} {seq b : Nat}

def standing (w : TcpLoop) (seq : Nat) : Standing where
  state := w.conn.state
  queued := (w.todo.toList ++ w.queue).countP fun f => f.sends? = some seq
  sending := w.stack.countP fun f => f.sends? = some seq
  node := w.conn.pendingRetrans[seq]?
  resends := w.stack.filterMap (Frame.resend? seq)

/-- What running the functor does to a number. -/
def transmits (w : TcpLoop) : Functor → Option Transmission
  | .sendFunc _ seq => some (.handed seq)
  | .ackReceived seq => some (.acked seq)
  | .connectDestroyed => some .destroyed
  | .onRetransmitTimeout seq =>
    match w.conn.pendingRetrans[seq]? with
    | none => none
    | some node => if kMaxRetries ≤ node.entry.retries then none else some (.handed seq)
  | _ => none

/-- What a step does to a number. -/
def transmission (w : TcpLoop) : Action → Option Transmission
  | .call c | .callElsewhere c => c.transmission?
  | .run _ => w.todo.bind w.transmits
  | .resume _ =>
    match w.stack with
    | .sendFunc _ seq :: _ => some (.finished seq)
    | _ => none
  | _ => none

/-- What has happened to the number between two states. -/
abbrev Moves (w : TcpLoop) (seq : Nat) (e : Option Transmission) (w' : TcpLoop) : Prop :=
  Standing.Moves seq (w.standing seq) e (w'.standing seq)

/-- Plain frames hold no lambda of the number. -/
theorem countP_plain {fs : List Frame} (hfs : ∀ f ∈ fs, f.plain seq = true) :
    (fs.countP fun f => f.sends? = some seq) = 0 := by
  rw [List.countP_eq_zero]
  intro f hf
  have := hfs f hf
  cases f with
  | sendFunc data k => simpa [Frame.plain, Frame.sends?] using this
  | _ => simp [Frame.sends?]

/-- Nor do they hold a timeout of it. -/
theorem filterMap_plain {fs : List Frame} (hfs : ∀ f ∈ fs, f.plain seq = true) :
    fs.filterMap (Frame.resend? seq) = [] := by
  rw [List.filterMap_eq_nil_iff]
  intro f hf
  have := hfs f hf
  cases f with
  | onRetransmitTimeout k node => simpa [Frame.plain, Frame.resend?] using this
  | _ => rfl

/-- What is run next counts only if it is a transmission of the number. -/
theorem countP_todo {todo : Option Functor} (h : ∀ f ∈ todo, f.sends? ≠ some seq) :
    (todo.toList.countP fun f => f.sends? = some seq) = 0 := by
  rw [List.countP_eq_zero]
  intro f hf
  simpa using h f (Option.mem_toList.mp hf)

theorem not_sends_of_none {todo : Option Functor} (h : todo = none) :
    ∀ f ∈ todo, f.sends? ≠ some seq := by
  simp [h]

theorem not_sends_of_some {todo : Option Functor} {f : Functor} (h : todo = some f)
    (hf : f.sends? ≠ some seq) : ∀ g ∈ todo, g.sends? ≠ some seq := by
  simpa [h] using hf

/-- Only the state and the entry have changed. -/
theorem standing_frame {p q base : List Frame} (hstack : w.stack = p ++ base)
    (hstack' : w'.stack = q ++ base) (hp : ∀ f ∈ p, f.plain seq = true)
    (hq : ∀ f ∈ q, f.plain seq = true) (htodo : ∀ f ∈ w.todo, f.sends? ≠ some seq)
    (htodo' : ∀ f ∈ w'.todo, f.sends? ≠ some seq) (hqueue : w'.queue = w.queue) :
    w'.standing seq = { w.standing seq with
      state := w'.conn.state
      node := w'.conn.pendingRetrans[seq]? } := by
  simp only [standing, hstack, hstack', hqueue, List.countP_append, List.filterMap_append,
    countP_plain hp, countP_plain hq, filterMap_plain hp, filterMap_plain hq,
    countP_todo htodo, countP_todo htodo']

/-- The entry is left alone, and nothing else has happened to the number. -/
theorem moves_frame {e : Option Transmission} {p q base : List Frame}
    (hstack : w.stack = p ++ base) (hstack' : w'.stack = q ++ base)
    (hp : ∀ f ∈ p, f.plain seq = true) (hq : ∀ f ∈ q, f.plain seq = true)
    (htodo : ∀ f ∈ w.todo, f.sends? ≠ some seq) (htodo' : ∀ f ∈ w'.todo, f.sends? ≠ some seq)
    (hqueue : w'.queue = w.queue)
    (hnode : w'.conn.pendingRetrans[seq]? = w.conn.pendingRetrans[seq]?)
    (he : ∀ t ∈ e, t.seq? ≠ some seq) : w.Moves seq e w' := by
  rw [Moves, standing_frame hstack hstack' hp hq htodo htodo' hqueue, hnode]
  exact .still he

/-- A calm transition, with what goes onto the stack and off it. -/
theorem moves_calm {e : Option Transmission} {p q base : List Frame} (h : v.Calm w')
    (hstack : w.stack = p ++ base) (hv : v.stack = q ++ base)
    (hp : ∀ f ∈ p, f.plain seq = true) (hq : ∀ f ∈ q, f.plain seq = true)
    (htodo : ∀ f ∈ w.todo, f.sends? ≠ some seq) (hnone : v.todo = none)
    (hnode : v.conn.pendingRetrans[seq]? = w.conn.pendingRetrans[seq]?)
    (hqueue : w'.queue = w.queue)
    (he : ∀ t ∈ e, t.seq? ≠ some seq) : w.Moves seq e w' := by
  obtain ⟨hs, hstack', hinner⟩ := h.stack
  have hstack' : w'.stack = (hs ++ q) ++ base := by rw [hstack', hv, List.append_assoc]
  have hplain : ∀ f ∈ hs ++ q, f.plain seq = true := fun f hf =>
    (List.mem_append.mp hf).elim (fun hf => Frame.plain_of_inner (hinner f hf) seq) (hq f)
  have htodo' : ∀ f ∈ w'.todo, f.sends? ≠ some seq := by
    intro f hf
    rw [Functor.sends_of_inner ((h.todo f hf).resolve_left (by simp [hnone]))]
    simp
  rcases h.pending with hsame | ⟨hempty, hclosed⟩
  · exact moves_frame hstack hstack' hp hplain htodo htodo' hqueue (by rw [hsame, hnode]) he
  · rw [Moves, standing_frame hstack hstack' hp hplain htodo htodo' hqueue, hempty,
      Std.ExtTreeMap.getElem?_empty]
    exact .drop he (.inr hclosed)

/-! ### The functors -/

/-- An ack takes the entry of its own number. -/
theorem getElem?_ackReceived (k seq : Nat) : (w.ackReceived k).conn.pendingRetrans[seq]? =
    if k = seq then none else w.conn.pendingRetrans[seq]? := by
  rw [ackReceived]
  split
  · rename_i hnone
    split
    · rename_i heq
      rwa [← heq]
    · rfl
  · simp [Std.ExtTreeMap.getElem?_erase]

/-- An ack is a move of its number, and of no other one. -/
theorem moves_ackReceived {k : Nat} (htodo : w.todo = some (.ackReceived k))
    (hqueue : (w.clearTodo.ackReceived k).queue = w.queue) :
    w.Moves seq (some (.acked k)) (w.clearTodo.ackReceived k) := by
  have hget := w.clearTodo.getElem?_ackReceived k seq
  obtain ⟨queue, pendingRetrans, hframe⟩ := w.clearTodo.ackReceived_frame k
  have hsame : (w.clearTodo.ackReceived k).standing seq = { w.standing seq with
      node := (w.clearTodo.ackReceived k).conn.pendingRetrans[seq]? } := by
    rw [standing_frame (p := []) (q := []) rfl (by rw [hframe]; rfl) (by simp)
      (by simp) (not_sends_of_some htodo (by simp [Functor.sends?]))
      (not_sends_of_none (by rw [hframe]; rfl)) hqueue]
    rw [hframe]
    rfl
  rw [Moves, hsame, hget]
  split
  · rename_i heq
    subst heq
    exact .ack
  · rename_i hne
    refine .still ?_
    simpa [Transmission.seq?] using hne

/-- Destroying the connection drops the entries of all numbers. -/
theorem moves_connectDestroyed (htodo : w.todo = some .connectDestroyed)
    (hqueue : w.clearTodo.connectDestroyed.queue = w.queue) :
    w.Moves seq (some .destroyed) w.clearTodo.connectDestroyed := by
  have hclear (u : TcpLoop) : u.cancelIdleTimer.clearRetrans.removeChannel.control = u.control ∧
      u.cancelIdleTimer.clearRetrans.removeChannel.conn.pendingRetrans = ∅ := by
    obtain ⟨queue, h⟩ := u.clear_frame
    rw [h]
    exact ⟨rfl, rfl⟩
  have hdestroyed : w.clearTodo.connectDestroyed.control = w.clearTodo.control ∧
      w.clearTodo.connectDestroyed.conn.pendingRetrans = ∅ := by
    rw [connectDestroyed]
    split
    · exact hclear (w.clearTodo.setState .kDisConnected)
    · exact hclear w.clearTodo
  obtain ⟨hcontrol, hempty⟩ := hdestroyed
  obtain ⟨hnone, hstack⟩ := Prod.mk.inj hcontrol
  rw [Moves, standing_frame (p := []) (q := []) rfl hstack (by simp) (by simp)
    (not_sends_of_some htodo (by simp [Functor.sends?])) (not_sends_of_none hnone) hqueue, hempty,
    Std.ExtTreeMap.getElem?_empty]
  exact .drop (by simp [Transmission.seq?]) (.inl rfl)

/-- The lambda hands the data over and leaves its frame. -/
theorem moves_sendFunc {data : Bytes} {k : Nat} (htodo : w.todo = some (.sendFunc data k))
    (hqueue : (w.clearTodo.sendFunc data k).queue = w.queue) :
    w.Moves seq (some (.handed k)) (w.clearTodo.sendFunc data k) := by
  have hsent : (w.clearTodo.sendFunc data k).stack = .sendFunc data k :: w.stack ∧
      (w.clearTodo.sendFunc data k).conn = w.conn ∧
      ∀ f ∈ (w.clearTodo.sendFunc data k).todo, f.sends? ≠ some seq := by
    rw [sendFunc, send]
    split
    · exact ⟨rfl, rfl, not_sends_of_none rfl⟩
    · exact ⟨rfl, rfl, not_sends_of_some rfl (by simp [Functor.sends?])⟩
  obtain ⟨hstack, hconn, hnone⟩ := hsent
  by_cases hk : k = seq
  · subst hk
    have hqueued : (w.standing k).queued = (w.queue.countP fun f => f.sends? = some k) + 1 := by
      simp [standing, htodo, Functor.sends?]
    have hsame : (w.clearTodo.sendFunc data k).standing k = { w.standing k with
        queued := w.queue.countP fun f => f.sends? = some k
        sending := (w.standing k).sending + 1 } := by
      simp [standing, hstack, hconn, hqueue, countP_todo hnone, Frame.sends?, Frame.resend?,
        List.filterMap_cons]
    rw [Moves, hsame]
    exact .hand hqueued
  · refine moves_frame (p := []) (q := [.sendFunc data k]) rfl hstack (by simp)
      (by simpa [Frame.plain] using hk) (not_sends_of_some htodo ?_) hnone hqueue (by rw [hconn]) ?_
    · simpa [Functor.sends?] using hk
    · simpa [Transmission.seq?] using hk

/-- A connection that is established is closed by `forceCloseInLoop`, unless it is already. -/
theorem state_forceCloseInLoop (hstate : w.conn.state ≠ .kConnecting) :
    w.forceCloseInLoop.conn.state = .kDisConnected := by
  rcases w.forceCloseInLoop_cases with hc | ⟨hconnecting, -⟩
  · have hclosed : w.forceCloseInLoop.view.state = .kDisConnected := by
      generalize w.forceCloseInLoop.view = u at hc ⊢
      cases hc with
      | already hs => exact hs
      | closed hs => rfl
      | aborted hs => exact absurd hs hstate
    exact hclosed
  · exact absurd hconnecting hstate

/-- No entry is made when a connection is closed. -/
theorem getElem?_forceCloseInLoop (h : w.conn.pendingRetrans[seq]? = none) :
    w.forceCloseInLoop.conn.pendingRetrans[seq]? = none := by
  rcases calm_forceCloseInLoop.pending with hsame | ⟨hempty, -⟩
  · rw [hsame, h]
  · rw [hempty, Std.ExtTreeMap.getElem?_empty]

/-- No timeout is being handled when the loop thread comes to one. -/
theorem Matched.resends_of_timeout (h : w.Matched b) {k : Nat}
    (htodo : w.todo = some (.onRetransmitTimeout k)) : (w.standing seq).resends = [] := by
  have hframes : w.held.frames = [.timerQueue] :=
    h.shaped.timeout (by simp [held, htodo, Functor.timeout?])
  rw [standing, List.filterMap_eq_nil_iff]
  intro f hf
  cases f with
  | onRetransmitTimeout j n =>
    have hmem : .onRetransmitTimeout j n ∈ w.held.frames := List.mem_filter.mpr ⟨hf, rfl⟩
    rw [hframes] at hmem
    simp at hmem
  | _ => rfl

/-- The entry of a number is given up, and the connection with it. -/
theorem moves_exhaust {k : Nat} {node : RetransmitNode}
    (hnode : w.conn.pendingRetrans[k]? = some node)
    (hretries : kMaxRetries ≤ node.entry.retries) (hsends : ∀ f ∈ w.todo, f.sends? ≠ some seq)
    (hcontrol : v.control = w.clearTodo.control) (hstate : v.conn.state = w.conn.state)
    (hpending : v.conn.pendingRetrans = w.conn.pendingRetrans.erase k)
    (hqueue : v.forceCloseInLoop.queue = w.queue) :
    w.Moves seq none v.forceCloseInLoop := by
  have hnone : v.todo = none := congrArg Prod.fst hcontrol
  have hbase : v.stack = w.stack := congrArg Prod.snd hcontrol
  have hcalm := calm_forceCloseInLoop (w := v)
  by_cases hk : k = seq
  · subst hk
    obtain ⟨fs, hstack, hinner⟩ := hcalm.stack
    have hplain : ∀ f ∈ fs, f.plain k = true := fun f hf => Frame.plain_of_inner (hinner f hf) k
    have htodo : ∀ f ∈ v.forceCloseInLoop.todo, f.sends? ≠ some k := by
      intro f hf
      rw [Functor.sends_of_inner ((hcalm.todo f hf).resolve_left (by simp [hnone]))]
      simp
    have hgone : v.forceCloseInLoop.conn.pendingRetrans[k]? = none := by
      refine getElem?_forceCloseInLoop ?_
      rw [hpending]
      exact Std.ExtTreeMap.getElem?_erase_self
    rw [hbase] at hstack
    rw [Moves, standing_frame (w := w) (p := []) (q := fs) rfl hstack (by simp) hplain hsends htodo
      hqueue, hgone]
    exact .exhaust hnode hretries fun hs => state_forceCloseInLoop (hstate ▸ hs)
  · have hsame : v.conn.pendingRetrans[seq]? = w.conn.pendingRetrans[seq]? := by
      simp [hpending, Std.ExtTreeMap.getElem?_erase, hk]
    exact moves_calm (p := []) (q := []) hcalm rfl hbase (by simp) (by simp) hsends hnone hsame
      hqueue (by simp)

/-- The data of a number is handed over once more. -/
theorem moves_resend {k : Nat} {node : RetransmitNode} (h : w.Matched b)
    (htodo : w.todo = some (.onRetransmitTimeout k)) (hnode : w.conn.pendingRetrans[k]? = some node)
    (hretries : node.entry.retries < kMaxRetries)
    (hstack : v.stack = .onRetransmitTimeout k node.id :: w.stack) (hconn : v.conn = w.conn)
    (hqueue : v.queue = w.queue) :
    w.Moves seq (some (.handed k)) { v with todo := some (.sendInLoop node.entry.data) } := by
  have hsends : ∀ f ∈ w.todo, f.sends? ≠ some seq :=
    not_sends_of_some htodo (by simp [Functor.sends?])
  have hsends' : ∀ f ∈ some (Functor.sendInLoop node.entry.data), f.sends? ≠ some seq :=
    not_sends_of_some rfl (by simp [Functor.sends?])
  by_cases hk : k = seq
  · subst hk
    have hfirst : (w.standing k).resends = [] := h.resends_of_timeout htodo
    have hsame : { v with todo := some (.sendInLoop node.entry.data) }.standing k =
        { w.standing k with resends := [node.id] } := by
      have hresends : w.stack.filterMap (Frame.resend? k) = [] := hfirst
      have hqueue : { v with todo := some (.sendInLoop node.entry.data) }.queue = w.queue := hqueue
      simp only [standing, hqueue]
      simp only [hstack, hconn, List.countP_append, countP_todo hsends, countP_todo hsends',
        List.filterMap_cons, hresends]
      simp [Frame.sends?, Frame.resend?]
    rw [Moves, hsame]
    exact .resend hnode hretries hfirst
  · refine moves_frame (p := []) (q := [.onRetransmitTimeout k node.id]) rfl hstack (by simp)
      (by simpa [Frame.plain] using hk) hsends hsends' hqueue (by rw [hconn]) ?_
    simpa [Transmission.seq?] using hk

/-- A timeout gives the number up or hands its data over again. -/
theorem moves_onRetransmitTimeout {k : Nat} (h : w.Matched b)
    (htodo : w.todo = some (.onRetransmitTimeout k))
    (hqueue : (w.clearTodo.onRetransmitTimeout k).queue = w.queue) :
    w.Moves seq (w.transmits (.onRetransmitTimeout k)) (w.clearTodo.onRetransmitTimeout k) := by
  have hsends : ∀ f ∈ w.todo, f.sends? ≠ some seq :=
    not_sends_of_some htodo (by simp [Functor.sends?])
  rw [onRetransmitTimeout] at hqueue ⊢
  rw [transmits]
  cases hnode : w.conn.pendingRetrans[k]? with
  | none =>
    have hnode : w.clearTodo.conn.pendingRetrans[k]? = none := hnode
    rw [hnode] at hqueue ⊢
    exact moves_frame (p := []) (q := []) rfl rfl (by simp) (by simp) hsends
      (not_sends_of_none rfl) hqueue rfl (by simp)
  | some node =>
    have hnode' : w.clearTodo.conn.pendingRetrans[k]? = some node := hnode
    rw [hnode'] at hqueue ⊢
    dsimp only at hqueue ⊢
    by_cases hretries : kMaxRetries ≤ node.entry.retries
    · rw [if_pos hretries] at hqueue ⊢
      rw [if_pos hretries]
      exact moves_exhaust hnode hretries hsends rfl rfl rfl hqueue
    · rw [if_neg hretries, if_neg hretries]
      split
      · exact moves_resend h htodo hnode (Nat.lt_of_not_le hretries) rfl rfl rfl
      · exact moves_resend h htodo hnode (Nat.lt_of_not_le hretries) rfl rfl rfl

/-- Running a functor moves every number as recorded. -/
theorem moves_run {f : Functor} {env : Env} (h : w.Matched b) (htodo : w.todo = some f)
    (hqueue : (w.clearTodo.run env f).queue = w.queue) :
    w.Moves seq (w.transmits f) (w.clearTodo.run env f) := by
  have hcalm (hf : f.sends? = none) (hnone : w.transmits f = none)
      (h : w.clearTodo.Calm (w.clearTodo.run env f)) :
      w.Moves seq (w.transmits f) (w.clearTodo.run env f) :=
    moves_calm (p := []) (q := []) h rfl rfl (by simp) (by simp)
      (not_sends_of_some htodo (by simp [hf])) rfl rfl hqueue (by simp [hnone])
  cases f with
  | connectDestroyed => exact moves_connectDestroyed htodo hqueue
  | sendFunc data k => exact moves_sendFunc htodo hqueue
  | ackReceived k => exact moves_ackReceived htodo hqueue
  | onRetransmitTimeout k => exact moves_onRetransmitTimeout h htodo hqueue
  | _ => exact hcalm rfl rfl (calm_run rfl (by simp) (by simp) env)

/-! ### The frames -/

/-- A restarted timer replaces the entry of its number. -/
theorem getElem?_resetRetransmitTimer (w : TcpLoop) (node : RetransmitNode) (env : Env) :
    ∃ n, n.id = node.id ∧ n.entry.retries = node.entry.retries ∧
      ∀ k : Nat, (w.resetRetransmitTimer node env).conn.pendingRetrans[k]? =
        if node.entry.seq = k then some n else w.conn.pendingRetrans[k]? := by
  obtain ⟨queue, hcancel⟩ := w.cancel_frame node.entry.timerId
  simp only [resetRetransmitTimer, hcancel]
  generalize (↑(caculate_backoff_jitter _ _ _ _) * 1000 : Int) = micros
  obtain ⟨queue', h⟩ := runAfter_frame { w with timers.queue := queue } micros
    (.onRetransmitTimeout node.entry.seq) env.timer
  generalize runAfter { w with timers.queue := queue } micros
    (.onRetransmitTimeout node.entry.seq) env.timer = r at h ⊢
  refine ⟨{ node with entry.timerId := r.1 }, rfl, rfl, fun k => ?_⟩
  simp [h, Std.ExtTreeMap.getElem?_insert]

/-- The lambda ends with the entry that it makes. -/
theorem moves_sendFuncEnd {data : Bytes} {k : Nat} {rest : List Frame} {env : Env}
    (htodo : w.todo = none) (hstack : w.stack = .sendFunc data k :: rest) :
    w.Moves seq (some (.finished k)) ({ w with stack := rest }.sendFuncEnd data k env) := by
  obtain ⟨n, hnew, hget⟩ : ∃ n : RetransmitNode, n.entry.retries = 0 ∧ ∀ j : Nat,
      ({ w with stack := rest }.sendFuncEnd data k env).conn.pendingRetrans[j]? =
        if k = j then some n else w.conn.pendingRetrans[j]? := by
    rw [sendFuncEnd]
    split
    · rename_i node _
      obtain ⟨n, -, hretries, hget⟩ := getElem?_resetRetransmitTimer { w with stack := rest }
        { node with entry := { seq := k, data } } env
      exact ⟨n, hretries, hget⟩
    · obtain ⟨n, -, hretries, hget⟩ := getElem?_resetRetransmitTimer
        { w with stack := rest, nextNode := w.nextNode + 1 } ⟨w.nextNode, { seq := k, data }⟩ env
      exact ⟨n, hretries, hget⟩
  obtain ⟨queue, pendingRetrans, nextNode, hframe⟩ :=
    sendFuncEnd_frame { w with stack := rest } data k env
  generalize { w with stack := rest }.sendFuncEnd data k env = u at hget hframe ⊢
  have hcontrol : u.control = (none, rest) := by
    rw [hframe]
    exact congrArg (·, rest) htodo
  have hqueue : u.queue = w.queue := by rw [hframe]; rfl
  have hstate : u.conn.state = w.conn.state := by rw [hframe]
  obtain ⟨hnone, hrest⟩ := Prod.mk.inj hcontrol
  by_cases hk : k = seq
  · subst hk
    have hsending : (w.standing k).sending = (rest.countP fun f => f.sends? = some k) + 1 := by
      simp [standing, hstack, Frame.sends?]
    have hsame : u.standing k = { w.standing k with
        sending := rest.countP fun f => f.sends? = some k
        node := some n } := by
      simp [standing, hqueue, hstate, hnone, htodo, hrest, hstack, hget, Frame.resend?,
        List.filterMap_cons]
    rw [Moves, hsame]
    exact .finish hsending hnew
  · refine moves_frame (p := [.sendFunc data k]) (q := []) hstack hrest
      (by simpa [Frame.plain] using hk) (by simp) (not_sends_of_none htodo)
      (not_sends_of_none hnone) hqueue (by rw [hget, if_neg hk]) ?_
    simpa [Transmission.seq?] using hk

/-- The retries of an entry whose data has been handed over again are counted, if it is still
there. -/
theorem moves_onRetransmitTimeoutEnd {k n : Nat} {rest : List Frame} {env : Env}
    (h : w.Matched b) (htodo : w.todo = none)
    (hstack : w.stack = .onRetransmitTimeout k n :: rest)
    (hfinds : w.conn.pendingRetrans[k]?.map RetransmitNode.id = some n) :
    w.Moves seq none ({ w with stack := rest }.onRetransmitTimeoutEnd k n env) := by
  obtain ⟨node, hnode, hid⟩ := Option.map_eq_some_iff.mp hfinds
  obtain ⟨queue, pendingRetrans, dangling, hframe⟩ :=
    onRetransmitTimeoutEnd_frame { w with stack := rest } k n env
  obtain ⟨node', hid', hretries, hget⟩ : ∃ node', node'.id = node.id ∧
      node'.entry.retries = node.entry.retries + 1 ∧ ∀ j : Nat,
        ({ w with stack := rest }.onRetransmitTimeoutEnd k n env).conn.pendingRetrans[j]? =
          if k = j then some node' else w.conn.pendingRetrans[j]? := by
    have hfound : { w with stack := rest }.conn.pendingRetrans[k]? = some node := hnode
    have hset := getElem?_resetRetransmitTimer { w with stack := rest }
      { node with entry.retries := node.entry.retries + 1 } env
    rw [onRetransmitTimeoutEnd, hfound]
    dsimp only
    rw [if_neg (not_not.mpr hid)]
    rwa [show node.entry.seq = k from (h.paired k).key node hnode] at hset
  generalize { w with stack := rest }.onRetransmitTimeoutEnd k n env = u at hget hframe ⊢
  have hcontrol : u.control = (none, rest) := by
    rw [hframe]
    exact congrArg (·, rest) htodo
  have hqueue : u.queue = w.queue := by rw [hframe]; rfl
  have hstate : u.conn.state = w.conn.state := by rw [hframe]
  obtain ⟨hnone, hrest⟩ := Prod.mk.inj hcontrol
  by_cases hk : k = seq
  · subst hk
    have hresends : (w.standing k).resends = node.id :: rest.filterMap (Frame.resend? k) := by
      simp [standing, hstack, Frame.resend?, hid]
    have hsame : u.standing k = { w.standing k with
        node := u.conn.pendingRetrans[k]?
        resends := rest.filterMap (Frame.resend? k) } := by
      simp [standing, hqueue, hstate, hnone, htodo, hrest, hstack, Frame.sends?]
    rw [Moves, hsame, hget, if_pos rfl]
    exact .restart hnode hresends hid' hretries
  · exact moves_frame (p := [.onRetransmitTimeout k n]) (q := []) hstack hrest
      (by simpa [Frame.plain] using hk) (by simp) (not_sends_of_none htodo)
      (not_sends_of_none hnone) hqueue (by rw [hget, if_neg hk]) (by simp)

/-- A timer runs no lambda. -/
theorem sends_functor (cb : Task) : cb.functor.sends? = none := by
  cases cb <;> rfl

/-- The loop of `TimerQueue::handleRead` has nothing to do with the lambdas and the entries. -/
theorem moves_handleTimers {rest : List Frame} (htodo : w.todo = none)
    (hstack : w.stack = .timerQueue :: rest)
    (hr : { w with stack := rest }.handleTimers = some w') : w.Moves seq none w' := by
  have hplain : ∀ f ∈ [Frame.timerQueue], f.plain seq = true := by simp [Frame.plain]
  unfold handleTimers at hr
  dsimp only at hr
  split at hr
  · contradiction
  · obtain ⟨timers, -, rfl⟩ := Option.map_eq_some_iff.mp hr
    exact moves_frame (p := [.timerQueue]) (q := [.timerQueue]) hstack rfl hplain hplain
      (not_sends_of_none htodo) (not_sends_of_none htodo) rfl rfl (by simp)
  · obtain ⟨timers, -, rfl⟩ := Option.map_eq_some_iff.mp hr
    refine moves_frame (p := [.timerQueue]) (q := [.timerQueue]) hstack rfl hplain hplain
      (not_sends_of_none htodo) (fun f hf => ?_) rfl rfl (by simp)
    obtain ⟨cb, -, rfl⟩ := Option.map_eq_some_iff.mp hf
    simp [sends_functor]
  · obtain ⟨timers, -, rfl⟩ := Option.map_eq_some_iff.mp hr
    exact moves_frame (p := [.timerQueue]) (q := []) hstack rfl hplain (by simp)
      (not_sends_of_none htodo) (not_sends_of_none htodo) rfl rfl (by simp)

/-- The tests of `handleEvent` that are still to come are about no number. -/
theorem plain_next (stage : EventStage) : ∀ f ∈ next stage, f.plain seq = true := by
  cases stage <;> simp [next, Frame.plain]

/-- Code that goes on moves at most the number that it is about. -/
theorem moves_resumeFrame {env : Env} {frame : Frame} {rest : List Frame} (h : w.Matched b)
    (htodo : w.todo = none) (hstack : w.stack = frame :: rest)
    (hfinds : w.FindsEntry (.resume env))
    (hr : { w with stack := rest }.resumeFrame env frame = some w') (hqueue : w'.queue = w.queue) :
    w.Moves seq (w.transmission (.resume env)) w' := by
  have hcalm {v : TcpLoop} {q : List Frame} (hnone : w.transmission (.resume env) = none)
      (hplain : frame.plain seq = true) (hq : ∀ f ∈ q, f.plain seq = true)
      (hv : v = { w with stack := q ++ rest }) (h : v.Calm w') :
      w.Moves seq (w.transmission (.resume env)) w' := by
    subst hv
    exact moves_calm (p := [frame]) (q := q) h hstack rfl (by simpa using hplain) hq
      (not_sends_of_none htodo) htodo rfl hqueue (by simp [hnone])
  rw [transmission, hstack] at hcalm ⊢
  unfold FindsEntry at hfinds
  rw [hstack] at hfinds
  cases frame with
  | user cb => contradiction
  | handleEvent stage =>
    obtain rfl := Option.some.inj hr
    exact hcalm rfl rfl (plain_next stage) rfl
      (calm_handleEvent (w := { w with stack := rest }) env stage)
  | handleWrite =>
    obtain rfl := Option.some.inj hr
    exact hcalm (q := []) rfl rfl (by simp) rfl (calm_handleWriteRest env)
  | handleWriteEnd =>
    obtain rfl := Option.some.inj hr
    exact hcalm (q := []) rfl rfl (by simp) rfl calm_handleWriteEnd
  | sendFunc data k =>
    obtain rfl := Option.some.inj hr
    exact moves_sendFuncEnd htodo hstack
  | onRetransmitTimeout k n =>
    obtain rfl := Option.some.inj hr
    exact moves_onRetransmitTimeoutEnd h htodo hstack hfinds
  | timerQueue => exact moves_handleTimers htodo hstack hr

/-! ### The steps -/

/-- The queues change when a functor is queued, and when the loop comes to one. -/
theorem Queues.queue_eq {a : Action} (h : Queues w a w') (ha : a.functor? = none)
    (hnext : a ≠ .nextFunc) : w'.queue = w.queue := by
  cases h with
  | same hfunc hpending => rw [queue, queue, hfunc, hpending]
  | swap hempty hfunc hpending => simp [queue, hempty, hfunc, hpending]
  | take htodo hstack hfunc => exact absurd rfl hnext
  | add hadd hfunc hpending =>
    rw [ha] at hadd
    contradiction

/-- The loop thread is where it was, and no lambda has been queued. -/
theorem moves_same {e : Option Transmission} (hcontrol : w'.control = w.control)
    (hqueue : (w'.queue.countP fun f => f.sends? = some seq) =
      w.queue.countP fun f => f.sends? = some seq)
    (hnode : w'.conn.pendingRetrans[seq]? = w.conn.pendingRetrans[seq]?)
    (he : ∀ t ∈ e, t.seq? ≠ some seq) : w.Moves seq e w' := by
  obtain ⟨htodo, hstack⟩ := Prod.mk.inj hcontrol
  have hsame : w'.standing seq = { w.standing seq with state := w'.conn.state } := by
    simp only [standing, List.countP_append, htodo, hstack, hqueue, hnode]
  rw [Moves, hsame]
  exact .still he

/-- A lambda is queued, or run next. -/
theorem moves_give {inThread : Bool} (h : inThread = false ∨ w.todo = none) (data : Bytes)
    (k : Nat) :
    w.Moves seq (some (.given k)) (w.runInLoop inThread (.sendFunc data k)) := by
  have hsame : (w.runInLoop inThread (.sendFunc data k)).standing seq = { w.standing seq with
      queued := (w.standing seq).queued + if k = seq then 1 else 0 } := by
    cases inThread with
    | false =>
      have hqueue := w.queue_runInLoop (.sendFunc data k)
      simp only [standing, hqueue, List.countP_append]
      simp [runInLoop, Functor.sends?, List.countP_cons, Nat.add_assoc]
    | true =>
      have htodo : w.todo = none := h.resolve_left (by simp)
      simp [standing, runInLoop, htodo, Functor.sends?, List.countP_cons, queue]
  rw [Moves, hsame]
  split
  · rename_i hk
    subst hk
    exact .give
  · rename_i hk
    refine .still ?_
    simpa [Transmission.seq?] using hk

/-- A call gives a number, acknowledges one, or has nothing to do with numbers. -/
theorem moves_call (htodo : w.todo = none) (c : ConnCall) :
    w.Moves seq c.transmission? (w.call true c) := by
  have hcalm (hneutral : c.functor.neutral = true) (hnone : c.transmission? = none) :
      w.Moves seq c.transmission? (w.call true c) := by
    have hqueues := w.sameQueues_call c
    refine moves_calm (p := []) (q := []) (calm_call (.inr hneutral)) rfl rfl (by simp) (by simp)
      (not_sends_of_none htodo) htodo rfl ?_ (by simp [hnone])
    exact congrArg₂ (· ++ ·) hqueues.func hqueues.pendingFunc
  cases c with
  | sendWithRetransmit data k => exact moves_give (.inr htodo) data k
  | _ => exact hcalm rfl rfl

/-- From another thread it does so when its functor runs. -/
theorem moves_callElsewhere (c : ConnCall) :
    w.Moves seq c.transmission? (w.call false c) := by
  have hadd {v : TcpLoop} {f : Functor} (hv : v.control = w.control) (hqueue : v.queue = w.queue)
      (hconn : v.conn.pendingRetrans = w.conn.pendingRetrans) (hf : f.sends? = none) :
      w.Moves seq none (v.runInLoop false f) := by
    refine moves_same hv ?_ (congrArg (·[seq]?) hconn) (by simp)
    rw [queue_runInLoop, hqueue, List.countP_append]
    simp [hf]
  have hstay : w.Moves seq none w := .still (by simp)
  cases c with
  | send data =>
    rw [call, send]
    split
    · exact hstay
    · exact hadd (f := .sendInLoop data) rfl rfl rfl rfl
  | sendFile filePath =>
    rw [call, sendFile]
    split
    · exact hstay
    · exact hadd (f := .sendFileInLoop filePath) rfl rfl rfl rfl
  | shutdown =>
    rw [call, shutdown]
    split
    · exact hadd (f := .shutdownInLoop) rfl rfl rfl rfl
    · exact hstay
  | forceClose =>
    rw [call, forceClose]
    split
    · exact hadd (f := .forceCloseInLoop) rfl rfl rfl rfl
    · exact hstay
  | sendWithRetransmit data k => exact moves_give (.inl rfl) data k
  | ackReceived k => exact hadd (f := .ackReceived k) rfl rfl rfl rfl

/-- Every step that follows no reference to an erased entry moves every number as recorded. -/
theorem transmission_of_step {a : Action} (h : w.Orderly b) (hfinds : w.FindsEntry a)
    (hstep : w.step a = some w') : w.Moves seq (w.transmission a) w' := by
  have hqueues := queues_of_step h.sound.sized hstep
  have huser (hu : w.inUserCode = true) : w.todo = none := by
    rw [inUserCode, Bool.and_eq_true, Option.isNone_iff_eq_none] at hu
    exact hu.1
  have hpush {v : TcpLoop} {f : Frame} (hidle : w.idle = true) (hf : f.plain seq = true)
      (hv : v.control = w.control) (hqueue : v.queue = w.queue) (hconn : v.conn = w.conn) :
      w.Moves seq none (v.push f) := by
    obtain ⟨hnone, hstack⟩ := Prod.mk.inj hv
    have htodo := (idle_iff.mp hidle).1
    exact moves_frame (p := []) (q := [f]) rfl (congrArg _ hstack) (by simp) (by simpa using hf)
      (not_sends_of_none htodo) (not_sends_of_none (hnone.trans htodo)) hqueue
      (by rw [← hconn]; rfl) (by simp)
  cases stepped_of_step hstep with
  | poll hidle hfunc hready hw' =>
    rcases hw' with rfl | rfl
    · exact moves_same rfl rfl rfl (by simp [transmission])
    · exact moves_same rfl rfl rfl (by simp [transmission])
  | @event rest hidle hactive => exact hpush hidle rfl rfl rfl rfl
  | @timerEvent rest timers hidle hactive ht => exact hpush hidle rfl rfl rfl rfl
  | @otherEvent key rest hidle hactive => exact hpush hidle rfl rfl rfl rfl
  | doPendingFuncs hidle hfunc =>
    refine moves_same rfl ?_ rfl (by simp [transmission])
    simp [queue, hfunc]
  | @nextFunc f fs hidle hfunc =>
    have hsame : { w with todo := some f, func := fs }.standing seq = w.standing seq := by
      simp [standing, queue, hfunc, (idle_iff.mp hidle).1]
    rw [Moves, hsame]
    exact .still (by simp [transmission])
  | @run env f htodo henv =>
    rw [transmission, htodo, Option.bind_some]
    exact moves_run h.matched htodo (hqueues.queue_eq rfl (by simp))
  | @resume env frame rest w' htodo hstack henv hr =>
    exact moves_resumeFrame h.matched htodo hstack hfinds hr (hqueues.queue_eq rfl (by simp))
  | @call c hu => exact moves_call (huser hu) c
  | connectDestroyed hu =>
    have htodo := huser hu
    exact moves_frame (p := []) (q := []) rfl rfl (by simp) (by simp) (not_sends_of_none htodo)
      (not_sends_of_some rfl (by simp [Functor.sends?])) rfl rfl (by simp [transmission])
  | retrieve htodo hstack => exact moves_same rfl rfl rfl (by simp [transmission])
  | addTimer hu ht => exact moves_same rfl rfl rfl (by simp [transmission])
  | cancelTimer hu hid ht => exact moves_same rfl rfl rfl (by simp [transmission])
  | @ret cb rest htodo hstack =>
    exact moves_frame (p := [.user cb]) (q := []) hstack rfl (by simp [Frame.plain]) (by simp)
      (not_sends_of_none htodo) (not_sends_of_none htodo) rfl rfl (by simp [transmission])
  | @callElsewhere c => exact moves_callElsewhere c
  | connectDestroyedElsewhere =>
    refine moves_same rfl ?_ rfl (by simp [transmission])
    rw [queue_runInLoop, List.countP_append]
    simp [Functor.sends?]
  | runElsewhere =>
    refine moves_same rfl ?_ rfl (by simp [transmission])
    rw [queue_runInLoop, List.countP_append]
    simp [Functor.sends?]
  | tick ht => exact moves_same rfl rfl rfl (by simp [transmission])

end TcpLoop

end ClearMoon.Tcp

import ClearMoon.Tcp.Peers
import ClearMoon.Tcp.Rooted
import ClearMoon.Tcp.Send
import ClearMoon.Tcp.Unborn

/-!
# Services

A service is what a message callback does: it retrieves a part of the input and calls the
connection. As long as it only sends, what its peer gets is what the service, run on its own on the
reads of the connection, has sent.
-/

namespace ClearMoon.Tcp

open ClearMoon.Net ClearMoon.Timer

/-! ## What is on the stack stays there -/

namespace TcpLoop

variable {w w' : TcpLoop}

/-- A callback under way is still under way with frames stacked upon it. -/
theorem user_of_stacks {cb : Option Callback} (h : w.Stacks w') (hmem : .user cb ∈ w.stack) :
    .user cb ∈ w'.stack := by
  obtain ⟨fs, hstack, -⟩ := h.stack
  rw [hstack]
  exact List.mem_append_right _ hmem

/-- User code stays on the stack until it returns. -/
theorem user_of_step {a : Action} {cb : Option Callback} (hmem : .user cb ∈ w.stack)
    (hstep : w.step a = some w') :
    .user cb ∈ w'.stack ∨ a = .ret ∧ w.stack.head? = some (.user cb) := by
  have hidle {P : Prop} (h : w.idle = true) : P := by
    rw [(idle_iff.mp h).2] at hmem
    contradiction
  cases stepped_of_step hstep with
  | poll h | event h | timerEvent h | otherEvent h | doPendingFuncs h | nextFunc h =>
    exact hidle h
  | run htodo henv => exact .inl (user_of_stacks (w := w.clearTodo) (stacks_run ..) hmem)
  | @resume env frame rest _ htodo hstack henv hr =>
    left
    rw [hstack] at hmem
    cases hmem with
    | head => contradiction
    | tail _ hmem =>
      by_cases hroot : frame.root = false
      · exact user_of_stacks (w := { w with stack := rest }) (stacks_resumeFrame hroot hr) hmem
      · cases frame with
        | handleEvent stage =>
          obtain rfl := Option.some.inj hr
          obtain ⟨fs, hfs, -⟩ := (calm_handleEvent (w := { w with stack := rest }) env stage).stack
          rw [hfs]
          exact List.mem_append_right _ (List.mem_append_right _ hmem)
        | timerQueue =>
          simp only [resumeFrame, handleTimers] at hr
          split at hr
          · contradiction
          · obtain ⟨timers, -, rfl⟩ := Option.map_eq_some_iff.mp hr
            exact List.mem_cons_of_mem _ hmem
          · obtain ⟨timers, -, rfl⟩ := Option.map_eq_some_iff.mp hr
            exact List.mem_cons_of_mem _ hmem
          · obtain ⟨timers, -, rfl⟩ := Option.map_eq_some_iff.mp hr
            exact hmem
        | _ => simp [Frame.root] at hroot
  | call hu => exact .inl (user_of_stacks (stacks_call ..) hmem)
  | connectDestroyed hu => exact .inl hmem
  | retrieve | addTimer | cancelTimer => exact .inl hmem
  | @ret cb' rest htodo hstack =>
    rw [hstack] at hmem ⊢
    cases hmem with
    | head => exact .inr ⟨rfl, rfl⟩
    | tail _ hmem => exact .inl hmem
  | @callElsewhere c =>
    left
    rwa [(Prod.mk.inj (w.callElsewhere_frame c).1).2]
  | connectDestroyedElsewhere | runElsewhere => exact .inl hmem
  | tick => exact .inl hmem

/-- A callback that is set is under way when it was invoked. -/
theorem user_of_invoke {cb : Callback} (h : w.conn.callbacks cb = true) :
    .user (some cb) ∈ (w.invoke cb).stack := by
  rw [invoke, if_pos h]
  exact List.mem_cons_self

/-- Data that has been read is announced to the message callback. -/
theorem user_of_handleRead {env : Env} (hcallback : w.conn.callbacks .message = true)
    (hread : env.read.bytes ≠ []) : .user (some .message) ∈ (w.handleRead env).stack := by
  have hidle (v : TcpLoop) : (v.resetIdleTimer env).conn.callbacks = v.conn.callbacks := by
    obtain ⟨queue, id, h⟩ := v.resetIdleTimer_frame env
    rw [h]
  rw [handleRead]
  split
  · rename_i hend
    simp [hend, ReadResult.bytes] at hread
  · exact user_of_invoke ((congrFun (hidle _) _).trans hcallback)
  · rename_i hagain
    simp [hagain, ReadResult.bytes] at hread
  · rename_i herror
    simp [herror, ReadResult.bytes] at hread

/-- A read puts the message callback under way. -/
theorem user_of_reads {a : Action} (hcallback : w.conn.callbacks .message = true)
    (hreads : w.reads a ≠ []) (hstep : w.step a = some w') :
    .user (some .message) ∈ w'.stack := by
  have hnone {r : Option ReadResult} (hr : w.readv? a = r) (h : r = none) : False := by
    rw [reads, hr, h] at hreads
    exact hreads rfl
  cases stepped_of_step hstep with
  | @resume env frame rest _ htodo hstack henv hr =>
    have hother (hframe : frame ≠ .handleEvent .read) : w.readv? (.resume env) = none := by
      simp only [readv?, htodo, hstack]
      cases frame with
      | handleEvent stage => cases stage <;> first | rfl | contradiction
      | _ => rfl
    cases frame with
    | handleEvent stage =>
      cases stage with
      | read =>
        obtain rfl := Option.some.inj hr
        simp only [reads, readv?, htodo, hstack] at hreads
        rw [handleEvent]
        by_cases hevents : (w.conn.channel.revents.epollin ||
            w.conn.channel.revents.epollrdhup || w.conn.channel.revents.epollpri) = true
        · simp only [hevents, if_true] at hreads ⊢
          exact user_of_handleRead hcallback hreads
        · simp [hevents] at hreads
      | _ => exact (hnone (hother (by simp)) rfl).elim
    | _ => exact (hnone (hother (by simp)) rfl).elim
  | _ => exact (hnone rfl rfl).elim

end TcpLoop

/-! ## A connection without retransmission -/

/-- Nothing has ever been given to `sendWithRetransmit`. -/
structure Standing.Untouched (x : Standing) : Prop where
  queued : x.queued = 0
  sending : x.sending = 0
  node : x.node = none
  resends : x.resends = []

/-- A number that was never given has no record in any step that does not give it. -/
theorem Standing.Untouched.step {x y : Standing} {seq : Nat} {e : Option Transmission}
    (h : x.Untouched) (hmoves : Moves seq x e y) (he : e ≠ some (.given seq)) : y.Untouched := by
  cases hmoves with
  | still => exact ⟨h.queued, h.sending, h.node, h.resends⟩
  | drop => exact ⟨h.queued, h.sending, rfl, h.resends⟩
  | give => contradiction
  | hand hqueued => simp [h.queued] at hqueued
  | finish hsending => simp [h.sending] at hsending
  | ack => exact ⟨h.queued, h.sending, rfl, h.resends⟩
  | resend hnode => simp [h.node] at hnode
  | restart hnode => simp [h.node] at hnode
  | exhaust hnode => simp [h.node] at hnode

/-- An output that a step accepts is what the loop thread accepts, or it is queued. -/
theorem TcpLoop.accepted_of_effect {w : TcpLoop} {a : Action} {v : View}
    (he : TcpLoop.Effect w a v) :
    accepted v.trace = accepted w.view.trace ∨
      ∃ o, accepted v.trace = accepted w.view.trace ++ [o] ∧
        (w.accepts a = some o ∨ o ∈ v.queued) := by
  have hclosed {u : View} (hc : Closes u v) : v.trace = u.trace := by
    cases hc <;> rfl
  have hnote (e : Event) (h : e.accepted? = none) :
      accepted (w.view.trace ++ [e]) = accepted w.view.trace := by
    rw [accepted_concat, h]
    exact List.append_nil _
  cases he with
  | flow htodo hflow =>
    left
    cases hflow with
    | quiet => rfl
    | drain => exact hnote _ rfl
    | transfer => exact hnote _ rfl
    | close hu hc => rw [hclosed hc]
  | @queueOutput a f o hf hs =>
    refine .inr ⟨o, accepted_concat .., .inr ?_⟩
    simp [View.queued, outputs, hf]
  | accept ho hf htodo hs hfile => exact .inr ⟨_, accepted_concat .., .inl ho⟩
  | disconnect hf hcloses hs hes =>
    left
    rcases hes with rfl | rfl
    · exact congrArg accepted (List.append_nil _)
    · exact hnote _ rfl
  | close es hes hc =>
    left
    rw [hclosed hc]
    rcases hes with rfl | ⟨o, rfl⟩
    · exact congrArg accepted (List.append_nil _)
    · exact hnote _ rfl
  | write =>
    left
    rw [accepted_concat, hnote _ rfl]
    exact List.append_nil _
  | append => exact .inl (hnote _ rfl)
  | lose => exact .inl (hnote _ rfl)
  | openFile => exact .inl (hnote _ rfl)
  | shutdownWriting => exact .inl (hnote _ rfl)
  | shutdown htodo hwriting hc =>
    left
    rw [hclosed hc]
    exact hnote _ rfl
  | _ => exact .inl rfl

/-! ## A connection that is only given messages -/

/-- Nothing but `send` is called, in the loop thread. -/
def Action.sendsOnly (a : Action) : Prop :=
  ∀ c, (a = .call c → ∃ data, c = .send data) ∧ a ≠ .callElsewhere c

namespace TcpLoop

variable {w w' : TcpLoop}

/-- What holds of a connection of which nothing but `send` has been called. -/
structure Messaging (w : TcpLoop) : Prop where
  orderly : ∃ b, w.Orderly b
  untouched (seq : Nat) : (w.standing seq).Untouched
  ordered : w.view.Ordered
  fileFree : w.view.FileFree
  queued : w.view.queued = []

/-- Of a new connection nothing has been called. -/
theorem messaging_start (fd : Nat) (callbacks : Callback → Bool) (disk : Bytes → Bytes) :
    (start fd callbacks disk).Messaging where
  orderly := ⟨0, orderly_start fd callbacks disk⟩
  untouched seq := by
    refine ⟨?_, rfl, ?_, rfl⟩
    · simp [start, standing, queue, Functor.sends?]
    · simp [start, standing]
  ordered := ordered_start fd callbacks disk
  fileFree := by
    refine ⟨fun _ _ => List.not_mem_nil, fun filePath => ?_, rfl, rfl⟩
    simp [View.queued, start, view, outputs, Functor.output?]
  queued := rfl

/-- Its output is taken in order. -/
theorem Messaging.inOrder (h : w.Messaging) (a : Action) : w.InOrder a where
  behindFile _ := h.fileFree.unsent
  behindQueue _ := h.queued

/-- No code that sends is queued. -/
theorem Messaging.silent (h : w.Messaging) : ∀ f ∈ w.queue, f.silent = true := by
  intro f hf
  cases f with
  | sendInLoop data =>
    have hmem : .message data ∈ w.view.queued := List.mem_filterMap.mpr ⟨_, hf, rfl⟩
    rw [h.queued] at hmem
    contradiction
  | sendFileInLoop filePath =>
    have hmem : .file filePath ∈ w.view.queued := List.mem_filterMap.mpr ⟨_, hf, rfl⟩
    rw [h.queued] at hmem
    contradiction
  | sendFunc data seq =>
    have hnone := List.countP_eq_zero.mp (h.untouched seq).queued _ (List.mem_append_right _ hf)
    simp [Functor.sends?] at hnone
  | _ => rfl

/-- What the loop thread accepts, it accepts in a call of `send`. -/
theorem Messaging.accepts (h : w.Messaging) {a : Action} {o : Output} (ha : a.sendsOnly)
    (ho : w.accepts a = some o) :
    ∃ data, a = .call (.send data) ∧ o = .message data ∧ w.conn.state = .kConnected := by
  cases a with
  | call c =>
    obtain ⟨data, rfl⟩ := (ha c).1 rfl
    obtain ⟨hstate, ho⟩ := Option.ite_none_right_eq_some.mp ho
    exact ⟨data, rfl, (Option.some.inj ho).symm, hstate⟩
  | run env =>
    simp only [TcpLoop.accepts] at ho
    split at ho
    · rename_i data seq htodo
      have hqueued := (h.untouched seq).queued
      simp [standing, htodo, Functor.sends?] at hqueued
    · rename_i seq htodo
      have hnode : w.conn.pendingRetrans[seq]? = none := (h.untouched seq).node
      rw [hnode] at ho
      contradiction
    · contradiction
  | _ => contradiction

/-- A step that calls nothing but `send` keeps what holds of such a connection. -/
theorem Messaging.step {a : Action} (h : w.Messaging) (ha : a.sendsOnly)
    (hstep : w.step a = some w') : w'.Messaging := by
  obtain ⟨b, horderly⟩ := h.orderly
  have he := effect_of_step horderly.sound.sized hstep
  have hqueued : w'.view.queued = [] := by
    refine List.eq_nil_iff_forall_not_mem.mpr fun o ho => ?_
    rcases queued_of_step horderly.sound.sized hstep ho with hbefore | rfl
    · rw [h.queued] at hbefore
      contradiction
    · exact (ha _).2 rfl
  have hfinds : w.FindsEntry a := by
    unfold FindsEntry
    split
    · rename_i env seq n rest hstack
      have hresends := (h.untouched seq).resends
      simp [standing, hstack, Frame.resend?] at hresends
    · trivial
  have hone : w.OneTimer a := by
    refine oneTimer_of (fun env data seq rest _ hstack => ?_) hfinds
    have hsending := (h.untouched seq).sending
    simp [standing, hstack, Frame.sends?] at hsending
  refine ⟨⟨_, horderly.step hone hstep⟩, fun seq => ?_,
    ordered_effect h.ordered horderly.sound (aborted_of_step hstep) (h.inOrder a) he,
    fileFree_effect h.fileFree (fun filePath hcall => ?_) (by simp [hqueued]) he, hqueued⟩
  · refine (h.untouched seq).step (transmission_of_step horderly hfinds hstep) ?_
    cases a with
    | call c =>
      obtain ⟨data, rfl⟩ := (ha c).1 rfl
      simp [transmission, ConnCall.transmission?]
    | callElsewhere c => exact absurd rfl (ha c).2
    | run env =>
      intro he
      obtain ⟨f, -, hf⟩ := Option.bind_eq_some_iff.mp he
      cases f with
      | onRetransmitTimeout k =>
        have hnode : w.conn.pendingRetrans[k]? = none := (h.untouched k).node
        simp [transmits, hnode] at hf
      | _ => simp [transmits] at hf
    | resume env =>
      rw [transmission]
      split <;> simp
    | _ => simp [transmission]
  · obtain ⟨data, hdata⟩ := (ha _).1 hcall
    contradiction

/-- What a step adds to what has been accepted. -/
theorem Messaging.accepted_of_step {a : Action} (h : w.Messaging) (ha : a.sendsOnly)
    (hstep : w.step a = some w') :
    accepted w'.trace = accepted w.trace ∨ ∃ data, a = .call (.send data) ∧
      w.conn.state = .kConnected ∧ accepted w'.trace = accepted w.trace ++ [.message data] := by
  obtain ⟨b, horderly⟩ := h.orderly
  have hview := accepted_of_effect (effect_of_step horderly.sound.sized hstep)
  have hnew : accepted w'.view.trace = accepted w'.trace := accepted_filter _
  have hold : accepted w.view.trace = accepted w.trace := accepted_filter _
  rw [hnew, hold] at hview
  rcases hview with hsame | ⟨o, hmore, ho | ho⟩
  · exact .inl hsame
  · obtain ⟨data, rfl, rfl, hstate⟩ := h.accepts ha ho
    exact .inr ⟨data, rfl, hstate, hmore⟩
  · rw [(h.step ha hstep).queued] at ho
    contradiction

/-- A message is accepted while the connection is connected. -/
theorem accepted_of_send {data : Bytes} (hstate : w.conn.state = .kConnected)
    (hstep : w.step (.call (.send data)) = some w') :
    accepted w'.trace = accepted w.trace ++ [.message data] := by
  cases stepped_of_step hstep with
  | call =>
    change accepted (w.send true data).trace = _
    rw [send, if_neg (by simp [hstate])]
    exact accepted_concat ..

end TcpLoop

/-! ## Services -/

/-- What a message callback does with its input: so many bytes are retrieved, and then the
connection is called. -/
structure Reaction (S : Type) where
  state : S
  retrieved : Nat
  calls : List ConnCall

/-- A message callback with a state of its own, given the readable bytes of the input. -/
abbrev Service (S : Type) := S → Bytes → Reaction S

/-- A service on its own. -/
structure Course (S : Type) where
  app : S
  input : Bytes := []
  calls : List ConnCall := []

namespace Service

variable {S : Type} {serve : Service S} {s : S}

def next (serve : Service S) (c : Course S) (data : Bytes) : Course S :=
  let r := serve c.app (c.input ++ data)
  { app := r.state
    input := (c.input ++ data).drop r.retrieved
    calls := c.calls ++ r.calls }

/-- What the service makes of reads that deliver these data. -/
def course (serve : Service S) (s : S) (chunks : List Bytes) : Course S :=
  chunks.foldl serve.next { app := s }

/-- One more chunk is served behind all others. -/
theorem course_concat (chunks : List Bytes) (data : Bytes) :
    serve.course s (chunks ++ [data]) = serve.next (serve.course s chunks) data := by
  rw [course, List.foldl_append]
  rfl

end Service

/-- The service calls nothing but `send`. -/
def OnlySends (calls : List ConnCall) : Prop := ∀ c ∈ calls, ∃ data, c = .send data

/-- The first calls of sends are sends. -/
theorem OnlySends.of_prefix {calls calls' : List ConnCall} (h : OnlySends calls')
    (hpre : calls <+: calls') : OnlySends calls := fun c hc => h c (hpre.subset hc)

/-- The bytes of the messages that are sent. -/
def messages (calls : List ConnCall) : Bytes :=
  calls.flatMap fun
    | .send data => data
    | _ => []

/-- Messages are read off the calls piece by piece. -/
theorem messages_append (cs cs' : List ConnCall) :
    messages (cs ++ cs') = messages cs ++ messages cs' := List.flatMap_append

/-- The state of a service at work. -/
structure Host (S : Type) where
  app : S
  /-- The callback in progress has still to retrieve so many bytes. -/
  toRetrieve : Option Nat := none
  /-- The calls that it has still to make. -/
  toCall : List ConnCall := []
  /-- What `readv` has delivered. -/
  chunks : List Bytes := []

namespace Host

variable {S : Type}

/-- No callback is in progress. -/
def idle (h : Host S) : Bool := h.toRetrieve.isNone && h.toCall.isEmpty

/-- What a step of the connection is for the service: the callback is invoked with the input, makes
its calls, and returns. No other code calls the connection. -/
def step (serve : Service S) (h : Host S) (p : Peer) (a : PeerAction) (p' : Peer) :
    Option (Host S) :=
  match a with
  | .loop (.retrieve len) =>
    if h.toRetrieve = some len then some { h with toRetrieve := none } else none
  | .loop (.call c) =>
    if h.toRetrieve = none ∧ h.toCall.head? = some c ∧
        p.loop.stack.head? = some (.user (some .message)) then
      some { h with toCall := h.toCall.tail }
    else none
  | .loop (.callElsewhere _) => none
  | .loop .ret =>
    if p.loop.stack.head? = some (.user (some .message)) ∧ !h.idle then none else some h
  | a =>
    let data := p.takes a
    if data = [] then some h
    else
      let r := serve h.app p'.loop.input
      some
        { app := r.state
          toRetrieve := some r.retrieved
          toCall := r.calls
          chunks := h.chunks ++ [data] }

/-- A step that reads nothing, and that is no step of a message callback, or its return. -/
structure Quiet (h : Host S) (p : Peer) (a : PeerAction) : Prop where
  takes : p.takes a = []
  retrieve (len : Nat) : a ≠ .loop (.retrieve len)
  call (c : ConnCall) : a ≠ .loop (.call c) ∧ a ≠ .loop (.callElsewhere c)
  ret : a = .loop .ret → p.loop.stack.head? = some (.user (some .message)) → h.idle = true

/-- The steps of a service, with what they require. -/
inductive Stepped (serve : Service S) (h : Host S) (p : Peer) (p' : Peer) :
    PeerAction → Host S → Prop
  | retrieve {len} (hlen : h.toRetrieve = some len) :
      Stepped serve h p p' (.loop (.retrieve len)) { h with toRetrieve := none }
  | call {c rest} (hretrieve : h.toRetrieve = none) (hcall : h.toCall = c :: rest)
      (hstack : p.loop.stack.head? = some (.user (some .message))) :
      Stepped serve h p p' (.loop (.call c)) { h with toCall := rest }
  | quiet {a} (hquiet : h.Quiet p a) : Stepped serve h p p' a h
  | read {b} (htakes : p.loop.reads b ≠ []) : Stepped serve h p p' (.loop b)
      { app := (serve h.app p'.loop.input).state
        toRetrieve := some (serve h.app p'.loop.input).retrieved
        toCall := (serve h.app p'.loop.input).calls
        chunks := h.chunks ++ [p.loop.reads b] }

/-- A step of the host is one of the moves, with all that it asks. -/
theorem stepped_of_step {serve : Service S} {h h' : Host S} {p p' : Peer} {a : PeerAction}
    (hstep : h.step serve p a p' = some h') : Stepped serve h p p' a h' := by
  cases a with
  | close =>
    obtain rfl := Option.some.inj hstep
    exact .quiet ⟨rfl, by simp, by simp, by simp⟩
  | loop b =>
    have hother (hplain : h.step serve p (.loop b) p' =
          if p.loop.reads b = [] then some h
          else some
            { app := (serve h.app p'.loop.input).state
              toRetrieve := some (serve h.app p'.loop.input).retrieved
              toCall := (serve h.app p'.loop.input).calls
              chunks := h.chunks ++ [p.loop.reads b] })
        (hquiet : p.loop.reads b = [] → h.Quiet p (.loop b)) :
        Stepped serve h p p' (.loop b) h' := by
      rw [hplain] at hstep
      split at hstep
      · rename_i hreads
        obtain rfl := Option.some.inj hstep
        exact .quiet (hquiet hreads)
      · rename_i hreads
        obtain rfl := Option.some.inj hstep
        exact .read hreads
    cases b with
    | retrieve len =>
      obtain ⟨hlen, hstep⟩ := Option.ite_none_right_eq_some.mp hstep
      obtain rfl := Option.some.inj hstep
      exact .retrieve hlen
    | call c =>
      obtain ⟨⟨hretrieve, hcall, hstack⟩, hstep⟩ := Option.ite_none_right_eq_some.mp hstep
      obtain rfl := Option.some.inj hstep
      obtain ⟨rest, hrest⟩ := List.head?_eq_some_iff.mp hcall
      rw [hrest, List.tail_cons]
      exact .call hretrieve hrest hstack
    | callElsewhere c => contradiction
    | ret =>
      obtain ⟨hidle, hstep⟩ := Option.ite_none_left_eq_some.mp hstep
      obtain rfl := Option.some.inj hstep
      exact .quiet ⟨rfl, by simp, by simp, fun _ hstack => by simpa [hstack] using hidle⟩
    | _ => exact hother rfl fun hreads => ⟨hreads, by simp, by simp, by simp⟩

end Host

/-- A connection whose message callback is a service. -/
structure Served (S : Type) where
  peer : Peer
  host : Host S

def Served.step {S : Type} (serve : Service S) (x : Served S) (a : PeerAction) :
    Option (Served S) :=
  (x.peer.step a).bind fun peer =>
    (x.host.step serve x.peer a peer).map fun host => { peer, host }

/-- A read is made by the second test of `handleEvent`. -/
theorem TcpLoop.stack_of_reads {w : TcpLoop} {a : Action} (h : w.reads a ≠ []) :
    ∃ env rest, a = .resume env ∧ w.stack = .handleEvent .read :: rest := by
  have hnone (hr : w.readv? a = none) : False := by
    rw [reads, hr] at h
    exact h rfl
  cases a with
  | resume env =>
    cases htodo : w.todo with
    | some f => exact (hnone (by simp [readv?, htodo])).elim
    | none =>
      cases hstack : w.stack with
      | nil => exact (hnone (by simp [readv?, htodo, hstack])).elim
      | cons frame rest =>
        cases frame with
        | handleEvent stage =>
          cases stage with
          | read => exact ⟨env, rest, rfl, rfl⟩
          | _ => exact (hnone (by simp [readv?, htodo, hstack])).elim
        | _ => exact (hnone (by simp [readv?, htodo, hstack])).elim
  | _ => exact (hnone rfl).elim

namespace Served

variable {S : Type} {serve : Service S} {s : S} {x y : Served S} {a : PeerAction}

/-- A connection that has just been made. -/
def start (fd : Nat) (callbacks : Callback → Bool) (disk : Bytes → Bytes) (s : S) : Served S where
  peer := .start fd callbacks disk
  host := { app := s }

/-- A step of the pair is a step of each part. -/
theorem parts_of_step (h : x.step serve a = some y) :
    x.peer.step a = some y.peer ∧ x.host.step serve x.peer a y.peer = some y.host := by
  obtain ⟨peer, hpeer, h⟩ := Option.bind_eq_some_iff.mp h
  obtain ⟨host, hhost, rfl⟩ := Option.map_eq_some_iff.mp h
  exact ⟨hpeer, hhost⟩

/-- The service is where it would be on its own, but for what the callback in progress has still
to do. -/
structure Tracks (serve : Service S) (s : S) (x : Served S) : Prop where
  rooted : x.peer.loop.Rooted
  callback : x.peer.loop.conn.callbacks .message = true
  app : x.host.app = (serve.course s x.host.chunks).app
  chunks : x.host.chunks.flatten = x.peer.retrieved ++ x.peer.loop.input
  input : x.peer.loop.input.drop (x.host.toRetrieve.getD 0) =
    (serve.course s x.host.chunks).input
  calls : x.host.toCall <:+ (serve.course s x.host.chunks).calls
  busy : x.host.idle = true ∨ .user (some .message) ∈ x.peer.loop.stack

/-- Nothing was read, and nothing served. -/
theorem tracks_start (fd : Nat) {callbacks : Callback → Bool} (disk : Bytes → Bytes)
    (hcallback : callbacks .message = true) : (start fd callbacks disk s).Tracks serve s where
  rooted := TcpLoop.rooted_start fd callbacks disk
  callback := hcallback
  app := rfl
  chunks := rfl
  input := rfl
  calls := List.suffix_rfl
  busy := .inl rfl

/-- No callback is in progress when the connection reads. -/
theorem Tracks.idle_of_reads (h : x.Tracks serve s) {b : Action}
    (hreads : x.peer.loop.reads b ≠ []) : x.host.idle = true := by
  refine h.busy.resolve_right fun hmem => ?_
  obtain ⟨env, rest, rfl, hstack⟩ := TcpLoop.stack_of_reads hreads
  obtain ⟨rfl, -⟩ := h.rooted.bottom hstack rfl
  rw [hstack] at hmem
  simp at hmem

/-- A step keeps what was served up to what was read. -/
theorem Tracks.step (h : x.Tracks serve s) (hstep : x.step serve a = some y) :
    y.Tracks serve s := by
  obtain ⟨hpeer, hhost⟩ := parts_of_step hstep
  obtain ⟨p, host⟩ := y
  have hstepped := Host.stepped_of_step (show x.host.step serve x.peer a p = some host from hhost)
  have hread := Peer.retrieved_of_step (show Peer.endpoint.step x.peer a = some p from hpeer)
  rcases Peer.cases_of_step hpeer with ⟨b, rfl, -, hloop, -, hretrieved⟩ | ⟨rfl, hclosed⟩
  · obtain ⟨hinput, -⟩ := TcpLoop.stream_of_step hloop
    have hrooted := h.rooted.step hloop
    have hcallback : p.loop.conn.callbacks .message = true :=
      (congrFun (TcpLoop.callbacks_of_step hloop) _).trans h.callback
    have hstays (hret : b ≠ .ret) (hmem : .user (some .message) ∈ x.peer.loop.stack) :
        .user (some .message) ∈ p.loop.stack :=
      (TcpLoop.user_of_step hmem hloop).resolve_right fun hr => hret hr.1
    have hchunks (hreads : x.peer.loop.reads b = []) :
        x.host.chunks.flatten = p.retrieved ++ p.loop.input := by
      rw [hread, h.chunks]
      change _ = _ ++ x.peer.loop.reads b
      rw [hreads, List.append_nil]
    cases hstepped with
    | @retrieve len hlen =>
      have hreads : x.peer.loop.reads (.retrieve len) = [] := rfl
      refine ⟨hrooted, hcallback, h.app, hchunks hreads, ?_, h.calls, .inr (hstays (by simp) ?_)⟩
      · have hdrop : p.loop.input = x.peer.loop.input.drop len := by
          rw [hreads, List.append_nil] at hinput
          have hsplit := List.take_append_drop len x.peer.loop.input
          exact List.append_cancel_left (hinput.trans hsplit.symm)
        rw [hdrop]
        have hold := h.input
        rw [hlen] at hold
        exact hold
      · refine h.busy.resolve_left fun hidle => ?_
        simp [Host.idle, hlen] at hidle
    | @call c rest hnone hcall hstack =>
      have hreads : x.peer.loop.reads (.call c) = [] := rfl
      have hsame : p.loop.input = x.peer.loop.input := by
        simpa [hreads, TcpLoop.retrieves] using hinput
      refine ⟨hrooted, hcallback, h.app, hchunks hreads, ?_, ?_, .inr (hstays (by simp) ?_)⟩
      · rw [hsame]
        exact h.input
      · exact (List.suffix_cons c rest).trans (hcall ▸ h.calls)
      · exact List.mem_of_mem_head? hstack
    | quiet hquiet =>
      have hreads : x.peer.loop.reads b = [] := hquiet.takes
      have hnone : x.peer.loop.retrieves b = [] := by
        cases b with
        | retrieve len => exact absurd rfl (hquiet.retrieve len)
        | _ => rfl
      have hsame : p.loop.input = x.peer.loop.input := by
        simpa [hreads, hnone] using hinput
      refine ⟨hrooted, hcallback, h.app, hchunks hreads, ?_, h.calls, ?_⟩
      · rw [hsame]
        exact h.input
      · rcases h.busy with hidle | hmem
        · exact .inl hidle
        · rcases TcpLoop.user_of_step hmem hloop with hstays | ⟨rfl, hhead⟩
          · exact .inr hstays
          · exact .inl (hquiet.ret rfl hhead)
    | read hreads =>
      have hidle := h.idle_of_reads hreads
      obtain ⟨env, rest, rfl, -⟩ := TcpLoop.stack_of_reads hreads
      have hbefore : x.peer.loop.input = (serve.course s x.host.chunks).input := by
        have hold := h.input
        simp only [Host.idle, Bool.and_eq_true, Option.isNone_iff_eq_none] at hidle
        rwa [hidle.1] at hold
      have hafter : p.loop.input =
          (serve.course s x.host.chunks).input ++ x.peer.loop.reads (.resume env) := by
        rw [← hbefore]
        exact hinput
      refine ⟨hrooted, hcallback, ?_, ?_, ?_, ?_,
        .inr (TcpLoop.user_of_reads h.callback hreads hloop)⟩
      · rw [Service.course_concat, h.app, hafter]
        rfl
      · rw [List.flatten_append, List.flatten_singleton, h.chunks, hread]
        rfl
      · rw [Service.course_concat, h.app, hafter]
        rfl
      · rw [Service.course_concat, h.app, hafter]
        exact List.suffix_append _ _
  · cases hstepped with
    | quiet =>
      subst hclosed
      exact ⟨h.rooted, h.callback, h.app, h.chunks, h.input, h.calls, h.busy⟩

end Served

namespace Peer

/-- The connection has not begun to close. -/
def up (p : Peer) : Bool := p.loop.conn.state.rank ≤ 1

/-- What has been sent. -/
def sent (p : Peer) : Bytes := contents p.loop.disk (accepted p.loop.trace)

end Peer

namespace Served

variable {S : Type} {serve : Service S} {s : S} {x y : Served S} {a : PeerAction}

/-- A service that only sends has sent what it would have sent on its own, until the connection
begins to close. -/
structure Replies (serve : Service S) (s : S) (x : Served S) : Prop where
  messaging : x.peer.loop.Messaging
  unborn : x.peer.loop.conn.state = .kConnecting → x.peer.loop.Unborn ∧ x.host.chunks = []
  sent : x.peer.sent <+: messages (serve.course s x.host.chunks).calls
  caughtUp : x.peer.up = true → x.peer.sent ++ messages x.host.toCall =
    messages (serve.course s x.host.chunks).calls

/-- Nothing was served, and nothing answered. -/
theorem replies_start (fd : Nat) (callbacks : Callback → Bool) (disk : Bytes → Bytes) :
    (start fd callbacks disk s).Replies serve s where
  messaging := TcpLoop.messaging_start fd callbacks disk
  unborn _ := ⟨TcpLoop.unborn_start fd callbacks disk, rfl⟩
  sent := List.prefix_rfl
  caughtUp _ := rfl

/-- The calls of the service are those that it has on its own. -/
theorem calls_grow (hstep : x.step serve a = some y) :
    (serve.course s x.host.chunks).calls <+: (serve.course s y.host.chunks).calls := by
  obtain ⟨hpeer, hhost⟩ := parts_of_step hstep
  obtain ⟨p, host⟩ := y
  cases Host.stepped_of_step (show x.host.step serve x.peer a p = some host from hhost) with
  | read =>
    rw [Service.course_concat]
    exact List.prefix_append _ _
  | _ => exact List.prefix_rfl

/-- A step keeps what was sent up to what was answered. -/
theorem Replies.step (h : x.Replies serve s) (ht : x.Tracks serve s)
    (hstep : x.step serve a = some y)
    (hsends : OnlySends (serve.course s y.host.chunks).calls) : y.Replies serve s := by
  have hsends' := hsends.of_prefix (calls_grow hstep)
  obtain ⟨hpeer, hhost⟩ := parts_of_step hstep
  obtain ⟨p, host⟩ := y
  have hstepped := Host.stepped_of_step (show x.host.step serve x.peer a p = some host from hhost)
  rcases Peer.cases_of_step hpeer with ⟨b, rfl, -, hloop, -, -⟩ | ⟨rfl, hclosed⟩
  · have hup (hp : p.up = true) : x.peer.up = true := by
      simp only [Peer.up, decide_eq_true_eq] at hp ⊢
      exact (TcpLoop.moves_of_step hloop).rank_le.trans hp
    have hdisk : p.loop.disk = x.peer.loop.disk := by
      obtain ⟨_, horderly⟩ := h.messaging.orderly
      exact (TcpLoop.effect_of_step horderly.sound.sized hloop).disk
    have hsame (hb : b.sendsOnly) (hcall : ∀ c, b ≠ .call c) : p.sent = x.peer.sent := by
      rcases h.messaging.accepted_of_step hb hloop with hacc | ⟨data, rfl, -⟩
      · rw [Peer.sent, Peer.sent, hdisk, hacc]
      · exact absurd rfl (hcall _)
    have hunborn (hb : b.sendsOnly) (hcall : ∀ c, b ≠ .call c)
        (hstate : p.loop.conn.state = .kConnecting) :
        x.peer.loop.Unborn ∧ x.host.chunks = [] ∧ p.loop.Unborn := by
      have hbefore : x.peer.loop.conn.state = .kConnecting := by
        by_contra hne
        exact TcpLoop.ne_kConnecting_of_rank hne (TcpLoop.moves_of_step hloop).rank_le hstate
      obtain ⟨hborn, hnone⟩ := h.unborn hbefore
      exact ⟨hborn, hnone, hborn.step h.messaging.silent
        (fun seq => (h.messaging.untouched seq).node) (fun c => ⟨hcall c, (hb c).2⟩) hloop hstate⟩
    cases hstepped with
    | @retrieve len hlen =>
      have hb : (Action.retrieve len).sendsOnly := by simp [Action.sendsOnly]
      have hsent := hsame hb (by simp)
      refine ⟨h.messaging.step hb hloop, fun hstate => ?_, hsent ▸ h.sent,
        fun hp => hsent ▸ h.caughtUp (hup hp)⟩
      obtain ⟨-, hnone, hborn⟩ := hunborn hb (by simp) hstate
      exact ⟨hborn, hnone⟩
    | @call c rest hnone hcall hstack =>
      have hmem : c ∈ (serve.course s x.host.chunks).calls :=
        ht.calls.subset (hcall ▸ List.mem_cons_self)
      obtain ⟨data, rfl⟩ := hsends' c hmem
      have hb : (Action.call (.send data)).sendsOnly := by simp [Action.sendsOnly]
      -- the callback runs, so the connection has been established
      have hestablished : x.peer.loop.conn.state ≠ .kConnecting := by
        intro hstate
        rw [(h.unborn hstate).2] at hmem
        contradiction
      refine ⟨h.messaging.step hb hloop, fun hstate => ?_, ?_, fun hp => ?_⟩
      · exact absurd hstate
          (TcpLoop.ne_kConnecting_of_rank hestablished (TcpLoop.moves_of_step hloop).rank_le)
      · rcases h.messaging.accepted_of_step hb hloop with hacc | ⟨data', he, hstate, hacc⟩
        · have hsent : p.sent = x.peer.sent := by rw [Peer.sent, Peer.sent, hdisk, hacc]
          exact hsent ▸ h.sent
        · obtain rfl : data = data' := by simpa using he
          have hcaught := h.caughtUp (by simp [Peer.up, hstate, StateE.rank])
          rw [hcall] at hcaught
          refine ⟨messages rest, ?_⟩
          rw [← hcaught, Peer.sent, hdisk, hacc, contents_append]
          simp [contents, Output.content, Peer.sent, messages]
      · have hbefore := hup hp
        have hstate : x.peer.loop.conn.state = .kConnected := by
          rw [Peer.up] at hbefore
          cases hs : x.peer.loop.conn.state with
          | kConnected => rfl
          | kConnecting => exact absurd hs hestablished
          | kDisConnecting => simp [hs, StateE.rank] at hbefore
          | kDisConnected => simp [hs, StateE.rank] at hbefore
        have hcaught := h.caughtUp hbefore
        rw [hcall] at hcaught
        change p.sent ++ messages rest = _
        rw [← hcaught, Peer.sent, hdisk, TcpLoop.accepted_of_send hstate hloop, contents_append]
        simp [contents, Output.content, Peer.sent, messages]
    | quiet hquiet =>
      have hcall (c : ConnCall) : b ≠ .call c := fun he => (hquiet.call c).1 (he ▸ rfl)
      have hb : b.sendsOnly := fun c =>
        ⟨fun he => absurd he (hcall c), fun he => (hquiet.call c).2 (he ▸ rfl)⟩
      have hsent := hsame hb hcall
      refine ⟨h.messaging.step hb hloop, fun hstate => ?_, hsent ▸ h.sent,
        fun hp => hsent ▸ h.caughtUp (hup hp)⟩
      obtain ⟨-, hnone, hborn⟩ := hunborn hb hcall hstate
      exact ⟨hborn, hnone⟩
    | read hreads =>
      have hidle := ht.idle_of_reads hreads
      obtain ⟨env, rest, rfl, hstack⟩ := TcpLoop.stack_of_reads hreads
      have hb : (Action.resume env).sendsOnly := by simp [Action.sendsOnly]
      have hsent := hsame hb (by simp)
      refine ⟨h.messaging.step hb hloop, fun hstate => ?_, ?_, fun hp => ?_⟩
      · obtain ⟨hborn, -⟩ := hunborn hb (by simp) hstate
        rcases hborn.stack _ (hstack ▸ List.mem_cons_self) with he | he <;> contradiction
      · rw [hsent, Service.course_concat]
        refine h.sent.trans ?_
        rw [Service.next, messages_append]
        exact List.prefix_append _ _
      · obtain ⟨hinput, -⟩ := TcpLoop.stream_of_step hloop
        have hnothing : x.host.toCall = [] := by
          simp only [Host.idle, Bool.and_eq_true, List.isEmpty_iff] at hidle
          exact hidle.2
        have hcaught := h.caughtUp (hup hp)
        rw [hnothing] at hcaught
        have hinput' : p.loop.input =
            (serve.course s x.host.chunks).input ++ x.peer.loop.reads (.resume env) := by
          have hold := ht.input
          simp only [Host.idle, Bool.and_eq_true, Option.isNone_iff_eq_none] at hidle
          rw [hidle.1] at hold
          rw [← show x.peer.loop.input = _ from hold]
          exact hinput
        change p.sent ++ messages (serve x.host.app p.loop.input).calls =
          messages (serve.course s (x.host.chunks ++ [x.peer.loop.reads (.resume env)])).calls
        rw [hsent, Service.course_concat, Service.next, messages_append, ht.app, hinput',
          ← hcaught]
        simp [messages]
  · cases hstepped with
    | quiet =>
      subst hclosed
      exact ⟨h.messaging, h.unborn, h.sent, h.caughtUp⟩

/-- What holds of a service in every run. -/
theorem tracks_of_run {fd : Nat} {callbacks : Callback → Bool} {disk : Bytes → Bytes}
    {as : List PeerAction} (hcallback : callbacks .message = true)
    (hrun : Run (step serve) anyStep (start fd callbacks disk s) as x) :
    x.Tracks serve s ∧
      (OnlySends (serve.course s x.host.chunks).calls → x.Replies serve s) := by
  refine hrun.invariant (I := fun x => x.Tracks serve s ∧
      (OnlySends (serve.course s x.host.chunks).calls → x.Replies serve s))
    ⟨tracks_start fd disk hcallback, fun _ => replies_start fd callbacks disk⟩ ?_
  rintro x a y ⟨ht, hr⟩ - hstep
  refine ⟨ht.step hstep, fun hsends => ?_⟩
  exact (hr (hsends.of_prefix (calls_grow hstep))).step ht hstep hsends

end Served

/-! ## A service and its client -/

/-- Two connections joined by a socket; the message callback of the far one is a service. -/
structure Serviced (S : Type) where
  net : Duplex Peer UInt8
  host : Host S

namespace Serviced

variable {S : Type} {serve : Service S} {s : S} {x y : Serviced S}
  {fd : Side → Nat} {callbacks : Side → Callback → Bool} {disk : Side → Bytes → Bytes}
  {as : List (Side × PeerAction)}

def start (fd : Side → Nat) (callbacks : Side → Callback → Bool) (disk : Side → Bytes → Bytes)
    (s : S) : Serviced S where
  net := Peers.start fd callbacks disk
  host := { app := s }

def step (serve : Service S) (x : Serviced S) (label : Side × PeerAction) : Option (Serviced S) :=
  (x.net.step Peer.endpoint label).bind fun net =>
    if label.1 = .far then
      (x.host.step serve (x.net.peer .far) label.2 (net.peer .far)).map fun host => { net, host }
    else some { net, host := x.host }

/-- The client sends in order. -/
def ClientInOrder (x : Serviced S) (label : Side × PeerAction) : Prop :=
  Peers.Obeys .near TcpLoop.InOrder x.net label

instance (x : Serviced S) (label : Side × PeerAction) : Decidable (x.ClientInOrder label) :=
  inferInstanceAs (Decidable (Peers.Obeys ..))

/-- The far side with its service. -/
def served (x : Serviced S) : Served S := ⟨x.net.peer .far, x.host⟩

/-- A step of a side is a step of the net, and on the serving side of the service too. -/
theorem parts_of_step {label : Side × PeerAction} (h : x.step serve label = some y) :
    x.net.step Peer.endpoint label = some y.net ∧
      (label.1 = .far → x.served.step serve label.2 = some y.served) ∧
      (label.1 ≠ .far → y.served = x.served) := by
  obtain ⟨net, hnet, h⟩ := Option.bind_eq_some_iff.mp h
  obtain ⟨s, a⟩ := label
  obtain ⟨hpeer, hother⟩ := Duplex.peer_of_step hnet
  cases s with
  | far =>
    obtain ⟨host, hhost, rfl⟩ := Option.map_eq_some_iff.mp h
    refine ⟨hnet, fun _ => ?_, fun hne => absurd rfl hne⟩
    have hpeer : (x.net.peer .far).step a = some (net.peer .far) := hpeer
    simp only [Served.step, served, hpeer, Option.bind_some]
    rw [hhost]
    rfl
  | near =>
    obtain rfl := Option.some.inj h
    refine ⟨hnet, fun hf => Side.noConfusion hf, fun _ => ?_⟩
    have hother : net.peer .far = x.net.peer .far := hother
    simp only [served, hother]

/-- The net of a served pair runs as a net. -/
theorem net_of_run (h : Run (step serve) ClientInOrder x as y) :
    Run (Duplex.step Peer.endpoint) (Peers.Obeys .near TcpLoop.InOrder) x.net as y.net := by
  have hrun := (h.simulate (f := net) (l := fun a => [a]) (I := fun _ => True) trivial
    fun _ _ _ _ hg hstep => ⟨trivial, .single hg (parts_of_step hstep).1⟩).1
  rwa [List.flatMap_singleton'] at hrun

/-- Its serving side runs by itself. -/
theorem served_of_run {guard : Serviced S → Side × PeerAction → Prop}
    (h : Run (step serve) guard x as y) :
    Run (Served.step serve) anyStep x.served (as.flatMap (Duplex.ofSide .far)) y.served := by
  refine (h.simulate (f := served) (I := fun _ => True) trivial ?_).1
  rintro x label y - - hstep
  obtain ⟨-, hfar, hnear⟩ := parts_of_step hstep
  refine ⟨trivial, ?_⟩
  by_cases hside : label.1 = .far
  · rw [Duplex.ofSide, if_pos hside]
    exact .single trivial (hfar hside)
  · rw [Duplex.ofSide, if_neg hside, hnear hside]
    exact .nil

/-- The client is open and has written everything, the server is open, back in its loop and has
written everything, and nothing is in flight. -/
structure AtRest (d : Duplex Peer UInt8) : Prop where
  near_open : ¬(d.peer .near).loop.view.closed
  near_written : (d.peer .near).loop.conn.writeBuffer.readable = [] ∧
    (d.peer .near).loop.unsent = [] ∧ outputs (d.peer .near).loop.functors = []
  flight (s : Side) : d.inFlight s = []
  far_up : (d.peer .far).up = true
  far_live : (d.peer .far).loop.aborted = false
  far_idle : (d.peer .far).loop.idle = true
  far_written : (d.peer .far).loop.conn.writeBuffer.readable = []

/-- The state of rest, side by side. -/
theorem atRest_iff (d : Duplex Peer UInt8) : AtRest d ↔
    ((d.peer .near).loop.conn.state ≠ .kDisConnected ∧ (d.peer .near).loop.aborted = false) ∧
      ((d.peer .near).loop.conn.writeBuffer.readable = [] ∧ (d.peer .near).loop.unsent = [] ∧
        outputs (d.peer .near).loop.functors = []) ∧
      (d.inFlight .near = [] ∧ d.inFlight .far = []) ∧ (d.peer .far).up = true ∧
      (d.peer .far).loop.aborted = false ∧ (d.peer .far).loop.idle = true ∧
      (d.peer .far).loop.conn.writeBuffer.readable = [] := by
  constructor
  · intro h
    have hopen := h.near_open
    rw [View.closed, not_or, Bool.not_eq_true] at hopen
    exact ⟨hopen, h.near_written, ⟨h.flight .near, h.flight .far⟩, h.far_up, h.far_live,
      h.far_idle, h.far_written⟩
  · rintro ⟨hopen, hwritten, ⟨hnear, hfar⟩, hup, hlive, hidle, hdone⟩
    refine ⟨?_, hwritten, fun s => ?_, hup, hlive, hidle, hdone⟩
    · rw [View.closed, not_or, Bool.not_eq_true]
      exact hopen
    · cases s with
      | near => exact hnear
      | far => exact hfar

instance (d : Duplex Peer UInt8) : Decidable (AtRest d) := decidable_of_iff' _ (atRest_iff d)

/-- The reads of the server are a prefix of what the client was given to send, and what the client
has got is a prefix of what the service on its own makes of these reads; when everything is at
rest, both are complete. -/
theorem replies_of_run (hcallback : callbacks .far .message = true)
    (h : Run (step serve) ClientInOrder (start fd callbacks disk s) as x)
    (hsends : OnlySends (serve.course s x.host.chunks).calls) :
    (x.host.chunks.flatten <+:
        contents (disk .near) (accepted (x.net.peer .near).loop.trace) ∧
      (x.net.peer .near).retrieved ++ (x.net.peer .near).loop.input <+:
        messages (serve.course s x.host.chunks).calls) ∧
    (AtRest x.net → x.host.chunks.flatten =
        contents (disk .near) (accepted (x.net.peer .near).loop.trace) ∧
      (x.net.peer .near).retrieved ++ (x.net.peer .near).loop.input =
        messages (serve.course s x.host.chunks).calls) := by
  obtain ⟨htracks, hreplies⟩ := Served.tracks_of_run hcallback (served_of_run h)
  have hreplies : x.served.Replies serve s := hreplies hsends
  have hnet := net_of_run h
  have hback : (x.net.peer .near).retrieved ++ (x.net.peer .near).loop.input ++
      x.net.inFlight .near = handed (x.net.peer .far).loop.trace := Peers.read_of_run hnet .near
  have hforth : (x.net.peer .far).retrieved ++ (x.net.peer .far).loop.input ++
      x.net.inFlight .far = handed (x.net.peer .near).loop.trace := Peers.read_of_run hnet .far
  have hchunks : x.host.chunks.flatten =
      (x.net.peer .far).retrieved ++ (x.net.peer .far).loop.input := htracks.chunks
  rw [← hchunks] at hforth
  obtain ⟨hnear, hdisk⟩ := Peers.ordered_of_run hnet
  rw [← hdisk]
  refine ⟨⟨?_, ?_⟩, fun hrest => ⟨?_, ?_⟩⟩
  · refine List.IsPrefix.trans ?_ (TcpLoop.handed_prefix hnear)
    exact ⟨_, hforth⟩
  · calc (x.net.peer .near).retrieved ++ (x.net.peer .near).loop.input
      _ <+: handed (x.net.peer .far).loop.trace := ⟨_, hback⟩
      _ <+: (x.net.peer .far).sent := TcpLoop.handed_prefix hreplies.messaging.ordered
      _ <+: messages (serve.course s x.host.chunks).calls := hreplies.sent
  · -- the client has written everything, and the server has read it
    obtain ⟨hbuffered, hunsent, hcoming⟩ := hrest.near_written
    have hnear := TcpLoop.handed_eq hnear hrest.near_open
    rw [hbuffered, hunsent, hcoming, ← hforth, hrest.flight .far] at hnear
    simpa [contents] using hnear
  · -- no callback is in progress, and what the last one has sent has been written
    obtain ⟨htodo, hstack⟩ := TcpLoop.idle_iff.mp hrest.far_idle
    have hidle : x.host.idle = true := by
      refine htracks.busy.resolve_right fun hmem => ?_
      rw [show x.served.peer.loop.stack = [] from hstack] at hmem
      contradiction
    have hnothing : x.host.toCall = [] := by
      simp only [Host.idle, Bool.and_eq_true, List.isEmpty_iff] at hidle
      exact hidle.2
    have hcaught : (x.net.peer .far).sent ++ messages x.host.toCall =
      messages (serve.course s x.host.chunks).calls := hreplies.caughtUp hrest.far_up
    have hopen : ¬(x.net.peer .far).loop.view.closed := by
      rintro (hstate | hlive)
      · have hup := hrest.far_up
        rw [Peer.up, show (x.net.peer .far).loop.conn.state = .kDisConnected from hstate] at hup
        contradiction
      · exact Bool.false_ne_true (hrest.far_live.symm.trans hlive)
    have hfar := TcpLoop.handed_eq hreplies.messaging.ordered hopen
    change handed (x.net.peer .far).loop.trace ++
      (x.net.peer .far).loop.conn.writeBuffer.readable ++ (x.net.peer .far).loop.unsent ++
      contents (x.net.peer .far).loop.disk
        (outputs (x.net.peer .far).loop.functors) = (x.net.peer .far).sent at hfar
    have hqueued : outputs (x.net.peer .far).loop.functors = [] := by
      have hnone : outputs ((x.net.peer .far).loop.func ++ (x.net.peer .far).loop.pendingFunc) =
        [] := hreplies.messaging.queued
      simpa [TcpLoop.functors, htodo] using hnone
    have hfile : (x.net.peer .far).loop.unsent = [] := hreplies.messaging.fileFree.unsent
    rw [hrest.far_written, hfile, hqueued, ← hback, hrest.flight .near] at hfar
    rw [← hcaught, ← hfar, hnothing]
    simp [contents, messages]

end Serviced

end ClearMoon.Tcp

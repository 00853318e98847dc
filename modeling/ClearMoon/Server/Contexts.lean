import ClearMoon.Http.Server
import ClearMoon.Server.Callback

/-!
# Parser contexts

An `HttpServer` keeps a parser context for every connection that its connection callback has found
connected, and erases the context when the callback finds the connection otherwise. The callback
is invoked once, however, when the connection is established, and never when it is closed. The map
of the contexts has no lock, and the callbacks run in all io loops: when one of them begins while
another loop is inside of one, the map may be left with any contexts.
-/

namespace ClearMoon.Server

open ClearMoon.Http ClearMoon.Net

/-- `context_`. -/
abbrev Contexts := Std.ExtTreeMap Bytes HttpContext

/-- A `TcpServer` whose callbacks are those of an `HttpServer`. -/
structure HttpLoops (U : Type) where
  tcp : TcpServer
  http : HttpServer U
  /-- The io loops inside of `onConnection` or `onMessage`. -/
  inside : List Nat := []

inductive HttpAction where
  /-- A step of the loops; with the connection callback, `HttpServer::onConnection` begins. -/
  | tcp (a : Action) (left : Contexts)
  /-- The message callback of a connection begins; its calls on the connection are steps of the
  loops. -/
  | message (conn : Nat) (buf : Buffer) (left : Contexts)
  /-- The callback of an io loop returns. -/
  | ret (ioLoop : Nat)

namespace HttpLoops

variable {U : Type} {s t : HttpLoops U} {c : Nat} {x : ServerConn}

/-- What a step of the loops tells `onConnection`: a connection, and its `connected()`. -/
def connectionCallback? (s : TcpServer) : Action → Option (Nat × Bool)
  | .connectionCallback i =>
    match s.callback i with
    | some c => (s.conn c).map fun x => (c, x.state = .kConnected)
    | none => none
  | _ => none

/-- The io loop whose next step this is. -/
def ioLoop? : Action → Option Nat
  | .ioFunc i _ | .connectionCallback i => some i
  | _ => none

/-- A callback begins in an io loop: it uses the map, which is undefined when another loop is inside
of a callback already. -/
def enter (s : HttpLoops U) (ioLoop : Nat) (http : HttpServer U) (left : Contexts) :
    HttpLoops U where
  tcp := s.tcp
  http := if s.inside = [] then http else { http with context := left }
  inside := s.inside ++ [ioLoop]

def step (s : HttpLoops U) : HttpAction → Option (HttpLoops U)
  | .tcp a left =>
    if (ioLoop? a).any (s.inside.contains ·) then none
    else (s.tcp.step a).map fun tcp =>
      match connectionCallback? s.tcp a with
      | some (c, connected) =>
        let http := s.http.onConnection (connName c) connected
        { s with tcp }.enter ((ioLoop? a).getD 0) http left
      | none => { s with tcp }
  | .message c buf left =>
    match s.tcp.conn c with
    | none => none
    | some x =>
      if x.state ≠ .kConnecting ∧ s.tcp.callback x.ioLoop = none ∧ x.ioLoop ∉ s.inside then
        let handled := s.http.onMessage (connName c) buf
        -- an exception ends the process
        if handled.thrown.isSome then none else some (s.enter x.ioLoop handled.server left)
      else none
  | .ret ioLoop =>
    if ioLoop ∈ s.inside then some { s with inside := s.inside.erase ioLoop } else none

/-- A callback begins only when no io loop is inside of one. -/
def OneAtATime (s : HttpLoops U) : HttpAction → Prop
  | .tcp a _ => connectionCallback? s.tcp a ≠ none → s.inside = []
  | .message _ _ _ => s.inside = []
  | .ret _ => True

instance (s : HttpLoops U) (a : HttpAction) : Decidable (s.OneAtATime a) := by
  cases a with
  | tcp a left => exact inferInstanceAs (Decidable (_ → _))
  | message conn buf left => exact inferInstanceAs (Decidable (s.inside = []))
  | ret ioLoop => exact isTrue trivial

/-- The keys of `context_` are the names of the connections that are established and not yet
closed. -/
def ContextsLive (s : HttpLoops U) : Prop :=
  ∀ name, name ∈ s.http.context ↔
    ∃ c, name = connName c ∧ hops s.tcp.trace .establish c = 1 ∧ hops s.tcp.trace .close c = 0

/-- The queues are empty, and no io loop is in the middle of a functor or of a callback. -/
structure Drained (s : HttpLoops U) : Prop where
  queues : s.tcp.Drained
  callback : ∀ i, s.tcp.callback i = none
  inside : s.inside = []

/-- The keys are the names of the connections that the connection callback has found connected. -/
structure Inv (s : HttpLoops U) : Prop where
  tcp : s.tcp.Inv
  aborted : s.tcp.aborted = false
  told : ∀ c x, s.tcp.conn c = some x → s.tcp.Told c x
  keys : ∀ name, name ∈ s.http.context ↔
    ∃ c, name = connName c ∧ .connectionCallback c .kConnected ∈ s.tcp.trace

/-- A context stored under a key that is there adds no key. -/
theorem mem_insert_context {contexts : Contexts} {name : Bytes} (hname : name ∈ contexts)
    (key : Bytes) (context : HttpContext) :
    key ∈ contexts.insert name context ↔ key ∈ contexts := by
  rw [Std.ExtTreeMap.mem_insert]
  refine ⟨?_, .inr⟩
  rintro (heq | hmem)
  · rwa [← Std.LawfulEqCmp.eq_of_compare heq]
  · exact hmem

/-- `onMessage` neither adds a key nor erases one. -/
theorem mem_context_onMessage (h : HttpServer U) (name key : Bytes) (buf : Buffer) :
    key ∈ (h.onMessage name buf).server.context ↔ key ∈ h.context := by
  rw [HttpServer.onMessage]
  split
  · exact Iff.rfl
  · rename_i context hcontext
    have hname : name ∈ h.context :=
      Std.ExtTreeMap.isSome_getElem?_iff_mem.mp (Option.isSome_of_eq_some hcontext)
    dsimp only
    split
    · exact mem_insert_context hname key _
    · exact mem_insert_context hname key _
    · dsimp only
      rw [HttpServer.context_invoke,
        mem_insert_context (Std.ExtTreeMap.mem_insert_self (t := h.context)) key,
        mem_insert_context hname key]

/-- What `onConnection` does to the keys. -/
theorem mem_context_onConnection (h : HttpServer U) (name key : Bytes) (connected : Bool) :
    key ∈ (h.onConnection name connected).context ↔
      if key = name then connected = true else key ∈ h.context := by
  rw [HttpServer.onConnection]
  split
  · rename_i hconnected
    rw [Std.ExtTreeMap.mem_insert, Std.compare_eq_iff_eq]
    split
    · rename_i hkey
      simp [hkey, hconnected]
    · rename_i hkey
      simp [Ne.symm hkey]
  · rename_i hconnected
    rw [Std.ExtTreeMap.mem_erase, ne_eq, Std.compare_eq_iff_eq]
    split
    · rename_i hkey
      simp [hkey, hconnected]
    · rename_i hkey
      simp [Ne.symm hkey]

/-- A step of the loops, with the callback that begins in it when no other one is in progress. -/
theorem tcp_of_step {a : Action} {left : Contexts} (hone : s.OneAtATime (.tcp a left))
    (hstep : s.step (.tcp a left) = some t) :
    s.tcp.step a = some t.tcp ∧ t.http = match connectionCallback? s.tcp a with
      | some (c, connected) => s.http.onConnection (connName c) connected
      | none => s.http := by
  obtain ⟨-, hstep⟩ := Option.ite_none_left_eq_some.mp hstep
  obtain ⟨tcp, htcp, rfl⟩ := Option.map_eq_some_iff.mp hstep
  split
  · rename_i c connected hcallback
    have hinside : s.inside = [] := hone (by simp [hcallback])
    exact ⟨htcp, if_pos hinside⟩
  · exact ⟨htcp, rfl⟩

/-- The step that tells `onConnection` of a connection is its connection callback. -/
theorem eq_of_connectionCallback? {tcp : TcpServer} {a : Action} {connected : Bool}
    (h : connectionCallback? tcp a = some (c, connected)) :
    ∃ i x, a = .connectionCallback i ∧ tcp.callback i = some c ∧ tcp.conn c = some x ∧
      connected = decide (x.state = .kConnected) := by
  cases a with
  | connectionCallback i =>
    rw [connectionCallback?] at h
    split at h
    · rename_i d hi
      obtain ⟨x, hx, heq⟩ := Option.map_eq_some_iff.mp h
      obtain ⟨rfl, rfl⟩ := Prod.mk.inj heq
      exact ⟨i, x, rfl, hi, hx, rfl⟩
    · contradiction
  | _ => contradiction

/-- A connection whose callback comes has not been told of before. -/
theorem Inv.not_told (h : s.Inv) {i : Nat} (hi : s.tcp.callback i = some c)
    (hx : s.tcp.conn c = some x) (state : Tcp.StateE) :
    .connectionCallback c state ∉ s.tcp.trace := by
  obtain ⟨y, hy, hloop⟩ := h.tcp.known.callback i c hi
  obtain rfl := Option.some.inj (hx.symm.trans hy)
  exact ((h.told c x hx).pending (by rw [hloop, hi])).2.1 state

/-- A step of the loops adds the key of a connection that the callback finds connected. -/
theorem keys_of_step {a : Action} {left : Contexts} (h : s.Inv) (hone : s.OneAtATime (.tcp a left))
    (hstep : s.step (.tcp a left) = some t) (name : Bytes) :
    name ∈ t.http.context ↔
      ∃ c, name = connName c ∧ .connectionCallback c .kConnected ∈ t.tcp.trace := by
  obtain ⟨htcp, hhttp⟩ := tcp_of_step hone hstep
  have hsteps := (TcpServer.steps_of_step htcp).2
  rw [hhttp]
  cases hcallback : connectionCallback? s.tcp a with
  | none =>
    refine (h.keys name).trans (exists_congr fun c => and_congr_right fun _ => ?_)
    refine ⟨TcpServer.mem_trace_mono h.tcp h.aborted hsteps, fun hmem => ?_⟩
    rcases TcpServer.mem_trace_of_step hsteps hmem with hmem | ⟨i, x, rfl, hi, hx, hstate⟩
    · exact hmem
    · simp [connectionCallback?, hi, hx] at hcallback
  | some told =>
    obtain ⟨c, connected⟩ := told
    obtain ⟨i, x, rfl, hi, hx, hconnected⟩ := eq_of_connectionCallback? hcallback
    have htrace : t.tcp.trace = s.tcp.trace ++ [.connectionCallback c x.state] := by
      generalize t.tcp = tcp at hsteps
      cases hsteps with
      | connectionCallback hi' hx' =>
        obtain rfl := Option.some.inj (hi.symm.trans hi')
        obtain rfl := Option.some.inj (hx.symm.trans hx')
        rfl
    rw [mem_context_onConnection, hconnected, htrace]
    split
    · rename_i hname
      rw [decide_eq_true_eq]
      constructor
      · intro hstate
        exact ⟨c, hname, by simp [hstate]⟩
      · rintro ⟨d, hd, hmem⟩
        obtain rfl := connName_injective (hname.symm.trans hd)
        rw [List.mem_append, List.mem_singleton] at hmem
        rcases hmem with hmem | hmem
        · exact absurd hmem (h.not_told hi hx _)
        · exact (Event.connectionCallback.inj hmem).2.symm
    · rename_i hname
      refine (h.keys name).trans (exists_congr fun d => and_congr_right fun hd => ?_)
      rw [List.mem_append, List.mem_singleton]
      refine ⟨.inl, ?_⟩
      rintro (hmem | hmem)
      · exact hmem
      · rw [(Event.connectionCallback.inj hmem).1] at hd
        exact absurd hd hname

/-- A step whose callback has the table for itself keeps the keys in order. -/
theorem inv_step {a : HttpAction} (h : s.Inv) (hone : s.OneAtATime a)
    (hstep : s.step a = some t) : t.Inv := by
  cases a with
  | tcp a left =>
    obtain ⟨htcp, -⟩ := tcp_of_step hone hstep
    have hsteps := (TcpServer.steps_of_step htcp).2
    refine ⟨TcpServer.inv_step h.tcp hsteps,
      (TcpServer.emits_of_step h.tcp h.aborted hsteps).1, fun c y hy => ?_,
      keys_of_step h hone hstep⟩
    cases hc : s.tcp.conn c with
    | some x =>
      obtain ⟨z, hz, htold⟩ := TcpServer.told_step h.tcp h.aborted hc (h.told c x hc) hsteps
      obtain rfl := Option.some.inj (hy.symm.trans hz)
      exact htold
    | none =>
      by_cases ha : a = .newConnection
      · subst ha
        exact TcpServer.told_newConnection h.tcp hc hsteps hy
      · rw [TcpServer.conn_none_of_step hsteps hc ha] at hy
        contradiction
  | message c buf left =>
    simp only [step] at hstep
    split at hstep
    · contradiction
    · rename_i x _
      obtain ⟨-, hstep⟩ := Option.ite_none_right_eq_some.mp hstep
      obtain ⟨-, hstep⟩ := Option.ite_none_left_eq_some.mp hstep
      obtain rfl := Option.some.inj hstep
      have hhttp : (s.enter x.ioLoop (s.http.onMessage (connName c) buf).server left).http =
          (s.http.onMessage (connName c) buf).server := if_pos hone
      refine ⟨h.tcp, h.aborted, h.told, fun name => ?_⟩
      rw [hhttp]
      exact (mem_context_onMessage s.http (connName c) name buf).trans (h.keys name)
  | ret ioLoop =>
    obtain ⟨-, hstep⟩ := Option.ite_none_right_eq_some.mp hstep
    obtain rfl := Option.some.inj hstep
    exact ⟨h.tcp, h.aborted, h.told, h.keys⟩

/-- The server as its owner has made it. -/
def init (maxNum hardware_concurrency : Nat) (cb : Option (HttpCallback U)) (user : U) :
    HttpLoops U where
  tcp := .init maxNum hardware_concurrency
  http := { cb, user }

/-- A new server has no contexts. -/
theorem inv_init (maxNum hardware_concurrency : Nat) (cb : Option (HttpCallback U)) (user : U) :
    (init maxNum hardware_concurrency cb user).Inv where
  tcp := TcpServer.inv_init _ _
  aborted := rfl
  told c x hx := by simp [init, TcpServer.init] at hx
  keys name := by simp [init, TcpServer.init]

/-- A connection that the callback has found connected has been established. -/
theorem established_iff (h : s.Inv) (hdrained : s.Drained) :
    (hops s.tcp.trace .establish c = 1 ∧ hops s.tcp.trace .close c = 0) ↔
      .connectionCallback c .kConnected ∈ s.tcp.trace ∧ hops s.tcp.trace .close c = 0 := by
  refine and_congr_left fun hopen => ?_
  cases hc : s.tcp.conn c with
  | none =>
    have hzero := TcpServer.hops_eq_zero h.tcp.known hc .establish
    refine ⟨fun hone => by omega, fun hmem => absurd hc (h.tcp.known.events _ hmem)⟩
  | some x =>
    have htold := h.told c x hc
    refine ⟨fun hone => ?_, htold.established _⟩
    rcases htold.told hone with hcallback | ⟨state, hmem⟩
    · rw [hdrained.callback] at hcallback
      contradiction
    · rcases htold.late state hmem with rfl | hstate | hforce
      · exact hmem
      · have hclose : hops s.tcp.trace .close c = if x.state = .kDisConnected then 1 else 0 :=
          (h.tcp.sound c x hc).close
        rw [if_pos hstate] at hclose
        omega
      · rw [hdrained.queues.io] at hforce
        contradiction

/-- When the callbacks have run one at a time, the keys of `context_` are in a drained state the
names of the connections that are established and not yet closed exactly if no connection that
`onConnection` has found connected has been closed. -/
theorem contextsLive_iff_of_run {maxNum hardware_concurrency : Nat} {cb : Option (HttpCallback U)}
    {user : U} {as : List HttpAction}
    (hrun : Run step OneAtATime (init maxNum hardware_concurrency cb user) as s)
    (hdrained : s.Drained) :
    s.ContextsLive ↔ ∀ c, .connectionCallback c .kConnected ∈ s.tcp.trace →
      .closeCallback c ∉ s.tcp.trace := by
  have h : s.Inv := hrun.invariant (inv_init _ _ _ _) fun _ _ _ => inv_step
  have hclosed (c : Nat) : hops s.tcp.trace .close c = 0 ↔ .closeCallback c ∉ s.tcp.trace := by
    rw [hops, List.count_eq_zero, List.mem_filterMap, not_iff_not]
    constructor
    · rintro ⟨e, he, hhop⟩
      cases e with
      | closeCallback d =>
        obtain rfl : d = c := by simpa [Event.hop?] using hhop
        exact he
      | _ => simp [Event.hop?] at hhop
    · exact fun he => ⟨_, he, rfl⟩
  constructor
  · intro hlive c hmem
    obtain ⟨d, hd, hone, hopen⟩ := (hlive (connName c)).mp ((h.keys _).mpr ⟨c, rfl, hmem⟩)
    obtain rfl := connName_injective hd
    exact (hclosed c).mp hopen
  · intro hnever name
    refine (h.keys name).trans (exists_congr fun c => and_congr_right fun _ => ?_)
    rw [established_iff h hdrained]
    exact ⟨fun hmem => ⟨hmem, (hclosed c).mpr (hnever c hmem)⟩, And.left⟩

/-- All queues that can hold a functor are empty, and no callback is pending or in progress. -/
def isDrained (s : HttpLoops U) : Bool :=
  s.tcp.isDrained && s.inside.isEmpty && (List.range s.tcp.nextConnId).all fun c =>
    (s.tcp.conn c).all fun x => (s.tcp.callback x.ioLoop).isNone

/-- The loops do not depend on what becomes of the contexts. -/
theorem known_of_run {maxNum hardware_concurrency : Nat} {cb : Option (HttpCallback U)} {user : U}
    {guard : HttpLoops U → HttpAction → Prop} {as : List HttpAction}
    (hrun : Run step guard (init maxNum hardware_concurrency cb user) as s) : s.tcp.Known := by
  refine (hrun.invariant (I := fun s : HttpLoops U => s.tcp.Inv) (TcpServer.inv_init _ _) ?_).known
  intro s a t h _ hstep
  cases a with
  | tcp a left =>
    obtain ⟨-, hstep⟩ := Option.ite_none_left_eq_some.mp hstep
    obtain ⟨tcp, htcp, rfl⟩ := Option.map_eq_some_iff.mp hstep
    have hinv := TcpServer.inv_step h (TcpServer.steps_of_step htcp).2
    split <;> exact hinv
  | message c buf left =>
    simp only [step] at hstep
    split at hstep
    · contradiction
    · obtain ⟨-, hstep⟩ := Option.ite_none_right_eq_some.mp hstep
      obtain ⟨-, hstep⟩ := Option.ite_none_left_eq_some.mp hstep
      obtain rfl := Option.some.inj hstep
      exact h
  | ret ioLoop =>
    obtain ⟨-, hstep⟩ := Option.ite_none_right_eq_some.mp hstep
    obtain rfl := Option.some.inj hstep
    exact h

theorem drained_of_isDrained (h : s.tcp.Known) (hdrained : s.isDrained = true) : s.Drained := by
  simp only [isDrained, Bool.and_eq_true, List.all_eq_true, List.mem_range, Option.all_eq_true,
    Option.isNone_iff_eq_none, List.isEmpty_iff] at hdrained
  obtain ⟨⟨hqueues, hinside⟩, hcallback⟩ := hdrained
  refine ⟨TcpServer.drained_of_isDrained h hqueues, fun i => ?_, hinside⟩
  cases hi : s.tcp.callback i with
  | none => rfl
  | some c =>
    obtain ⟨x, hx, rfl⟩ := h.callback i c hi
    have hlt : c < s.tcp.nextConnId := by
      by_contra hge
      rw [h.fresh c (not_lt.mp hge)] at hx
      contradiction
    rw [hcallback c hlt x hx] at hi
    contradiction

/-- Steps of the loops that disturb no callback. -/
def quietly (as : List Action) : List HttpAction := as.map (.tcp · ∅)

/-- Two connections are established, and one of them sends the beginning of a request. -/
def twoConnections : List HttpAction :=
  quietly [.start, .newConnection, .newConnection, .ioFunc 1 false, .connectionCallback 1] ++
    [.ret 1] ++ quietly [.ioFunc 0 false, .connectionCallback 0] ++
    [.ret 0, .message 1 (Buffer.new.append (ascii "GET")) ∅, .ret 0]

theorem contextsLive_iff_of_run_twoConnections :
    ∃ s : HttpLoops Unit, Run step OneAtATime (init 2 0 none ()) twoConnections s ∧ s.Drained ∧
      connName 1 ∈ s.http.context ∧
      (s.ContextsLive ↔ ∀ c, .connectionCallback c .kConnected ∈ s.tcp.trace →
        .closeCallback c ∉ s.tcp.trace) := by
  have hrun : (replay step OneAtATime (init 2 0 none ()) twoConnections).map
      (fun s => (s.isDrained, decide (connName 1 ∈ s.http.context))) = some (true, true) := by
    decide +kernel
  obtain ⟨s, hs, hrun⟩ := Option.map_eq_some_iff.mp hrun
  obtain ⟨hdrained, hkey⟩ := Prod.mk.inj hrun
  have hdrained := drained_of_isDrained (known_of_run (.of_replay hs)) hdrained
  exact ⟨s, .of_replay hs, hdrained, of_decide_eq_true hkey,
    contextsLive_iff_of_run (.of_replay hs) hdrained⟩

/-- A connection is established and closed by its peer. -/
def peerCloses : List HttpAction :=
  quietly [.start, .newConnection, .ioFunc 0 false, .connectionCallback 0] ++ [.ret 0] ++
    quietly [.handleClose 1, .baseFunc, .ioFunc 0 false]

/-- Two connections are established at once, and the key of the second one is lost. -/
def establishedAtOnce : List HttpAction :=
  quietly [.start, .newConnection, .newConnection, .ioFunc 1 false, .connectionCallback 1,
    .ioFunc 0 false] ++
  [.tcp (.connectionCallback 0) ((∅ : Contexts).insert (connName 2) {}), .ret 1, .ret 0]

/-- When all queues have been drained, the context of a closed connection is still there, or the one
of an open connection is not. -/
theorem context_outlives_connection :
    (∃ s : HttpLoops Unit, Run step OneAtATime (init 2 0 none ()) peerCloses s ∧ s.Drained ∧
      ¬s.ContextsLive) ∧
    ∃ s : HttpLoops Unit, Run step anyStep (init 2 0 none ()) establishedAtOnce s ∧ s.Drained ∧
      ¬s.ContextsLive := by
  constructor
  · have hrun : (replay step OneAtATime (init 2 0 none ()) peerCloses).map
        (fun s => (s.isDrained, decide (connName 1 ∈ s.http.context),
          hops s.tcp.trace .close 1)) = some (true, true, 1) := by
      decide +kernel
    obtain ⟨s, hs, hrun⟩ := Option.map_eq_some_iff.mp hrun
    obtain ⟨hdrained, hrun⟩ := Prod.mk.inj hrun
    obtain ⟨hkey, hclosed⟩ := Prod.mk.inj hrun
    have hknown := known_of_run (.of_replay hs)
    refine ⟨s, .of_replay hs, drained_of_isDrained hknown hdrained, fun hlive => ?_⟩
    obtain ⟨c, hname, -, hopen⟩ := (hlive (connName 1)).mp (of_decide_eq_true hkey)
    obtain rfl := connName_injective hname
    rw [hclosed] at hopen
    contradiction
  · have hrun : (replay step anyStep (init 2 0 none ()) establishedAtOnce).map
        (fun s => (s.isDrained, decide (connName 1 ∈ s.http.context),
          hops s.tcp.trace .establish 1, hops s.tcp.trace .close 1)) =
        some (true, false, 1, 0) := by
      decide +kernel
    obtain ⟨s, hs, hrun⟩ := Option.map_eq_some_iff.mp hrun
    simp only [Prod.mk.injEq] at hrun
    obtain ⟨hdrained, hkey, hone, hopen⟩ := hrun
    have hknown := known_of_run (.of_replay hs)
    refine ⟨s, .of_replay hs, drained_of_isDrained hknown hdrained, fun hlive => ?_⟩
    exact absurd ((hlive (connName 1)).mpr ⟨1, rfl, hone, hopen⟩) (of_decide_eq_false hkey)

end HttpLoops

end ClearMoon.Server

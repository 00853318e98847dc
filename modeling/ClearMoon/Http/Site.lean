import ClearMoon.Core.Simulation
import ClearMoon.Http.Answer

/-!
# A server and its connections

One server object serves all connections of an event loop. Their reads come in any order, and all
of them go through the same table of parsers and the same user callback. As long as no read throws,
a connection is still served as if its reads were the only ones, provided that the answers of the
user callback depend on the request alone.

The callbacks run one at a time, as those of one event loop do. Between event loops `context_` has
no lock, and nothing is said here of callbacks that overlap. `TcpConnection` calls the connection
callback when a connection is established and not when it is closed, so `closed` stands for a branch
of `HttpServer::onConnection` that no connection of the library reaches.
-/

namespace ClearMoon.Http

open ClearMoon.Net ClearMoon.Tcp

variable {U : Type}

/-- What a connection does to the server. -/
inductive SiteEvent where
  | opened
  | read (data : Bytes)
  /-- The connection callback finds the connection not connected. -/
  | closed
  deriving DecidableEq

/-- A server, the input buffers of its connections, and what it has done on each of them. -/
structure Site (U : Type) where
  server : HttpServer U
  input : Bytes → Buffer := fun _ => Buffer.new
  effects : Bytes → List Effect := fun _ => []

/-- What a callback answers depends on the request, and not on its state. -/
def Stateless (cb : HttpCallback U) : Prop :=
  ∀ u v name request response,
    (cb u name request response).response = (cb v name request response).response ∧
      (cb u name request response).calls = (cb v name request response).calls

namespace Site

variable {w w' : Site U} {name : Bytes}

/-- A read has been handled. -/
def handle (w : Site U) (name : Bytes) (h : Handled U) : Site U where
  server := h.server
  input := Function.update w.input name h.buf
  effects := Function.update w.effects name (w.effects name ++ h.effects)

/-- What a callback did stands behind what was done before. -/
theorem effects_handle (h : Handled U) :
    (w.handle name h).effects name = w.effects name ++ h.effects :=
  Function.update_self ..

/-- What a callback left in the buffer is what is there. -/
theorem input_handle (h : Handled U) : (w.handle name h).input name = h.buf :=
  Function.update_self ..

/-- The callbacks of a connection, run in the thread of the loop. An exception ends the process. -/
def step (w : Site U) : Bytes × SiteEvent → Option (Site U)
  | (name, .opened) => some { w with
      server := w.server.onConnection name true
      input := Function.update w.input name Buffer.new }
  | (name, .read data) =>
    let h := w.server.onMessage name ((w.input name).readFd data)
    if h.thrown = none then some (w.handle name h) else none
  | (name, .closed) => some { w with server := w.server.onConnection name false }

/-- What has happened on one connection. -/
def heard (name : Bytes) (labels : List (Bytes × SiteEvent)) : List SiteEvent :=
  labels.filterMap fun label => if label.1 = name then some label.2 else none

/-- One more event is heard by its own connection. -/
theorem heard_concat (name : Bytes) (labels : List (Bytes × SiteEvent))
    (label : Bytes × SiteEvent) : heard name (labels ++ [label]) =
      heard name labels ++ if label.1 = name then [label.2] else [] := by
  rw [heard, heard, List.filterMap_append]
  by_cases h : label.1 = name <;> simp [h]

end Site

/-! ## What a read depends on -/

namespace HttpServer

variable {s t : HttpServer U} {name other : Bytes}

/-- The two servers have the same callback, and the parsers of `name` are in the same state. -/
structure Alike (name : Bytes) (s t : HttpServer U) : Prop where
  context : s.context[name]? = t.context[name]?
  cb : s.cb = t.cb

/-- A server treats a connection as itself does. -/
theorem Alike.refl (name : Bytes) (s : HttpServer U) : s.Alike name s := ⟨rfl, rfl⟩

/-- Three servers that treat it alike, one behind the other. -/
theorem Alike.trans {u : HttpServer U} (h : s.Alike name t) (h' : t.Alike name u) :
    s.Alike name u :=
  ⟨h.context.trans h'.context, h.cb.trans h'.cb⟩

/-- No request changes the callback. -/
theorem cb_invoke (name : Bytes) (request : HttpRequest) (response : HttpResponse) :
    (s.invoke name request response).1.cb = s.cb := by
  rw [invoke]
  split <;> rfl

/-- Servers with the same callback give the same answer, if it does not depend on the user. -/
theorem Alike.invoke (h : s.Alike name t) (hcb : ∀ cb ∈ s.cb, Stateless cb) (name : Bytes)
    (request : HttpRequest) (response : HttpResponse) :
    (s.invoke name request response).2 = (t.invoke name request response).2 := by
  rw [HttpServer.invoke, HttpServer.invoke, ← h.cb]
  cases hs : s.cb with
  | none => rfl
  | some cb =>
    obtain ⟨hresponse, hcalls⟩ := hcb cb hs s.user t.user name request response
    dsimp only
    rw [hresponse, hcalls]

/-- A finished request leaves the parser ready for the next one. -/
theorem onMessage_done {context : HttpContext} {buf : Buffer} {p : Parsing}
    (hctx : s.context[name]? = some context)
    (hp : parse ⟨context, buf, {}, initialResponse⟩ = (p, .ok true)) :
    (s.onMessage name buf).buf = p.buf ∧ (s.onMessage name buf).thrown = none ∧
      (s.onMessage name buf).server.context[name]? = some {} ∧
      (s.onMessage name buf).server.cb = s.cb := by
  rw [onMessage, hctx]
  dsimp only
  rw [hp]
  exact ⟨rfl, rfl, Std.ExtTreeMap.getElem?_insert_self, cb_invoke _ _ _⟩

/-- A read is handled in the same way by servers that are alike for its connection. -/
theorem Alike.onMessage (h : s.Alike name t) (hcb : ∀ cb ∈ s.cb, Stateless cb) (buf : Buffer) :
    (s.onMessage name buf).effects = (t.onMessage name buf).effects ∧
      (s.onMessage name buf).buf = (t.onMessage name buf).buf ∧
      (s.onMessage name buf).thrown = (t.onMessage name buf).thrown ∧
      (s.onMessage name buf).server.Alike name (t.onMessage name buf).server := by
  have hstored (c : HttpContext) : Alike name { s with context := s.context.insert name c }
      { t with context := t.context.insert name c } := by
    refine ⟨?_, h.cb⟩
    rw [Std.ExtTreeMap.getElem?_insert_self, Std.ExtTreeMap.getElem?_insert_self]
  cases hctx : s.context[name]? with
  | none =>
    rw [HttpServer.onMessage, HttpServer.onMessage, ← h.context, hctx]
    exact ⟨rfl, rfl, rfl, h⟩
  | some context =>
    have hctx' : t.context[name]? = some context := h.context.symm.trans hctx
    cases hp : parse ⟨context, buf, {}, initialResponse⟩ with
    | mk p result =>
      cases result with
      | error e =>
        rw [onMessage_throw hctx hp, onMessage_throw hctx' hp]
        exact ⟨rfl, rfl, rfl, hstored _⟩
      | ok complete =>
        cases complete with
        | false =>
          rw [onMessage_wait hctx hp, onMessage_wait hctx' hp]
          exact ⟨rfl, rfl, rfl, hstored _⟩
        | true =>
          obtain ⟨hbuf, hthrown, hfresh, hkept⟩ := onMessage_done hctx hp
          obtain ⟨hbuf', hthrown', hfresh', hkept'⟩ := onMessage_done hctx' hp
          refine ⟨?_, hbuf.trans hbuf'.symm, hthrown.trans hthrown'.symm,
            hfresh.trans hfresh'.symm, (hkept.trans h.cb).trans hkept'.symm⟩
          rw [effects_onMessage hctx hp, effects_onMessage hctx' hp, h.invoke hcb]

/-- The installed callback stays, and the parsers of the other connections stay as they are. -/
theorem alike_onMessage (hne : other ≠ name) (buf : Buffer) :
    (s.onMessage other buf).server.Alike name s := by
  have hskip (u : HttpServer U) (c : HttpContext) :
      Alike name { u with context := u.context.insert other c } u := by
    refine ⟨?_, rfl⟩
    rw [Std.ExtTreeMap.getElem?_insert, if_neg fun he => hne (Std.LawfulEqCmp.eq_of_compare he)]
  rw [onMessage]
  split
  · exact .refl name s
  · rename_i context hctx
    cases hp : parse ⟨context, buf, {}, initialResponse⟩ with
    | mk p result =>
      cases result with
      | error e => exact hskip s p.context
      | ok complete =>
        cases complete with
        | false => exact hskip s p.context
        | true =>
          refine (hskip _ _).trans (.trans ⟨?_, ?_⟩ (hskip s p.context))
          · rw [context_invoke]
          · rw [cb_invoke]

/-- No message changes it. -/
theorem cb_onMessage (buf : Buffer) : (s.onMessage name buf).server.cb = s.cb := by
  obtain ⟨other, hother⟩ := exists_ne name
  have halike : (s.onMessage name buf).server.Alike other s := alike_onMessage hother.symm buf
  exact halike.cb

/-- No connection changes it. -/
theorem cb_onConnection (connected : Bool) : (s.onConnection name connected).cb = s.cb := by
  rw [onConnection]
  split <;> rfl

/-- So do they when another connection comes or goes. -/
theorem alike_onConnection (hne : other ≠ name) (connected : Bool) :
    (s.onConnection other connected).Alike name s := by
  refine ⟨?_, cb_onConnection connected⟩
  rw [onConnection]
  split
  · rw [Std.ExtTreeMap.getElem?_insert, if_neg fun he => hne (Std.LawfulEqCmp.eq_of_compare he)]
  · rw [Std.ExtTreeMap.getElem?_erase, if_neg fun he => hne (Std.LawfulEqCmp.eq_of_compare he)]

/-- Reads that come after others are delivered to what those have left, unless one of them has
thrown. -/
theorem deliver_append {buf : Buffer} {reads : List Bytes} (later : List Bytes)
    (h : (s.deliver name buf reads).thrown = none) :
    s.deliver name buf (reads ++ later) =
      { (s.deliver name buf reads).server.deliver name (s.deliver name buf reads).buf later with
        effects := (s.deliver name buf reads).effects ++
          ((s.deliver name buf reads).server.deliver name
            (s.deliver name buf reads).buf later).effects } := by
  induction reads generalizing s buf with
  | nil => rfl
  | cons data reads ih =>
    rw [List.cons_append]
    cases hthrown : (s.onMessage name (buf.readFd data)).thrown with
    | some e =>
      rw [deliver] at h
      simp [hthrown] at h
    | none =>
      have hfirst (ds : List Bytes) : s.deliver name buf (data :: ds) =
          { (s.onMessage name (buf.readFd data)).server.deliver name
              (s.onMessage name (buf.readFd data)).buf ds with
            effects := (s.onMessage name (buf.readFd data)).effects ++
              ((s.onMessage name (buf.readFd data)).server.deliver name
                (s.onMessage name (buf.readFd data)).buf ds).effects } := by
        rw [deliver]
        simp only [hthrown]
      rw [hfirst] at h ⊢
      rw [hfirst, ih h]
      simp only [List.append_assoc]

/-- One read is one call of `onMessage`. -/
theorem deliver_singleton {buf : Buffer} {data : Bytes}
    (h : (s.onMessage name (buf.readFd data)).thrown = none) :
    s.deliver name buf [data] = s.onMessage name (buf.readFd data) := by
  rw [deliver]
  simp only [h, deliver, List.append_nil]
  rw [← h]

end HttpServer

/-! ## A connection among others -/

namespace Site

variable {s : HttpServer U} {w w' : Site U} {name : Bytes} {labels : List (Bytes × SiteEvent)}

/-- A connection is opened once, read from, and closed in the end if `gone`. -/
def visit (reads : List Bytes) (gone : Bool) : List SiteEvent :=
  .opened :: (reads.map .read ++ if gone then [.closed] else [])

/-- The last event of a visit. -/
theorem visit_cases {history : List SiteEvent} {e : SiteEvent} {reads : List Bytes} {gone : Bool}
    (h : history ++ [e] = visit reads gone) :
    (e = .opened ∧ history = [] ∧ reads = [] ∧ gone = false) ∨
      (∃ before data, e = .read data ∧ history = visit before false ∧
        reads = before ++ [data] ∧ gone = false) ∨
      (e = .closed ∧ history = visit reads false ∧ gone = true) := by
  cases gone with
  | true =>
    have hlast : visit reads true = visit reads false ++ [.closed] := by simp [visit]
    obtain ⟨hhistory, he⟩ := List.append_inj' (h.trans hlast) rfl
    exact .inr (.inr ⟨List.singleton_inj.mp he, hhistory, rfl⟩)
  | false =>
    cases reads using List.reverseRecOn with
    | nil =>
      have hlast : visit [] false = [] ++ [.opened] := rfl
      obtain ⟨hhistory, he⟩ := List.append_inj' (h.trans hlast) rfl
      exact .inl ⟨List.singleton_inj.mp he, hhistory, rfl, rfl⟩
    | append_singleton before data =>
      have hlast : visit (before ++ [data]) false = visit before false ++ [.read data] := by
        simp [visit]
      obtain ⟨hhistory, he⟩ := List.append_inj' (h.trans hlast) rfl
      exact .inr (.inl ⟨before, data, List.singleton_inj.mp he, hhistory, rfl, rfl⟩)

/-- The server on which nothing but the visit of `name` takes place. -/
def alone (s : HttpServer U) (name : Bytes) (reads : List Bytes) : Handled U :=
  (s.onConnection name true).deliver name Buffer.new reads

/-- The connection is where it would be if its events were the only ones. -/
structure Follows (s : HttpServer U) (name : Bytes) (history : List SiteEvent) (w : Site U) :
    Prop where
  cb : w.server.cb = s.cb
  before : history = [] → w.effects name = []
  during : ∀ reads, history = visit reads false → (alone s name reads).thrown = none ∧
    w.effects name = (alone s name reads).effects ∧ w.input name = (alone s name reads).buf ∧
    w.server.Alike name (alone s name reads).server
  after : ∀ reads, history = visit reads true → w.effects name = (alone s name reads).effects

/-- What another connection does changes nothing of it. -/
theorem Follows.of_alike {history : List SiteEvent} (h : Follows s name history w)
    (heffects : w'.effects name = w.effects name) (hinput : w'.input name = w.input name)
    (hserver : w'.server.Alike name w.server) : Follows s name history w' where
  cb := hserver.cb.trans h.cb
  before hh := heffects.trans (h.before hh)
  during reads hh := by
    obtain ⟨hthrown, he, hi, hs⟩ := h.during reads hh
    exact ⟨hthrown, heffects.trans he, hinput.trans hi, hserver.trans hs⟩
  after reads hh := heffects.trans (h.after reads hh)

/-- An event of the connection itself takes it one step further. -/
theorem Follows.step {history : List SiteEvent} {e : SiteEvent} (hcb : ∀ cb ∈ s.cb, Stateless cb)
    (h : Follows s name history w) (hstep : w.step (name, e) = some w') :
    Follows s name (history ++ [e]) w' := by
  cases e with
  | opened =>
    obtain rfl := Option.some.inj hstep
    refine ⟨(HttpServer.cb_onConnection true).trans h.cb, by simp, fun reads hh => ?_,
      fun reads hh => ?_⟩
    · obtain ⟨-, hempty, rfl, -⟩ | ⟨_, _, he, -⟩ | ⟨he, -⟩ := visit_cases hh
      · refine ⟨rfl, h.before hempty, Function.update_self .., ?_, ?_⟩
        · simp only [alone, HttpServer.deliver, HttpServer.onConnection, if_true,
            Std.ExtTreeMap.getElem?_insert_self]
        · rw [alone, HttpServer.deliver]
          exact (HttpServer.cb_onConnection true).trans
            (h.cb.trans (HttpServer.cb_onConnection true).symm)
      · contradiction
      · contradiction
    · obtain ⟨-, -, -, hgone⟩ | ⟨_, _, he, -⟩ | ⟨he, -⟩ := visit_cases hh <;> contradiction
  | read data =>
    rw [Site.step] at hstep
    split at hstep
    · rename_i hthrown
      obtain rfl := Option.some.inj hstep
      refine ⟨(HttpServer.cb_onMessage _).trans h.cb, by simp, fun reads hh => ?_,
        fun reads hh => ?_⟩
      · obtain ⟨he, -⟩ | ⟨before, data', he, hbefore, rfl, -⟩ | ⟨he, -⟩ := visit_cases hh
        · contradiction
        · obtain rfl := SiteEvent.read.inj he
          obtain ⟨hlive, heffects, hinput, hserver⟩ := h.during before hbefore
          have hcb' : ∀ cb ∈ w.server.cb, Stateless cb := by
            rw [h.cb]
            exact hcb
          obtain ⟨hsame, hbuf, hthrown', hserver'⟩ :=
            hserver.onMessage hcb' ((w.input name).readFd data)
          rw [hthrown, hinput] at hthrown'
          have hlast : alone s name (before ++ [data]) =
              { (alone s name before).server.deliver name (alone s name before).buf [data] with
                effects := (alone s name before).effects ++
                  ((alone s name before).server.deliver name
                    (alone s name before).buf [data]).effects } :=
            HttpServer.deliver_append [data] hlive
          rw [HttpServer.deliver_singleton hthrown'.symm] at hlast
          rw [hinput] at hsame hbuf hserver'
          rw [hlast]
          refine ⟨hthrown'.symm, ?_, ?_, ?_⟩
          · rw [effects_handle, heffects, hinput, hsame]
          · rw [input_handle, hinput, hbuf]
          · rw [handle, hinput]
            exact hserver'
        · contradiction
      · obtain ⟨he, -⟩ | ⟨_, _, -, -, -, hgone⟩ | ⟨he, -⟩ := visit_cases hh <;> contradiction
    · contradiction
  | closed =>
    obtain rfl := Option.some.inj hstep
    refine ⟨(HttpServer.cb_onConnection false).trans h.cb, by simp, fun reads hh => ?_,
      fun reads hh => ?_⟩
    · obtain ⟨he, -⟩ | ⟨_, _, he, -⟩ | ⟨-, -, hgone⟩ := visit_cases hh <;> contradiction
    · obtain ⟨he, -⟩ | ⟨_, _, he, -⟩ | ⟨-, hbefore, -⟩ := visit_cases hh
      · contradiction
      · contradiction
      · exact (h.during reads hbefore).2.1

/-- In every run a connection is treated as if it were alone. -/
theorem follows_of_run (hcb : ∀ cb ∈ s.cb, Stateless cb)
    (hrun : Run step anyStep { server := s } labels w) (name : Bytes) :
    Follows s name (heard name labels) w := by
  induction hrun with
  | nil => exact ⟨rfl, fun _ => rfl, fun _ h => by simp [heard, visit] at h,
      fun _ h => by simp [heard, visit] at h⟩
  | @snoc labels w label w' _ _ hs ih =>
    obtain ⟨other, e⟩ := label
    rw [heard_concat]
    by_cases hname : other = name
    · subst hname
      rw [if_pos rfl]
      exact ih.step hcb hs
    · rw [if_neg hname, List.append_nil]
      have hne : name ≠ other := fun h => hname h.symm
      cases e with
      | opened =>
        obtain rfl := Option.some.inj hs
        exact ih.of_alike rfl (Function.update_of_ne hne ..)
          (HttpServer.alike_onConnection hname true)
      | read data =>
        rw [Site.step] at hs
        split at hs
        · obtain rfl := Option.some.inj hs
          exact ih.of_alike (Function.update_of_ne hne ..) (Function.update_of_ne hne ..)
            (HttpServer.alike_onMessage hname _)
        · contradiction
      | closed =>
        obtain rfl := Option.some.inj hs
        exact ih.of_alike rfl rfl (HttpServer.alike_onConnection hname false)

/-- The whole visit has the effects it would have alone. -/
theorem Follows.effects_eq {reads : List Bytes} {gone : Bool}
    (h : Follows s name (visit reads gone) w) : w.effects name = (alone s name reads).effects := by
  cases gone with
  | false => exact (h.during reads rfl).2.1
  | true => exact h.after reads rfl

/-- What a connection does gets the same answers as if it were the only one, whatever the others
do in between. -/
theorem isolated_of_run (hcb : ∀ cb ∈ s.cb, Stateless cb)
    (hrun : Run step anyStep { server := s } labels w) {reads : List Bytes} {gone : Bool}
    (hvisit : heard name labels = visit reads gone) :
    w.effects name = ((s.onConnection name true).deliver name Buffer.new reads).effects := by
  have h := follows_of_run hcb hrun name
  rw [hvisit] at h
  exact h.effects_eq

/-- A server whose callback answers 200 to everything. -/
def sampleSite : HttpServer Unit where
  cb := some fun u _ _ response => ⟨u, response.setStatus .k200Ok, []⟩
  user := ()

/-- Two clients: the request of the first one arrives in two reads, around that of the other. -/
def twoClients : List (Bytes × SiteEvent) :=
  [(ascii "a", .opened), (ascii "b", .opened), (ascii "a", .read (ascii "GE")),
    (ascii "b", .read sampleGet.serialize), (ascii "b", .closed),
    (ascii "a", .read (ascii "T / HTTP/1.1\r\n\r\n"))]

/-- Two clients in turns, each with its own request. -/
theorem isolated_of_run_twoClients :
    ∃ w, Run step anyStep { server := sampleSite } twoClients w ∧
      w.effects (ascii "a") = ((sampleSite.onConnection (ascii "a") true).deliver (ascii "a")
        Buffer.new [ascii "GE", ascii "T / HTTP/1.1\r\n\r\n"]).effects := by
  have hsome : (replay step anyStep { server := sampleSite } twoClients).isSome := by
    decide +kernel
  obtain ⟨w, hw⟩ := Option.isSome_iff_exists.mp hsome
  have hcb : ∀ cb ∈ sampleSite.cb, Stateless cb := by
    intro cb h
    obtain rfl := Option.some.inj h
    exact fun _ _ _ _ _ => ⟨rfl, rfl⟩
  have hvisit : heard (ascii "a") twoClients =
      visit [ascii "GE", ascii "T / HTTP/1.1\r\n\r\n"] false := by decide +kernel
  exact ⟨w, .of_replay hw, isolated_of_run hcb (.of_replay hw) hvisit⟩

end Site

end ClearMoon.Http

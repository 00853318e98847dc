import ClearMoon.Http.RoundTrip
import ClearMoon.Tcp.Connection

/-!
# The HTTP server

`HttpServer::onMessage` runs one call of `parse` for every read event, with a request object of
its own. Two things follow. A request line that is complete in one read and a rest that arrives in
a later one are stored in different request objects, so the user sees the whole request only if
the request line is completed by the last read. And of several requests in one read only the first
is answered; the others stay in the buffer.
-/

namespace ClearMoon.Http

open ClearMoon.Net ClearMoon.Tcp

variable {U : Type}

/-- What the user callback leaves behind: its own state, the response, and its calls on the
connection. -/
structure CallbackResult (U : Type) where
  user : U
  response : HttpResponse
  calls : List ConnCall

/-- `HttpServer::HttpCallback`, for a connection given by its name. -/
abbrev HttpCallback (U : Type) := U → Bytes → HttpRequest → HttpResponse → CallbackResult U

/-- `net/Http/HttpServer.h`, with the state of the user callback. -/
structure HttpServer (U : Type) where
  context : Std.ExtTreeMap Bytes HttpContext := ∅
  cb : Option (HttpCallback U) := none
  user : U

/-- What the server does that can be seen from outside. -/
inductive Effect where
  /-- The user callback is invoked with this request. -/
  | callback (request : HttpRequest)
  /-- A call on the connection. -/
  | call (c : ConnCall)
  deriving DecidableEq

/-- What a message event leaves behind. -/
structure Handled (U : Type) where
  server : HttpServer U
  buf : Buffer
  effects : List Effect
  /-- The exception that left the handler, if one did. -/
  thrown : Option StoulError

/-- The requests the user callback was invoked with. -/
def invocations (effects : List Effect) : List HttpRequest :=
  effects.filterMap fun
    | .callback request => some request
    | .call _ => none

namespace HttpServer

/-- `HttpServer::onConnection`. -/
def onConnection (s : HttpServer U) (name : Bytes) (connected : Bool) : HttpServer U :=
  if connected then { s with context := s.context.insert name {} }
  else { s with context := s.context.erase name }

/-- The response handed to the parser: keep-alive by default. -/
def initialResponse : HttpResponse :=
  HttpResponse.setHeader {} (ascii "Connection") (ascii "keep-alive")

/-- The user callback, if there is one. -/
def invoke (s : HttpServer U) (name : Bytes) (request : HttpRequest) (response : HttpResponse) :
    HttpServer U × HttpResponse × List Effect :=
  match s.cb with
  | none => (s, response, [])
  | some cb =>
    let result := cb s.user name request response
    ({ s with user := result.user }, result.response,
      .callback request :: result.calls.map .call)

/-- Sending a response: the headers and a file, or everything in one buffer. -/
def respond (response : HttpResponse) : List ConnCall :=
  if response.fileMode then
    [.send (response.serializeHeaders Buffer.new).readable, .sendFile response.filePath]
  else [.send (response.appendToBuffer Buffer.new).2.readable]

/-- `HttpServer::onMessage`. -/
def onMessage (s : HttpServer U) (name : Bytes) (buf : Buffer) : Handled U :=
  match s.context[name]? with
  | none => ⟨s, buf, [.call .forceClose], none⟩
  | some context =>
    let (p, result) := parse ⟨context, buf, {}, initialResponse⟩
    let s := { s with context := s.context.insert name p.context }
    match result with
    | .error e => ⟨s, p.buf, [], some e⟩
    | .ok false => ⟨s, p.buf, [], none⟩
    | .ok true =>
      let (s, response, effects) := s.invoke name p.request p.response
      let s := { s with context := s.context.insert name p.context.reset }
      let close := if response.closeConnection then [.forceClose] else []
      ⟨s, p.buf, effects ++ (respond response ++ close).map .call, none⟩

/-- A sequence of reads: each appends its bytes to the buffer of the connection and calls
`onMessage` once. An exception ends the process, and with it the sequence. -/
def deliver (s : HttpServer U) (name : Bytes) (buf : Buffer) : List Bytes → Handled U
  | [] => ⟨s, buf, [], none⟩
  | data :: reads =>
    let first := s.onMessage name (buf.readFd data)
    match first.thrown with
    | some _ => first
    | none =>
      let later := deliver first.server name first.buf reads
      { later with effects := first.effects ++ later.effects }

end HttpServer

/-- The invocations are read off the effects piece by piece. -/
theorem invocations_append (es fs : List Effect) :
    invocations (es ++ fs) = invocations es ++ invocations fs := List.filterMap_append

/-- A call of the connection is no invocation. -/
@[simp] theorem invocations_calls (cs : List ConnCall) :
    invocations (cs.map .call) = [] := by
  simp [invocations]

/-! ## One message event -/

namespace HttpServer

variable {s : HttpServer U} {name : Bytes} {context : HttpContext} {buf : Buffer} {p : Parsing}

/-- The user callback has no access to the parsers. -/
theorem context_invoke (request : HttpRequest) (response : HttpResponse) :
    (s.invoke name request response).1.context = s.context := by
  rw [invoke]
  split <;> rfl

/-- A call that wants more input invokes nothing and keeps the parser's state. -/
theorem onMessage_wait (hctx : s.context[name]? = some context)
    (hp : parse ⟨context, buf, {}, initialResponse⟩ = (p, .ok false)) :
    s.onMessage name buf =
      ⟨{ s with context := s.context.insert name p.context }, p.buf, [], none⟩ := by
  rw [onMessage, hctx]
  dsimp only
  rw [hp]

/-- An exception invokes nothing. -/
theorem onMessage_throw {e : StoulError} (hctx : s.context[name]? = some context)
    (hp : parse ⟨context, buf, {}, initialResponse⟩ = (p, .error e)) :
    s.onMessage name buf =
      ⟨{ s with context := s.context.insert name p.context }, p.buf, [], some e⟩ := by
  rw [onMessage, hctx]
  dsimp only
  rw [hp]

/-- An installed callback is invoked once, with the request as it stands. -/
theorem invoke_callback {cb : HttpCallback U} (hcb : s.cb = some cb) (name : Bytes)
    (request : HttpRequest) (response : HttpResponse) :
    invocations (s.invoke name request response).2.2 = [request] ∧
      (s.invoke name request response).1.cb = some cb := by
  simp only [invoke, hcb, and_true]
  rw [← List.singleton_append, invocations_append, invocations_calls]
  rfl

/-- A finished request is handed to the user once, and the parser is reset. -/
theorem onMessage_answer {cb : HttpCallback U} (hcb : s.cb = some cb)
    (hctx : s.context[name]? = some context)
    (hp : parse ⟨context, buf, {}, initialResponse⟩ = (p, .ok true)) :
    invocations (s.onMessage name buf).effects = [p.request] ∧
      (s.onMessage name buf).thrown = none ∧ (s.onMessage name buf).buf = p.buf ∧
      (s.onMessage name buf).server.cb = some cb ∧
      (s.onMessage name buf).server.context[name]? = some {} := by
  obtain ⟨hinv, hcb'⟩ := invoke_callback
    (s := { s with context := s.context.insert name p.context }) hcb name p.request p.response
  rw [onMessage, hctx]
  dsimp only
  rw [hp]
  refine ⟨?_, rfl, rfl, hcb', Std.ExtTreeMap.getElem?_insert_self⟩
  rw [invocations_append, invocations_calls, List.append_nil]
  exact hinv

end HttpServer

/-! ## The state of an interrupted request -/

/-- No turn returns to the request line, and none behind it stores a method. -/
theorem parseTurn_pastLine {p q : Parsing} (hs : p.context.state ≠ .kExpectRequestLine)
    (h : parseTurn p = .again q) :
    q.context.state ≠ .kExpectRequestLine ∧ q.request.method = p.request.method := by
  rcases parseTurn_again_cases h with ⟨hs', -⟩ | ⟨-, buf, -, rfl⟩ | ⟨hs', line, buf, -, -, rfl⟩ |
    ⟨-, -, rfl⟩ | ⟨-, -, len, -, -, rfl⟩
  · exact absurd hs' hs
  · refine ⟨?_, rfl⟩
    dsimp only [stateAfterHeaders]
    split <;> decide
  · refine ⟨hs, ?_⟩
    dsimp only [storeHeaderLine]
    split <;> rfl
  · exact ⟨HttpRequestParseState.noConfusion, rfl⟩
  · exact ⟨HttpRequestParseState.noConfusion, rfl⟩

/-- Behind the request line a call stays behind it, and leaves the method as it is. -/
theorem parse_pastLine {p : Parsing} (hs : p.context.state ≠ .kExpectRequestLine) :
    (parse p).1.context.state ≠ .kExpectRequestLine ∧
      (parse p).1.request.method = p.request.method := by
  refine parseLoop.run_invariant
    (I := fun q => q.context.state ≠ .kExpectRequestLine ∧ q.request.method = p.request.method)
    ?_ ?_ ?_ ⟨hs, rfl⟩
  · intro q q' ⟨hq, hm⟩ hb
    obtain ⟨hq', hm'⟩ := parseTurn_pastLine hq hb
    exact ⟨hq', hm'.trans hm⟩
  · intro q q' r ⟨hq, hm⟩ hb
    rcases parseTurn_leave_cases hb with ⟨hs', -⟩ | ⟨-, rfl, -⟩ | ⟨-, rfl, -⟩
    · exact absurd hs' hq
    · exact ⟨hq, hm⟩
    · exact ⟨hq, hm⟩
  · intro q q' ⟨hq, hm⟩ hb
    rw [(parseTurn_starve hb).1]
    exact ⟨hq, hm⟩

/-- Whatever is read from there on, the first request the user sees has no method. -/
theorem HttpServer.deliver_pastLine {s : HttpServer U} {name : Bytes} {context : HttpContext}
    {cb : HttpCallback U} (hcb : s.cb = some cb) (hctx : s.context[name]? = some context)
    (hs : context.state ≠ .kExpectRequestLine) (buf : Buffer) (reads : List Bytes) :
    ∀ q ∈ (invocations (s.deliver name buf reads).effects).head?, q.method = .kInvalid := by
  induction reads generalizing s context buf with
  | nil => exact fun q hq => absurd hq (by simp [deliver, invocations])
  | cons data reads ih =>
    rw [deliver]
    dsimp only
    obtain ⟨hstate, hmethod⟩ :=
      parse_pastLine (p := ⟨context, buf.readFd data, {}, initialResponse⟩) hs
    cases hp : parse ⟨context, buf.readFd data, {}, initialResponse⟩ with
    | mk p result =>
      rw [hp] at hstate hmethod
      match result with
      | .error e =>
        rw [onMessage_throw hctx hp]
        exact fun q hq => absurd hq (by simp [invocations])
      | .ok false =>
        rw [onMessage_wait hctx hp]
        dsimp only
        rw [List.nil_append]
        exact ih (s := { s with context := s.context.insert name p.context }) hcb
          Std.ExtTreeMap.getElem?_insert_self hstate p.buf
      | .ok true =>
        obtain ⟨hinv, hthrown, -⟩ := onMessage_answer hcb hctx hp
        rw [hthrown]
        dsimp only
        rw [invocations_append, hinv]
        intro q hq
        obtain rfl : p.request = q := by simpa using hq
        exact hmethod

/-! ## A request in pieces -/

namespace WireRequest

/-- No request is empty. -/
theorem serialize_ne_nil (r : WireRequest) : r.serialize ≠ [] := by
  simp [serialize, kCRLF]

/-- Bytes that do not complete the request line change nothing. -/
theorem parse_beforeLine (r : WireRequest) {buf : Buffer} {got : Bytes} (hbuf : buf.readable = got)
    (hpre : got <+: r.serialize) (hlen : got.length < r.requestLine.length + 2)
    (response : HttpResponse) :
    parse ⟨{}, buf, {}, response⟩ = (⟨{}, buf, {}, response⟩, .ok false) := by
  have hnone : takeLine buf = none := by
    rw [takeLine, Buffer.findCRLF, hbuf, Option.map_eq_none_iff]
    exact search_none_of_prefix r.notMem_requestLine hpre hlen
  have hturn : parseLoop.body ⟨{}, buf, {}, response⟩ = .starve ⟨{}, buf, {}, response⟩ := by
    simp only [parseLoop, parseTurn, hnone]
  rw [parse, parseLoop.run_starve hturn]
  rfl

/-- A proper prefix that holds the request line leaves the parser behind it, waiting. -/
theorem parse_behindLine (r : WireRequest) {buf : Buffer} {got more : Bytes}
    (hbuf : buf.readable = got) (hsplit : got ++ more = r.serialize) (hmore : more ≠ [])
    (hlen : r.requestLine.length + 2 ≤ got.length) (response : HttpResponse) :
    ∃ p, parse ⟨{}, buf, {}, response⟩ = (p, .ok false) ∧
      p.context.state ≠ .kExpectRequestLine := by
  refine ⟨(parse ⟨{}, buf, {}, response⟩).1, Prod.ext rfl ?_, ?_⟩
  · -- ending here would leave `more` behind the whole request, which leaves nothing
    by_contra hend
    obtain ⟨buf', hwhole, hrest⟩ := r.parse_serialize
      (show (buf.append more).readable = r.serialize ++ [] by
        rw [Buffer.readable_append, hbuf, hsplit, List.append_nil]) response
    have hview := (parse_extend (q := ⟨{}, buf.append more, {}, response⟩) hend
      (Parsing.view_receive ⟨{}, buf, {}, response⟩ more)).2
    rw [hwhole] at hview
    have hinput : buf'.readable = _ ++ more := congrArg View.input hview
    rw [hrest] at hinput
    exact hmore (List.append_eq_nil_iff.mp hinput.symm).2
  · have hline : r.requestLine ++ kCRLF <+: got := by
      apply List.prefix_of_prefix_length_le _ (List.prefix_append got more)
      · simp only [List.length_append, kCRLF, List.length_cons, List.length_nil]
        omega
      · rw [hsplit, serialize]
        exact List.prefix_append _ _
    obtain ⟨rest, hrest⟩ := hline
    obtain ⟨buf', hrun, -⟩ := run_requestLine (p := ⟨{}, buf, {}, response⟩) (t := rest) rfl
      r.notMem_requestLine (by rw [hbuf, hrest])
      (parseRequestLine_wellFormed r.method_ok r.url_ne r.version_ok {})
    rw [parse, hrun]
    exact (parse_pastLine (p := ⟨⟨.kExpectHeaders⟩, buf', _, response⟩)
      HttpRequestParseState.noConfusion).1

end WireRequest

/-- Reading on from a part of the request line, the user sees the request if and only if the last
read is the one that completes the request line. -/
theorem HttpServer.deliver_iff (r : WireRequest) {s : HttpServer U} {name : Bytes} {buf : Buffer}
    {cb : HttpCallback U} {got : Bytes} {reads : List Bytes} (hcb : s.cb = some cb)
    (hctx : s.context[name]? = some {}) (hbuf : buf.readable = got)
    (hgot : got.length < r.requestLine.length + 2) (hne : ∀ data ∈ reads, data ≠ [])
    (hreads : reads ≠ []) (hwhole : got ++ reads.flatten = r.serialize) :
    invocations (s.deliver name buf reads).effects = [r.toRequest] ↔
      got.length + reads.dropLast.flatten.length < r.requestLine.length + 2 := by
  induction reads generalizing s buf got with
  | nil => exact absurd rfl hreads
  | cons data reads ih =>
    have hread : (buf.readFd data).readable = got ++ data := by rw [Buffer.readable_readFd, hbuf]
    rw [List.flatten_cons, ← List.append_assoc] at hwhole
    rw [deliver]
    dsimp only
    cases reads with
    | nil =>
      -- the last read completes the request
      obtain ⟨buf', hp, -⟩ := r.parse_serialize
        (show (buf.readFd data).readable = r.serialize ++ [] by rw [hread, ← hwhole]; simp)
        initialResponse
      obtain ⟨hinv, hthrown, -⟩ := onMessage_answer hcb hctx hp
      rw [hthrown]
      dsimp only [deliver]
      rw [List.append_nil, hinv]
      simpa using hgot
    | cons data' reads =>
      have hdrop : (data :: data' :: reads).dropLast.flatten =
          data ++ (data' :: reads).dropLast.flatten := rfl
      have hmore : (data' :: reads).flatten ≠ [] := by
        rw [List.flatten_cons]
        intro h
        exact hne data' (by simp) (List.append_eq_nil_iff.mp h).1
      rw [hdrop, List.length_append]
      by_cases hline : (got ++ data).length < r.requestLine.length + 2
      · -- the request line is still incomplete: nothing happens in this read
        have hp := r.parse_beforeLine hread ⟨_, hwhole⟩ hline initialResponse
        rw [onMessage_wait hctx hp]
        dsimp only
        rw [List.nil_append, ih (s := { s with context := s.context.insert name {} })
          hcb Std.ExtTreeMap.getElem?_insert_self hread hline
          (fun d hd => hne d (List.mem_cons_of_mem _ hd)) (by simp) hwhole, List.length_append]
        omega
      · -- this read completes the request line: its method is lost to every later call
        obtain ⟨p, hp, hstate⟩ := r.parse_behindLine hread hwhole hmore (by omega) initialResponse
        rw [onMessage_wait hctx hp]
        dsimp only
        rw [List.nil_append]
        have hlost := deliver_pastLine (s := { s with context := s.context.insert name p.context })
          hcb Std.ExtTreeMap.getElem?_insert_self hstate p.buf (data' :: reads)
        rw [List.length_append] at hline
        refine iff_of_false (fun h => ?_) (by omega)
        rw [h] at hlost
        have hmethod : r.toRequest.method = r.method := by
          change (storeUrl r.url (HttpRequest.setMethod {} r.method)).method = r.method
          exact (storeUrl_frame r.url _).1
        exact r.method_ok (hmethod.symm.trans (hlost _ rfl))

/-- Exactly when cutting a request into reads makes no difference to the user: when the reads
before the last one together do not complete the request line. -/
theorem HttpServer.fragmentation_iff (r : WireRequest) {s : HttpServer U} {name : Bytes}
    {buf : Buffer} {cb : HttpCallback U} {reads : List Bytes} (hcb : s.cb = some cb)
    (hctx : s.context[name]? = some {}) (hbuf : buf.readable = [])
    (hne : ∀ data ∈ reads, data ≠ []) (hwhole : reads.flatten = r.serialize) :
    (∃ q, invocations (s.deliver name buf reads).effects = [q] ∧
        invocations (s.deliver name buf [r.serialize]).effects = [q]) ↔
      reads.dropLast.flatten.length < r.requestLine.length + 2 := by
  have hreads : reads ≠ [] := by
    rintro rfl
    exact r.serialize_ne_nil hwhole.symm
  have hsingle : invocations (s.deliver name buf [r.serialize]).effects = [r.toRequest] :=
    (deliver_iff r hcb hctx hbuf (by simp) (by simpa using r.serialize_ne_nil) (by simp)
      (by simp)).mpr (by simp)
  have hcut := deliver_iff r hcb hctx hbuf (by simp) hne hreads (by simpa using hwhole)
  rw [List.length_nil, Nat.zero_add] at hcut
  rw [← hcut, hsingle]
  constructor
  · rintro ⟨q, hq, hq'⟩
    rw [hq, hq']
  · intro h
    exact ⟨_, h, rfl⟩

/-- `GET / HTTP/1.1` without headers. -/
def sampleGet : WireRequest where
  method := .kGet
  url := ascii "/"
  version := .kHttp11
  fields := []
  body := []
  method_ok := by decide
  url_ne := by decide
  url_ok := by decide +kernel
  version_ok := by decide
  framed := .inr ⟨nofun, rfl⟩

/-- A server with one connection, whose callback answers 200 to everything. -/
def sampleServer : HttpServer Unit :=
  HttpServer.onConnection
    { cb := some fun u _ _ response => ⟨u, response.setStatus .k200Ok, []⟩, user := () }
    (ascii "c") true

/-- A cut inside the request line does no harm. -/
theorem fragmentation_iff_sampleGet :
    (∃ q, invocations (sampleServer.deliver (ascii "c") Buffer.new
          [ascii "GE", ascii "T / HTTP/1.1\r\n\r\n"]).effects = [q] ∧
        invocations (sampleServer.deliver (ascii "c") Buffer.new [sampleGet.serialize]).effects =
          [q]) ↔
      [ascii "GE", ascii "T / HTTP/1.1\r\n\r\n"].dropLast.flatten.length <
        sampleGet.requestLine.length + 2 :=
  HttpServer.fragmentation_iff sampleGet rfl (by decide +kernel) (by decide) (by decide +kernel)
    (by decide +kernel)

/-- A cut behind the request line: the user sees a request without a method. -/
theorem fragmentation_behind_requestLine :
    [ascii "GET / HTTP/1.1\r\n", ascii "\r\n"].flatten = sampleGet.serialize ∧
      ¬∃ q, invocations (sampleServer.deliver (ascii "c") Buffer.new
            [ascii "GET / HTTP/1.1\r\n", ascii "\r\n"]).effects = [q] ∧
          invocations (sampleServer.deliver (ascii "c") Buffer.new [sampleGet.serialize]).effects =
            [q] := by
  have hcut : (invocations (sampleServer.deliver (ascii "c") Buffer.new
      [ascii "GET / HTTP/1.1\r\n", ascii "\r\n"]).effects).map (·.method) = [.kInvalid] := by
    decide +kernel
  have hsingle : (invocations (sampleServer.deliver (ascii "c") Buffer.new
      [sampleGet.serialize]).effects).map (·.method) = [.kGet] := by
    decide +kernel
  refine ⟨by decide +kernel, ?_⟩
  rintro ⟨q, hq, hq'⟩
  rw [hq] at hcut
  rw [hq'] at hsingle
  rw [hcut] at hsingle
  contradiction

/-! ## Several requests in one read -/

/-- All requests in the buffer are handed to the user, in order, and unless the connection is
closed the buffer is left without a complete request in front. -/
def AnswersAll (h : Handled U) (rs : List WireRequest) : Prop :=
  invocations h.effects = rs.map WireRequest.toRequest ∧
    (Effect.call .forceClose ∉ h.effects →
      ∀ (r : WireRequest) t, h.buf.readable ≠ r.serialize ++ t)

/-- One message event answers the first request in the buffer and leaves the others. -/
theorem HttpServer.onMessage_first (r : WireRequest) {s : HttpServer U} {name : Bytes}
    {buf : Buffer} {cb : HttpCallback U} {t : Bytes} (hcb : s.cb = some cb)
    (hctx : s.context[name]? = some {}) (hbuf : buf.readable = r.serialize ++ t) :
    invocations (s.onMessage name buf).effects = [r.toRequest] ∧
      (s.onMessage name buf).buf.readable = t := by
  obtain ⟨buf', hp, hrest⟩ := r.parse_serialize hbuf initialResponse
  obtain ⟨hinv, -, hbuf', -⟩ := onMessage_answer hcb hctx hp
  exact ⟨hinv, by rw [hbuf', hrest]⟩

/-- Exactly when all requests of a read are answered: when there is at most one. -/
theorem HttpServer.pipelining_iff (rs : List WireRequest) {s : HttpServer U} {name : Bytes}
    {buf : Buffer} {cb : HttpCallback U} (hcb : s.cb = some cb)
    (hctx : s.context[name]? = some {})
    (hbuf : buf.readable = rs.flatMap WireRequest.serialize) :
    AnswersAll (s.onMessage name buf) rs ↔ rs.length ≤ 1 := by
  have hempty (r : WireRequest) (t : Bytes) : [] ≠ r.serialize ++ t :=
    fun h => r.serialize_ne_nil (List.append_eq_nil_iff.mp h.symm).1
  cases rs with
  | nil =>
    refine iff_of_true ?_ (by simp)
    have hnone : takeLine buf = none := by
      rw [takeLine, Buffer.findCRLF, hbuf]
      rfl
    have hturn : parseLoop.body ⟨{}, buf, {}, initialResponse⟩ =
        .starve ⟨{}, buf, {}, initialResponse⟩ := by
      simp only [parseLoop, parseTurn, hnone]
    have hp : parse ⟨{}, buf, {}, initialResponse⟩ =
        (⟨{}, buf, {}, initialResponse⟩, .ok false) := by
      rw [parse, parseLoop.run_starve hturn]
      rfl
    rw [AnswersAll, onMessage_wait hctx hp]
    exact ⟨rfl, fun _ r t => by rw [hbuf]; exact hempty r t⟩
  | cons r rs =>
    obtain ⟨hinv, hrest⟩ := onMessage_first r hcb hctx hbuf
    rw [AnswersAll, hinv, hrest]
    constructor
    · rintro ⟨hall, -⟩
      have := congrArg List.length hall
      rw [List.length_map] at this
      exact this.symm.le
    · intro hlen
      obtain rfl : rs = [] := by simpa using hlen
      exact ⟨rfl, fun _ => hempty⟩

/-- A single request is answered. -/
theorem pipelining_iff_sampleGet :
    AnswersAll (sampleServer.onMessage (ascii "c") (Buffer.new.append sampleGet.serialize))
      [sampleGet] ↔ [sampleGet].length ≤ 1 :=
  HttpServer.pipelining_iff [sampleGet] rfl (by decide +kernel) (by simp)

/-- The second of two requests in one read is not answered. -/
theorem pipelining_two_requests :
    ¬AnswersAll (sampleServer.onMessage (ascii "c")
      (Buffer.new.append (sampleGet.serialize ++ sampleGet.serialize))) [sampleGet, sampleGet] := by
  have hone : (invocations (sampleServer.onMessage (ascii "c") (Buffer.new.append
      (sampleGet.serialize ++ sampleGet.serialize))).effects).length = 1 := by
    decide +kernel
  rintro ⟨hall, -⟩
  rw [hall] at hone
  contradiction

end ClearMoon.Http

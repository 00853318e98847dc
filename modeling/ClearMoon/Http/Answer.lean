import ClearMoon.Http.Server

/-!
# The answer to a bad request line

`parse` returns true both for a complete request and for a request line it rejects; only the
response tells the two apart, and `onMessage` does not look at it before it runs the user callback.
So the callback is run on a request that is filled in part, and whatever status it sets replaces
the 400 that `parse` has stored.
-/

namespace ClearMoon.Http

open ClearMoon.Net ClearMoon.Tcp

variable {U : Type}

/-! ## The routing callback -/

/-- What the file system holds for the callback: `std::ifstream` and `::stat` by path. -/
structure Files where
  read : Bytes → Option Bytes
  stat : Bytes → Option Nat

/-- A page read from a file. -/
def htmlPage (file : Option Bytes) (resp : HttpResponse) : HttpResponse :=
  match file with
  | some body =>
    ((resp.setStatus .k200Ok).setBody body).setContentType (ascii "text/html; charset=utf-8")
  | none =>
    ((resp.setStatus .k404NotFound).setBody (ascii "HTML file not found\n")).setContentType
      (ascii "text/plain")

/-- A file that is sent as it is, or the text that says it is missing. -/
def wholeFile (files : Files) (path contentType missing : Bytes) (resp : HttpResponse) :
    HttpResponse :=
  match resp.setFilePath path contentType (files.stat path) with
  | (true, resp) => resp.setStatus .k200Ok
  | (false, resp) =>
    ((resp.setStatus .k404NotFound).setBody missing).setContentType (ascii "text/plain")

/-- `httpCallback` of `test/HttpCallback.cc`. -/
def httpCallback (projectRoot : Bytes) (files : Files) : HttpCallback Unit :=
  fun u _ req resp =>
    let resource (name : Bytes) : Bytes := projectRoot ++ ascii "/resource/" ++ name
    let resp :=
      if req.path = ascii "/video" then htmlPage (files.read (resource (ascii "video.html"))) resp
      else if req.path = ascii "/video.mp4" then
        wholeFile files (resource (ascii "video.mp4")) (ascii "video/mp4")
          (ascii "Video file not found\n") resp
      else if req.path = ascii "/JTH" then
        wholeFile files (resource (ascii "JTH.jpg")) (ascii "image/jpg")
          (ascii "Picture file not found\n") resp
      else if req.path = ascii "/video.html" then
        htmlPage (files.read (resource (ascii "video.html"))) resp
      else if req.path = ascii "/hello" then
        ((resp.setStatus .k200Ok).setBody (ascii "Hello!")).setContentType (ascii "text/plain")
      else (resp.setStatus .k404NotFound).setBody (ascii "Not Found\n")
    ⟨u, resp, []⟩

/-! ## What is sent -/

/-- The messages handed to the connection. -/
def sends (effects : List Effect) : List Bytes :=
  effects.filterMap fun
    | .call (.send data) => some data
    | _ => none

namespace HttpServer

variable {s : HttpServer U} {name : Bytes} {context : HttpContext} {buf : Buffer} {p : Parsing}

/-- The calls that send a response, and close the connection if the response says so. -/
def finish (response : HttpResponse) : List ConnCall :=
  respond response ++ if response.closeConnection then [.forceClose] else []

/-- The response that `onMessage` sends, if it sends one. -/
def answer? (s : HttpServer U) (name : Bytes) (buf : Buffer) : Option HttpResponse :=
  match s.context[name]? with
  | none => none
  | some context =>
    match parse ⟨context, buf, {}, initialResponse⟩ with
    | (p, .ok true) => some (s.invoke name p.request p.response).2.1
    | _ => none

/-- The response does not depend on the parsers' states. -/
theorem invoke_context (s : HttpServer U) (context : Std.ExtTreeMap Bytes HttpContext)
    (name : Bytes) (request : HttpRequest) (response : HttpResponse) :
    ({ s with context }.invoke name request response).2 =
      (s.invoke name request response).2 := by
  rw [invoke, invoke]
  cases s.cb with
  | none => rfl
  | some cb => rfl

/-- A finished request is answered behind the effects of the user callback. -/
theorem effects_onMessage (hctx : s.context[name]? = some context)
    (hp : parse ⟨context, buf, {}, initialResponse⟩ = (p, .ok true)) :
    (s.onMessage name buf).effects = (s.invoke name p.request p.response).2.2 ++
      (finish (s.invoke name p.request p.response).2.1).map .call := by
  rw [onMessage, hctx]
  dsimp only
  rw [hp, ← invoke_context s (s.context.insert name p.context)]
  rfl

/-- Whatever `onMessage` answers, it sends last. -/
theorem effects_of_answer? {response : HttpResponse} (h : s.answer? name buf = some response) :
    ∃ before, (s.onMessage name buf).effects = before ++ (finish response).map .call := by
  rw [answer?] at h
  split at h
  · contradiction
  · rename_i context hctx
    split at h
    · rename_i p hp
      obtain rfl := Option.some.inj h
      exact ⟨_, effects_onMessage hctx hp⟩
    · contradiction

end HttpServer

/-! ## Rejected request lines -/

/-- The status line of the answer to a bad request. -/
def badRequestLine : Bytes := ascii "HTTP/1.1 400 Bad Request\r\n"

/-- One message is sent, with status 400, and the user callback is not run. -/
def RefusesRequest (effects : List Effect) : Prop :=
  invocations effects = [] ∧ ∃ data, sends effects = [data] ∧ badRequestLine <+: data

/-- A call that finds a line it rejects returns true, with the response it has stored. -/
theorem parse_reject {line : Bytes} {buf rest : Buffer} {request : HttpRequest}
    (hline : takeLine buf = some (line, rest))
    (hreject : parseRequestLine line {} = (false, request)) (response : HttpResponse) :
    parse ⟨{}, buf, {}, response⟩ = (⟨{}, rest, request, badRequest response⟩, .ok true) := by
  have hturn : parseLoop.body ⟨{}, buf, {}, response⟩ =
      .leave ⟨{}, rest, request, badRequest response⟩ (.ok true) := by
    simp only [parseLoop, parseTurn, hline, hreject]
  rw [parse, parseLoop.run_leave hturn]
  rfl

/-- The stored response is sent in one message, under its own status. -/
theorem respond_badRequest :
    ∃ data, HttpServer.respond (badRequest HttpServer.initialResponse) = [.send data] ∧
      badRequestLine <+: data := by
  refine ⟨_, rfl, ?_⟩
  rw [HttpResponse.appendToBuffer, Buffer.readable_append, Buffer.readable_new, List.nil_append,
    List.append_assoc, List.append_assoc]
  have hstatus : (badRequest HttpServer.initialResponse).statusLine = badRequestLine := by
    decide +kernel
  rw [hstatus]
  exact List.prefix_append _ _

/-- A rejected request line is answered by 400 alone if and only if no user callback is
installed. -/
theorem HttpServer.refusesRequest_iff {s : HttpServer U} {name line : Bytes} {buf rest : Buffer}
    (hctx : s.context[name]? = some {}) (hline : takeLine buf = some (line, rest))
    (hreject : (parseRequestLine line {}).1 = false) :
    RefusesRequest (s.onMessage name buf).effects ↔ s.cb = none := by
  have hp := parse_reject hline (Prod.ext (y := (false, _)) hreject rfl) initialResponse
  cases hcb : s.cb with
  | some cb =>
    obtain ⟨hinv, -⟩ := onMessage_answer hcb hctx hp
    refine iff_of_false (fun h => ?_) (Option.some_ne_none cb)
    rw [h.1] at hinv
    contradiction
  | none =>
    refine iff_of_true ?_ rfl
    rw [effects_onMessage hctx hp, invoke, hcb]
    obtain ⟨data, hdata, hstatus⟩ := respond_badRequest
    refine ⟨?_, data, ?_, hstatus⟩
    · rw [List.nil_append, invocations_calls]
    · dsimp only
      rw [finish, hdata]
      rfl

/-- A request line without a known version. -/
def sampleBadLine : Buffer := Buffer.new.append (ascii "GET /hello HTTP/2.0\r\n")

/-- A line without a request, on a server without a callback of its own. -/
theorem refusesRequest_iff_sampleBadLine :
    RefusesRequest ((HttpServer.onConnection ({ user := () } : HttpServer Unit) (ascii "c")
      true).onMessage (ascii "c") sampleBadLine).effects ↔
        (none : Option (HttpCallback Unit)) = none := by
  have hline : takeLine sampleBadLine =
      some (ascii "GET /hello HTTP/2.0", sampleBadLine.retrieve 21) := by decide +kernel
  exact HttpServer.refusesRequest_iff rfl hline (by decide +kernel)

/-- The routing callback is run on the rejected request, and what is sent has status 200. -/
theorem badRequest_routed :
    ∃ s : HttpServer Unit, s.cb = some (httpCallback [] ⟨fun _ => none, fun _ => none⟩) ∧
      s.context[ascii "c"]? = some {} ∧
      ((invocations (s.onMessage (ascii "c") sampleBadLine).effects).map (·.path) =
        [ascii "/hello"]) ∧
      (∃ data, sends (s.onMessage (ascii "c") sampleBadLine).effects = [data] ∧
        ascii "HTTP/1.1 200 OK\r\n" <+: data) ∧
      ¬RefusesRequest (s.onMessage (ascii "c") sampleBadLine).effects := by
  refine ⟨HttpServer.onConnection
    { cb := some (httpCallback [] ⟨fun _ => none, fun _ => none⟩), user := () } (ascii "c") true,
    rfl, rfl, by decide +kernel, ⟨_, rfl, by decide +kernel⟩, fun h => ?_⟩
  have hinv := congrArg List.length h.1
  revert hinv
  decide +kernel

end ClearMoon.Http

import ClearMoon.Http.Session
import ClearMoon.Tcp.Service

/-!
# Requests and responses between two connections

The message callback that the HTTP server installs is a service of its connection. Whatever the
kernel makes of the bytes on their way there and back, and whatever the two loops do in between, a
client reads a response for each request that has been read, in order, if no read holds bytes of two
requests and a read that completes a request line completes the request.
-/

namespace ClearMoon.Http

open ClearMoon.Net ClearMoon.Tcp

variable {U : Type}

/-- The calls among the effects. -/
def calls (effects : List Effect) : List ConnCall :=
  effects.filterMap fun
    | .callback _ => none
    | .call c => some c

/-- `HttpServer::onMessage` as the message callback of a connection. An exception would end the
process; what is said here is said of runs without one. -/
def httpService (name : Bytes) : Service (HttpServer U) := fun s input =>
  let h := s.onMessage name (Buffer.new.append input)
  { state := h.server
    retrieved := input.length - h.buf.readableBytes
    calls := calls h.effects }

/-- What the connection is asked to do for a page is what `finish` does of it. -/
theorem calls_answered (page : HttpRequest → HttpResponse → HttpResponse) (q : HttpRequest) :
    calls (answered page q) = HttpServer.finish (page q HttpServer.initialResponse) := by
  have hcalls (cs : List ConnCall) : calls (cs.map .call) = cs := by
    induction cs with
    | nil => rfl
    | cons c cs ih => exact congrArg (c :: ·) ih
  exact hcalls _

/-- A page is sent in one message. -/
theorem HttpResponse.IsPage.finish {r : HttpResponse} (h : r.IsPage) :
    HttpServer.finish r = [.send r.emission] := by
  rw [HttpServer.finish, h.stays, HttpServer.respond, h.mode]
  simp only [Bool.false_eq_true, if_false, List.append_nil, HttpResponse.readable_appendToBuffer,
    Buffer.readable_new, List.nil_append]

section Course

variable {s : HttpServer U} {cb : HttpCallback U} {name : Bytes}
  {page : Bytes → HttpRequest → HttpResponse → HttpResponse}

/-- The service of a session sends the answers, in order, and leaves what stands behind the last
request. -/
theorem course_httpService (h : s.Waits cb name) (hserves : Serves cb page) (xs : List Exchange)
    {rest : List Bytes} (hrest : Unfinished rest) :
    ((httpService name).course s (xs.flatMap Exchange.reads ++ rest)).calls =
      xs.flatMap fun x =>
        HttpServer.finish (page name x.request.toRequest HttpServer.initialResponse) := by
  refine (session_induction (P := fun reads got cs =>
    ((httpService name).course s reads).calls = cs ∧
      ((httpService name).course s reads).app.Waits cb name ∧
      ((httpService name).course s reads).input = got)
    (f := fun r => HttpServer.finish (page name r.toRequest HttpServer.initialResponse))
    ⟨rfl, h, rfl⟩ ?_ ?_ xs hrest).1
  · rintro reads got data cs r ⟨hcalls, hwaits, hgot⟩ hpre hlen
    rw [Service.course_concat, Service.next, hgot]
    obtain ⟨hnothing, -, hwaits', hgot'⟩ := hwaits.onMessage_part
      (show (Buffer.new.append (got ++ data)).readable = got ++ data by simp) hpre hlen
    refine ⟨?_, hwaits', ?_⟩
    · simp only [httpService, hnothing, hcalls]
      exact List.append_nil _
    · simp only [httpService]
      rw [← Buffer.length_readable, hgot', Nat.sub_self, List.drop_zero]
  · rintro reads got data cs r ⟨hcalls, hwaits, hgot⟩ hwhole
    rw [Service.course_concat, Service.next, hgot]
    obtain ⟨hanswer, -, hwaits', hgot'⟩ := hwaits.onMessage_whole hserves
      (show (Buffer.new.append (got ++ data)).readable = r.serialize by simp [hwhole])
    refine ⟨?_, hwaits', ?_⟩
    · simp only [httpService, hanswer, hcalls, calls_answered]
    · simp only [httpService]
      rw [← Buffer.length_readable, hgot', List.length_nil, Nat.sub_zero, List.drop_length]

end Course

/-- The reads of a session deliver its requests. -/
theorem flatten_reads (xs : List Exchange) :
    (xs.flatMap Exchange.reads).flatten = xs.flatMap fun x => x.request.serialize := by
  induction xs with
  | nil => rfl
  | cons x xs ih => rw [List.flatMap_cons, List.flatten_append, x.whole, ih, List.flatMap_cons]

variable {fd : Side → Nat} {callbacks : Side → Tcp.Callback → Bool} {disk : Side → Bytes → Bytes}
  {cb : HttpCallback U} {name : Bytes} {user : U}
  {page : Bytes → HttpRequest → HttpResponse → HttpResponse} {as : List (Side × PeerAction)}
  {x : Serviced (HttpServer U)} {xs : List Exchange} {rest : List Bytes}

/-- What the client has got is a prefix of the responses to the requests that have been read, and
when everything is at rest, these are all that it has sent, and it decodes the response to each of
them. -/
theorem responses_of_run (hserves : Serves cb page) (hcallback : callbacks .far .message = true)
    (hrun : Run (Serviced.step (httpService name)) Serviced.ClientInOrder (Serviced.start fd
      callbacks disk (({ cb := some cb, user } : HttpServer U).onConnection name true)) as x)
    (hreads : x.host.chunks = xs.flatMap Exchange.reads ++ rest) (hrest : Unfinished rest)
    (hpages : ∀ e ∈ xs,
      (page name e.request.toRequest HttpServer.initialResponse).IsPage) :
    (x.net.peer .near).retrieved ++ (x.net.peer .near).loop.input <+: xs.flatMap (fun e =>
        (page name e.request.toRequest HttpServer.initialResponse).emission) ∧
      (Serviced.AtRest x.net →
        (xs.flatMap fun e => e.request.serialize) ++ rest.flatten =
          contents (disk .near) (accepted (x.net.peer .near).loop.trace) ∧
        decodeResponses xs.length
            ((x.net.peer .near).retrieved ++ (x.net.peer .near).loop.input) =
          some (xs.map fun e => (page name e.request.toRequest
            HttpServer.initialResponse).reply (disk .far), [])) := by
  have hwaits : HttpServer.Waits
      (({ cb := some cb, user } : HttpServer U).onConnection name true) cb name :=
    ⟨rfl, Std.ExtTreeMap.getElem?_insert_self⟩
  have hcalls := course_httpService hwaits hserves xs hrest
  rw [← hreads] at hcalls
  have hsent : (xs.flatMap fun e =>
      HttpServer.finish (page name e.request.toRequest HttpServer.initialResponse)) =
      xs.map fun e => .send
        (page name e.request.toRequest HttpServer.initialResponse).emission := by
    rw [List.map_eq_flatMap]
    exact List.flatMap_congr fun e he => (hpages e he).finish
  rw [hsent] at hcalls
  have hsends : OnlySends ((httpService name).course
      (({ cb := some cb, user } : HttpServer U).onConnection name true) x.host.chunks).calls := by
    rw [hcalls]
    intro c hc
    obtain ⟨e, -, rfl⟩ := List.mem_map.mp hc
    exact ⟨_, rfl⟩
  obtain ⟨⟨-, hback⟩, hall⟩ := Serviced.replies_of_run hcallback hrun hsends
  rw [hcalls, messages, List.flatMap_map] at hback hall
  refine ⟨hback, fun hquiet => ?_⟩
  obtain ⟨hforth, hback⟩ := hall hquiet
  refine ⟨?_, ?_⟩
  · rw [← hforth, hreads, List.flatten_append, flatten_reads]
  · have hrequests : ∀ q ∈ xs.map fun e => e.request.toRequest,
        (page name q HttpServer.initialResponse).Sendable (disk .far) := by
      simpa using fun e he => (hpages e he).sendable (disk .far)
    have hdecode := decodeResponses_answers hrequests
    have hwritten : written (disk .far)
        ((xs.map fun e => e.request.toRequest).flatMap (answered (page name))) =
        xs.flatMap fun e =>
          (page name e.request.toRequest HttpServer.initialResponse).emission := by
      rw [written, List.flatMap_assoc, List.flatMap_map]
      refine List.flatMap_congr fun e he => ?_
      simp [answered, (hpages e he).finish, ConnCall.written]
    rw [hwritten, List.length_map, List.map_map] at hdecode
    rw [hback]
    exact hdecode

/-- The routing callback's answer to `/hello`. -/
def helloPage : HttpResponse :=
  ((HttpServer.initialResponse.setStatus .k200Ok).setBody (ascii "Hello!")).setContentType
    (ascii "text/plain")

/-- A request for `/hello` is answered with its page, on every disk. -/
theorem httpCallback_hello (projectRoot : Bytes) (files : Files) (name : Bytes)
    {request : HttpRequest} (h : request.path = ascii "/hello") :
    (httpCallback projectRoot files () name request HttpServer.initialResponse).response =
      helloPage := by
  have hne (path : Bytes) (hpath : ascii "/hello" ≠ path) : ¬request.path = path := by
    rwa [h]
  rw [httpCallback]
  dsimp only
  rw [if_neg (hne _ (by decide +kernel)), if_neg (hne _ (by decide +kernel)),
    if_neg (hne _ (by decide +kernel)), if_neg (hne _ (by decide +kernel)), if_pos h, helloPage]

/-- This page is one that the session sends whole. -/
theorem isPage_helloPage : helloPage.IsPage :=
  (HttpResponse.isPage_initialResponse.fill _ _).setContentType (by decide +kernel)

/-- `GET /hello`, in two reads. -/
def askHelloInPieces : Exchange where
  request := askHello.request
  reads := [ascii "GET /hel", ascii "lo HTTP/1.1\r\n\r\n"]
  whole := by decide +kernel
  uncut := by decide +kernel

/-- The client sends the request, the server reads it in two pieces and answers with the routing
callback, and the client reads the response. -/
def helloInPieces (response : Bytes) : List (Side × PeerAction) :=
  Peers.loops .near (TcpLoop.establishing ++
    [.call (.send (ascii "GET /hello HTTP/1.1\r\n\r\n")), .run { timer := 2, write := .done 99 },
      .ret, .ret]) ++
  Peers.loops .far (TcpLoop.establishing ++ [.ret] ++
    TcpLoop.readable 2 (.done (ascii "GET /hel")) ++ [.retrieve 0, .ret, .resume { timer := 1 },
      .resume { timer := 1 }, .doPendingFuncs] ++
    TcpLoop.readable 1 (.done (ascii "lo HTTP/1.1\r\n\r\n")) ++
    [.retrieve 23, .call (.send response), .run { timer := 2, write := .done 999 }, .ret, .ret,
      .resume { timer := 2 }, .resume { timer := 2 }]) ++
  Peers.loops .near (TcpLoop.readable 2 (.done response))

/-- A server with the routing callback. -/
def helloServer : HttpServer Unit := { cb := some (httpCallback [] sampleFiles), user := () }

/-- The client asks for `/hello`, the bytes come and go in pieces, and it decodes the page. -/
theorem responses_of_run_helloInPieces :
    ∃ x, Run (Serviced.step (httpService [])) Serviced.ClientInOrder
        (Serviced.start (fun _ => 7) (fun _ _ => true) (fun _ => sampleDisk)
          (helloServer.onConnection [] true))
        (helloInPieces helloPage.emission) x ∧
      Serviced.AtRest x.net ∧
      askHelloInPieces.request.serialize =
        contents sampleDisk (accepted (x.net.peer .near).loop.trace) ∧
      decodeResponses 1 ((x.net.peer .near).retrieved ++ (x.net.peer .near).loop.input) =
        some ([helloPage.reply sampleDisk], []) := by
  have hreplay : (replay (Serviced.step (httpService [])) Serviced.ClientInOrder
      (Serviced.start (fun _ => 7) (fun _ _ => true) (fun _ => sampleDisk)
        (helloServer.onConnection [] true))
      (helloInPieces helloPage.emission)).any (fun x : Serviced (HttpServer Unit) =>
        decide (Serviced.AtRest x.net ∧ x.host.chunks = askHelloInPieces.reads)) = true := by
    decide +kernel
  obtain ⟨x, hx, he⟩ := Option.any_eq_true _ _ |>.mp hreplay
  obtain ⟨hrest, hchunks⟩ := of_decide_eq_true he
  have hpath : askHelloInPieces.request.toRequest.path = ascii "/hello" := by decide +kernel
  have hhello := httpCallback_hello [] sampleFiles [] hpath
  have hpages (e : Exchange) (he : e ∈ [askHelloInPieces]) : (httpCallback [] sampleFiles () []
      e.request.toRequest HttpServer.initialResponse).response.IsPage := by
    obtain rfl := List.mem_singleton.mp he
    rw [hhello]
    exact isPage_helloPage
  have hreads : x.host.chunks = [askHelloInPieces].flatMap Exchange.reads ++ [] := by
    rw [hchunks]
    rfl
  obtain ⟨-, hall⟩ := responses_of_run (serves_httpCallback [] sampleFiles) rfl (.of_replay hx)
    hreads ⟨sampleGet, by decide +kernel, by decide +kernel⟩ hpages
  obtain ⟨hsent, hdecode⟩ := hall hrest
  refine ⟨x, .of_replay hx, hrest, ?_, ?_⟩
  · rw [← hsent]
    simp
  · rw [List.map_singleton, hhello] at hdecode
    exact hdecode

end ClearMoon.Http

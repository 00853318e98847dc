import ClearMoon.Http.Decode
import ClearMoon.Http.Site

/-!
# Sessions

A client that sends one request after another on a connection gets one answer for each of them, in
order, provided that no read holds bytes of two requests and that a read that completes a request
line completes the request. The answers stand one behind the other in what is sent, headers and
files, and a client that reads responses by their lengths reads exactly these.
-/

namespace ClearMoon.Http

open ClearMoon.Net ClearMoon.Tcp

variable {U : Type}

/-- A request, and the reads in which it arrives. They hold this request and nothing of another one,
and none but the last one completes the request line. -/
structure Exchange where
  request : WireRequest
  reads : List Bytes
  whole : reads.flatten = request.serialize
  uncut : reads.dropLast.flatten.length < request.requestLine.length + 2

/-- Reads that have not completed the request line of the request they belong to. -/
def Unfinished (reads : List Bytes) : Prop :=
  ∃ r : WireRequest, reads.flatten <+: r.serialize ∧
    reads.flatten.length < r.requestLine.length + 2

/-- What follows the reads of a session, of any number of requests and a part of another one: what
holds before them, is kept by a read that does not complete a request line, and is kept by the read
that completes a request. -/
theorem session_induction {α : Type} {P : List Bytes → Bytes → List α → Prop}
    {f : WireRequest → List α} (hnil : P [] [] [])
    (hpart : ∀ reads got data es (r : WireRequest), P reads got es → got ++ data <+: r.serialize →
      (got ++ data).length < r.requestLine.length + 2 → P (reads ++ [data]) (got ++ data) es)
    (hlast : ∀ reads got data es (r : WireRequest), P reads got es → got ++ data = r.serialize →
      P (reads ++ [data]) [] (es ++ f r))
    (xs : List Exchange) {rest : List Bytes} (hrest : Unfinished rest) :
    P (xs.flatMap Exchange.reads ++ rest) rest.flatten
      (xs.flatMap fun x => f x.request) := by
  have hparts (reads : List Bytes) (es : List α) (r : WireRequest) (h : P reads [] es)
      (more : List Bytes) (hpre : more.flatten <+: r.serialize)
      (hlen : more.flatten.length < r.requestLine.length + 2) :
      P (reads ++ more) more.flatten es := by
    induction more using List.reverseRecOn with
    | nil => simpa using h
    | append_singleton more data ih =>
      rw [List.flatten_append, List.flatten_singleton] at hpre hlen ⊢
      have hlen' : more.flatten.length < r.requestLine.length + 2 := by
        rw [List.length_append] at hlen
        omega
      rw [← List.append_assoc]
      exact hpart _ _ _ _ r (ih ((List.prefix_append _ _).trans hpre) hlen') hpre hlen
  have hwhole : P (xs.flatMap Exchange.reads) [] (xs.flatMap fun x => f x.request) := by
    induction xs using List.reverseRecOn with
    | nil => exact hnil
    | append_singleton xs x ih =>
      obtain ⟨r, reads, hwhole, huncut⟩ := x
      simp only [List.flatMap_append, List.flatMap_singleton]
      cases reads using List.reverseRecOn with
      | nil => exact absurd hwhole.symm r.serialize_ne_nil
      | append_singleton reads data =>
        rw [List.dropLast_concat] at huncut
        rw [List.flatten_append, List.flatten_singleton] at hwhole
        rw [← List.append_assoc]
        exact hlast _ _ _ _ r (hparts _ _ r ih reads ⟨data, hwhole⟩ huncut) hwhole
  obtain ⟨r, hpre, hlen⟩ := hrest
  exact hparts _ _ r hwhole rest hpre hlen

/-- A callback that answers with a page of its own and leaves the connection alone. -/
def Serves (cb : HttpCallback U) (page : Bytes → HttpRequest → HttpResponse → HttpResponse) :
    Prop :=
  ∀ u name request response,
    (cb u name request response).response = page name request response ∧
      (cb u name request response).calls = []

/-- What the server does for one request. -/
def answered (page : HttpRequest → HttpResponse → HttpResponse) (request : HttpRequest) :
    List Effect :=
  .callback request ::
    (HttpServer.finish (page request HttpServer.initialResponse)).map .call

/-! ## The server's side -/

namespace HttpServer

variable {s : HttpServer U} {name : Bytes} {buf : Buffer} {cb : HttpCallback U}
  {page : Bytes → HttpRequest → HttpResponse → HttpResponse}

/-- The parser waits for a request, in its first state. -/
structure Waits (s : HttpServer U) (cb : HttpCallback U) (name : Bytes) : Prop where
  cb : s.cb = some cb
  context : s.context[name]? = some {}

/-- One invocation hands over one request, and answers with its page. -/
theorem effects_invoke (hserves : Serves cb page) (hcb : s.cb = some cb) (request : HttpRequest)
    (response : HttpResponse) : (s.invoke name request response).2 =
      (page name request response, [.callback request]) := by
  obtain ⟨hresponse, hcalls⟩ := hserves s.user name request response
  rw [invoke, hcb]
  dsimp only
  rw [hresponse, hcalls]
  rfl

/-- A part of a request line is left in the buffer. -/
theorem Waits.onMessage_part {got : Bytes} (h : s.Waits cb name) (hbuf : buf.readable = got)
    {r : WireRequest} (hpre : got <+: r.serialize) (hlen : got.length < r.requestLine.length + 2) :
    (s.onMessage name buf).effects = [] ∧ (s.onMessage name buf).thrown = none ∧
      (s.onMessage name buf).server.Waits cb name ∧
      (s.onMessage name buf).buf.readable = got := by
  rw [onMessage_wait h.context (r.parse_beforeLine hbuf hpre hlen initialResponse)]
  exact ⟨rfl, rfl, ⟨h.cb, Std.ExtTreeMap.getElem?_insert_self⟩, hbuf⟩

/-- A whole request is answered. -/
theorem Waits.onMessage_whole (h : s.Waits cb name) (hserves : Serves cb page) {r : WireRequest}
    (hbuf : buf.readable = r.serialize) :
    (s.onMessage name buf).effects = answered (page name) r.toRequest ∧
      (s.onMessage name buf).thrown = none ∧ (s.onMessage name buf).server.Waits cb name ∧
      (s.onMessage name buf).buf.readable = [] := by
  obtain ⟨buf', hp, hrest⟩ := r.parse_serialize
    (show buf.readable = r.serialize ++ [] by rw [hbuf, List.append_nil]) initialResponse
  obtain ⟨hbuf', hthrown, hfresh, hkept⟩ := onMessage_done h.context hp
  refine ⟨?_, hthrown, ⟨hkept.trans h.cb, hfresh⟩, hbuf' ▸ hrest⟩
  rw [effects_onMessage h.context hp, effects_invoke hserves h.cb]
  rfl

end HttpServer

/-! ## The client's side -/

/-- What a call puts on the wire, given the contents of the files. -/
def ConnCall.written (disk : Bytes → Bytes) : ConnCall → Bytes
  | .send data => data
  | .sendFile filePath => disk filePath
  | _ => []

/-- What the calls of the server put on the wire. -/
def written (disk : Bytes → Bytes) (effects : List Effect) : Bytes :=
  effects.flatMap fun
    | .callback _ => []
    | .call c => ConnCall.written disk c

/-- `n` responses, one behind the other, and what stands behind them. -/
def decodeResponses : Nat → Bytes → Option (List Decoded × Bytes)
  | 0, s => some ([], s)
  | n + 1, s =>
    (decodeResponse s).bind fun (d, rest) =>
      (decodeResponses n rest).map fun (ds, rest) => (d :: ds, rest)

namespace HttpResponse

/-- A response that leaves the connection open and can be told apart from what follows it: a page
without a length, or a file under the length it has. -/
structure Sendable (disk : Bytes → Bytes) (r : HttpResponse) : Prop where
  stays : r.closeConnection = false
  plain : r.headers.Plain
  page : r.fileMode = false → r.Unset
  file : r.fileMode = true →
    r.headers[contentLength]? = some (decimal (disk r.filePath).length)

/-- What the client is to read. -/
def reply (disk : Bytes → Bytes) (r : HttpResponse) : Decoded :=
  if r.fileMode then ⟨r.statusCode, r.headers, disk r.filePath⟩
  else ⟨r.statusCode, r.headers.insert contentLength (decimal r.body.length), r.body⟩

/-- The calls for a response are read back as this response, whatever follows. -/
theorem Sendable.decode {disk : Bytes → Bytes} {r : HttpResponse} (h : r.Sendable disk)
    (t : Bytes) : decodeResponse (written disk ((HttpServer.finish r).map .call) ++ t) =
      some (r.reply disk, t) := by
  rw [HttpServer.finish, h.stays, HttpServer.respond, reply]
  cases hmode : r.fileMode with
  | true =>
    have hread := decodeResponse_of_lines r h.plain (h.file hmode) t
    simp only [if_true, Bool.false_eq_true, if_false, List.append_nil, written, List.map_cons,
      List.map_nil, List.flatMap_cons, List.flatMap_nil, ConnCall.written]
    rw [serializeHeaders, Buffer.readable_append, Buffer.readable_new, List.nil_append]
    exact hread
  | false =>
    have hstored := apply_appendToBuffer_of_unset (h.page hmode)
    have hread := @decodeResponse_of_lines (r.stored r.body.length)
      (h.plain.insert (by decide +kernel) (plainValue_decimal _)) r.body
      Std.ExtTreeMap.getElem?_insert_self t
    simp only [Bool.false_eq_true, if_false, List.append_nil, written, List.map_cons,
      List.map_nil, List.flatMap_cons, List.flatMap_nil, ConnCall.written]
    rw [readable_appendToBuffer, Buffer.readable_new, List.nil_append, emission_eq, hstored]
    exact hread

end HttpResponse

/-- The bytes written are read off the effects piece by piece. -/
theorem written_append (disk : Bytes → Bytes) (es fs : List Effect) :
    written disk (es ++ fs) = written disk es ++ written disk fs := List.flatMap_append

/-- The answers are read back one by one. -/
theorem decodeResponses_answers {disk : Bytes → Bytes}
    {page : HttpRequest → HttpResponse → HttpResponse} {requests : List HttpRequest}
    (h : ∀ q ∈ requests, (page q HttpServer.initialResponse).Sendable disk) :
    decodeResponses requests.length (written disk (requests.flatMap (answered page))) =
      some (requests.map fun q => (page q HttpServer.initialResponse).reply disk, []) := by
  induction requests with
  | nil => rfl
  | cons q requests ih =>
    have hfirst := (h q List.mem_cons_self).decode
      (written disk (requests.flatMap (answered page)))
    have hcallback : written disk (answered page q) = written disk
      ((HttpServer.finish (page q HttpServer.initialResponse)).map .call) := rfl
    rw [List.flatMap_cons, written_append, hcallback, List.length_cons, decodeResponses, hfirst,
      Option.bind_some]
    dsimp only
    rw [ih fun q' hq' => h q' (List.mem_cons_of_mem _ hq')]
    rfl

/-! ## Both sides -/

namespace Site

end Site

/-! ## The routing callback -/

namespace HttpResponse

variable {r : HttpResponse} {disk : Bytes → Bytes}

/-- A page that has not been given a length. -/
structure IsPage (r : HttpResponse) : Prop where
  stays : r.closeConnection = false
  mode : r.fileMode = false
  plain : r.headers.Plain
  unset : r.Unset

/-- The response with which the server starts is a page. -/
theorem isPage_initialResponse : HttpServer.initialResponse.IsPage where
  stays := rfl
  mode := rfl
  plain := Headers.plain_empty.insert (by decide +kernel) (by decide +kernel)
  unset := ⟨by decide +kernel, by decide +kernel⟩

/-- It stays one with a status and a body. -/
theorem IsPage.fill (h : r.IsPage) (code : HttpStatusCode) (body : Bytes) :
    ((r.setStatus code).setBody body).IsPage := ⟨h.stays, h.mode, h.plain, h.unset⟩

/-- It stays one with a content type. -/
theorem IsPage.setContentType (h : r.IsPage) {type : Bytes} (htype : PlainValue type) :
    (r.setContentType type).IsPage where
  stays := h.stays
  mode := h.mode
  plain := h.plain.insert plainName_contentType htype
  unset := h.unset.setHeader contentType type

/-- A page can be sent, whatever is on disk. -/
theorem IsPage.sendable (h : r.IsPage) (disk : Bytes → Bytes) : r.Sendable disk where
  stays := h.stays
  plain := h.plain
  page _ := h.unset
  file hmode := absurd (h.mode.symm.trans hmode) Bool.false_ne_true

/-- A page is a page, whether its file is there or not. -/
theorem IsPage.htmlPage (h : r.IsPage) (file : Option Bytes) : (Http.htmlPage file r).IsPage := by
  cases file with
  | some body => exact (h.fill _ _).setContentType (by decide +kernel)
  | none => exact (h.fill _ _).setContentType (by decide +kernel)

/-- A file is sent under the length that `stat` has found. -/
theorem IsPage.wholeFile (h : r.IsPage) {files : Files}
    (hstat : ∀ path size, files.stat path = some size → size = (disk path).length)
    {path type : Bytes} (htype : PlainValue type) (missing : Bytes) :
    (Http.wholeFile files path type missing r).Sendable disk := by
  rw [Http.wholeFile]
  cases hsize : files.stat path with
  | some size =>
    obtain rfl := hstat path size hsize
    have hframes := framesFile_setFilePath h.plain path htype (disk path).length
    exact ⟨h.stays, hframes.plain, fun hmode => absurd (show true = false from hmode)
      (by decide), fun _ => hframes.length⟩
  | none => exact ((h.fill _ _).setContentType (by decide +kernel)).sendable disk

end HttpResponse

variable {files : Files} {disk : Bytes → Bytes}

/-- The callback of the example serves pages. -/
theorem serves_httpCallback (projectRoot : Bytes) (files : Files) :
    Serves (httpCallback projectRoot files) fun name request response =>
      (httpCallback projectRoot files () name request response).response :=
  fun _ _ _ _ => ⟨rfl, rfl⟩

def askHello : Exchange where
  request := { sampleGet with
    url := ascii "/hello"
    url_ne := by decide
    url_ok := by decide +kernel }
  reads := [ascii "GET /hello HTTP/1.1\r\n\r\n"]
  whole := by decide +kernel
  uncut := by decide +kernel

/-- The files of a site with a video of three bytes. -/
def sampleDisk (path : Bytes) : Bytes :=
  if path = ascii "/resource/video.mp4" then [1, 13, 10] else []

def sampleFiles : Files where
  read _ := none
  stat path := if path = ascii "/resource/video.mp4" then some 3 else none

end ClearMoon.Http

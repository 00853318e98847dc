import ClearMoon.Http.Answer
import ClearMoon.Tcp.Calls

/-!
# Closing behind a response

`onMessage` sends a response and, where the response says so, calls `forceClose` at once. What the
kernel has not taken in the `::write` of `send` itself is then still in the buffer, and a file has
not been touched; `forceClose` closes the connection without waiting for either.
-/

namespace ClearMoon.Http

open ClearMoon.Net ClearMoon.Tcp

variable {U : Type}

namespace HttpResponse

/-- What `onMessage` hands to `send`: the headers of a file, or everything. -/
def message (response : HttpResponse) : Bytes :=
  if response.fileMode then (response.serializeHeaders Buffer.new).readable
  else (response.appendToBuffer Buffer.new).2.readable

/-- The file of a response in file mode, on a host with these files. -/
def file (response : HttpResponse) (disk : Bytes → Bytes) : Bytes :=
  if response.fileMode then disk response.filePath else []

/-- A response has at least its status line. -/
theorem message_ne_nil (response : HttpResponse) : response.message ≠ [] := by
  have hstatus : response.statusLine ≠ [] := by
    rw [statusLine]
    simp [kCRLF, ascii]
  rw [message]
  split
  · rw [serializeHeaders, Buffer.readable_append]
    simp [hstatus]
  · rw [appendToBuffer, Buffer.readable_append]
    simp [hstatus]

end HttpResponse

/-- What `onRequest` does of a response: the message, its file, and the close. -/
theorem HttpServer.finish_eq (response : HttpResponse) : finish response =
    .send response.message :: ((if response.fileMode then [.sendFile response.filePath] else []) ++
      if response.closeConnection then [.forceClose] else []) := by
  rw [finish, respond, HttpResponse.message]
  split
  · rfl
  · rfl

/-- Between two states the complete response has been handed to the kernel, its message by
`::write`, behind what had waited in the buffer, and its file by `::sendfile`. -/
def HandedOver (response : HttpResponse) (w w' : TcpLoop) : Prop :=
  (∃ data, wrote w'.trace = wrote w.trace ++ data ∧
    w.conn.writeBuffer.readable ++ response.message <+: data) ∧
  ∃ data, sentFile w'.trace = sentFile w.trace ++ data ∧ response.file w.disk <+: data

/-- The connection has been closed, and the complete response was handed over. A closed connection
hands nothing over, so this happened before. -/
def CompleteWhenClosed (response : HttpResponse) (w w' : TcpLoop) : Prop :=
  w'.conn.state = .kDisConnected ∧ HandedOver response w w'

/-- A response that is written at once: the connection is connected, nothing waits in it, the first
`::write` takes the whole message, and there is no file, or an empty one. -/
structure WrittenAtOnce (response : HttpResponse) (w : TcpLoop) (cs : List (ConnCall × Env)) :
    Prop where
  connected : w.conn.state = .kConnected
  notWriting : w.conn.channel.isWriting = false
  empty : w.conn.writeBuffer.readableBytes = 0
  written : ∃ n, cs.head?.map (fun c => w.ioResult c.2.write) = some (.done n) ∧
    response.message.length ≤ n
  noFile : response.file w.disk = []

/-! ### The message -/

section

variable {w u v w' : TcpLoop} {data : Bytes} {env : Env}

open TcpLoop

/-- What `send` runs in the loop when the connection is connected. -/
theorem sent_of_send (hstate : w.conn.state = .kConnected)
    (hcall : w.step (.call (.send data)) = some u)
    (hrun : u.todo = none ∧ v = u ∨ u.step (.run env) = some v) :
    v = (w.note (.accepted (.message data))).sendInLoop data env := by
  obtain ⟨htodo, -, rfl⟩ := user_of_call hcall
  rw [call, send, if_neg (not_not.mpr hstate)] at hrun
  rcases hrun with ⟨hnone, -⟩ | hrun
  · contradiction
  · unfold step at hrun
    split at hrun
    · contradiction
    · dsimp only [TcpLoop.runInLoop] at hrun
      obtain ⟨-, hrun⟩ := Option.ite_none_right_eq_some.mp hrun
      obtain rfl := Option.some.inj hrun
      exact congrArg (fun todo => TcpLoop.sendInLoop
        { w.note (.accepted (.message data)) with todo } data env) htodo.symm

/-- A message, or the rest of one, that goes to the buffer. -/
theorem buffered_sendRest (hdata : data ≠ []) :
    wrote (w.sendRest data).trace = wrote w.trace ∧ (w.sendRest data).view.Busy := by
  obtain ⟨todo, -, hview⟩ := view_sendRest (w := w) data
  constructor
  · rw [← wrote_filter, ← wrote_filter w.trace]
    exact congrArg (fun v : Tcp.View => wrote v.trace) hview
  · rw [hview]
    exact .inr (by simp [hdata])

/-- `sendInLoop` on an idle connection hands over what the kernel takes at once, and leaves the
rest in the buffer. -/
theorem wrote_sendInLoop (hstate : w.conn.state = .kConnected)
    (hwriting : w.conn.channel.isWriting = false) (hempty : w.conn.writeBuffer.readableBytes = 0)
    (hdata : data ≠ []) :
    (∃ n, w.ioResult env.write = .done n ∧ data.length ≤ n ∧
      wrote (w.sendInLoop data env).trace = wrote w.trace ++ data) ∨
    ∃ n, n < data.length ∧ (∀ m, w.ioResult env.write = .done m → m < data.length) ∧
      wrote (w.sendInLoop data env).trace = wrote w.trace ++ data.take n ∧
      (w.sendInLoop data env).view.Busy := by
  have hlength : 0 < data.length := List.length_pos_iff.mpr hdata
  rw [sendInLoop, if_neg (by simp [hstate])]
  have htaken : wrote (w.note (.taken (.message data))).trace = wrote w.trace := by
    rw [note, wrote_concat]
    exact List.append_nil _
  have hio : (w.note (.taken (.message data))).ioResult env.write = w.ioResult env.write := rfl
  have hidle : (!(w.note (.taken (.message data))).conn.channel.isWriting &&
      (w.note (.taken (.message data))).conn.writeBuffer.readableBytes == 0) = true := by
    simp [note, hwriting, hempty]
  generalize w.note (.taken (.message data)) = v at htaken hio hidle ⊢
  have hrest : (∀ m, w.ioResult env.write = .done m → m < data.length) →
      ∃ n, n < data.length ∧ (∀ m, w.ioResult env.write = .done m → m < data.length) ∧
        wrote (v.sendRest data).trace = wrote w.trace ++ data.take n ∧
        (v.sendRest data).view.Busy := by
    intro hshort
    obtain ⟨hwrote, hbusy⟩ := buffered_sendRest (w := v) hdata
    exact ⟨0, hlength, hshort, by rw [hwrote, htaken, List.take_zero, List.append_nil], hbusy⟩
  dsimp only
  rw [if_pos hidle, hio]
  split
  · rename_i n hresult
    have hwrote : wrote (v.note (.wrote (data.take n))).trace = wrote w.trace ++ data.take n := by
      rw [note, wrote_concat, htaken, Event.wroteBytes]
    split
    · rename_i hn
      refine .inl ⟨n, hresult, hn, ?_⟩
      rw [List.take_of_length_le hn] at hwrote
      rw [← hwrote, ← wrote_filter, ← wrote_filter (v.note _).trace, List.take_of_length_le hn]
      exact congrArg (fun v : Tcp.View => wrote v.trace) (view_invoke _)
    · rename_i hn
      have hdrop : data.drop n ≠ [] := by simpa using hn
      obtain ⟨hsame, hbusy⟩ := buffered_sendRest (w := v.note (.wrote (data.take n))) hdrop
      refine .inr ⟨n, not_le.mp hn, fun m hm => ?_, hsame.trans hwrote, hbusy⟩
      obtain rfl := IoResult.done.inj (hresult.symm.trans hm)
      exact not_le.mp hn
  · rename_i hresult
    exact .inr (hrest fun m hm => by rw [hresult] at hm; contradiction)
  · rename_i hresult
    exact .inr (hrest fun m hm => by rw [hresult] at hm; contradiction)

/-- A message sent on an idle connection is handed over at once, or it waits in the buffer. -/
theorem wrote_send (hcall : w.step (.call (.send data)) = some u)
    (hrun : u.todo = none ∧ v = u ∨ u.step (.run env) = some v)
    (hstate : w.conn.state = .kConnected) (hwriting : w.conn.channel.isWriting = false)
    (hempty : w.conn.writeBuffer.readableBytes = 0) (hdata : data ≠ []) :
    (∃ n, w.ioResult env.write = .done n ∧ data.length ≤ n ∧
      wrote v.trace = wrote w.trace ++ data) ∨
    ∃ n, n < data.length ∧ (∀ m, w.ioResult env.write = .done m → m < data.length) ∧
      wrote v.trace = wrote w.trace ++ data.take n ∧ v.view.Busy := by
  obtain rfl := sent_of_send hstate hcall hrun
  have hnote : wrote (w.note (.accepted (.message data))).trace = wrote w.trace := by
    rw [note, wrote_concat]
    exact List.append_nil _
  rw [← hnote]
  exact wrote_sendInLoop (w := w.note (.accepted (.message data))) hstate hwriting hempty hdata

end

section

variable {response : HttpResponse} {w w' : TcpLoop} {cs : List (ConnCall × Env)}

/-- The bytes that are handed over can be told from the views. -/
theorem wrote_view (w : TcpLoop) : wrote w.view.trace = wrote w.trace := wrote_filter _

/-- The bytes of files are read off the outputs alone. -/
theorem sentFile_view (w : TcpLoop) : sentFile w.view.trace = sentFile w.trace := sentFile_filter _

/-- Inside a sequence of calls no file is sent. -/
theorem HandedOver.noFile (h : HandedOver response w w') (hpassive : w.view.Passive w'.view) :
    response.file w.disk = [] := by
  obtain ⟨-, data, hdata, hfile⟩ := h
  have hsent := hpassive.sent
  rw [sentFile_view, sentFile_view, hdata, List.append_right_eq_self] at hsent
  rw [hsent] at hfile
  exact List.prefix_nil.mp hfile

/-- The message has been written, so something has. -/
theorem HandedOver.wrote_ne (h : HandedOver response w w') :
    wrote w'.trace ≠ wrote w.trace := by
  obtain ⟨⟨data, hdata, hmessage⟩, -⟩ := h
  rw [hdata, Ne, List.append_right_eq_self]
  rintro rfl
  have hnil := List.prefix_nil.mp hmessage
  exact response.message_ne_nil (List.append_eq_nil_iff.mp hnil).2

/-- A connection that is not connected, or that still writes, hands nothing over meanwhile. -/
theorem HandedOver.idle (h : HandedOver response w w') (hpassive : w.view.Passive w'.view)
    (htodo : w.todo = none) : w.conn.state = .kConnected ∧ ¬w.view.Busy := by
  have hne := h.wrote_ne
  rw [← wrote_view, ← wrote_view w] at hne
  constructor
  · by_contra hstate
    refine hne (hpassive.refuses (.inr ⟨hstate, ?_⟩)).2
    simp [TcpLoop.view, htodo]
  · exact fun hbusy => hne (hpassive.busy hbusy).2

end

/-- A response that asks for it is complete when its connection is closed exactly if it is written
at once. -/
theorem HttpServer.completeWhenClosed_iff {s : HttpServer U} {name : Bytes} {buf : Buffer}
    {response : HttpResponse} (hanswer : s.answer? name buf = some response)
    (hclose : response.closeConnection = true) :
    (∃ before, (s.onMessage name buf).effects = before ++ (finish response).map .call) ∧
    ∀ (w w' : TcpLoop) (cs : List (ConnCall × Env)), cs.map Prod.fst = finish response →
      w.Performs cs w' →
        (CompleteWhenClosed response w w' ↔ WrittenAtOnce response w cs) := by
  refine ⟨effects_of_answer? hanswer, fun w w' cs hcs h => ?_⟩
  have hlast : ∃ before, cs.map Prod.fst = before ++ [.forceClose] := by
    rw [hcs, finish, if_pos hclose]
    exact ⟨_, rfl⟩
  have hpassive := h.passive
  have hclosed := h.closed hlast
  rw [finish_eq] at hcs
  cases h with
  | nil => contradiction
  | @cons w c env cs u v t w' as hcall hrun hinside hback hrest =>
    obtain ⟨rfl, -⟩ := List.cons.inj hcs
    obtain ⟨htodo, -⟩ := TcpLoop.user_of_call hcall
    have hafter := (TcpLoop.passive_performs_one hcall hrun hinside).1.trans hrest.passive
    constructor
    · rintro ⟨-, hover⟩
      obtain ⟨hstate, hidle⟩ := hover.idle hpassive htodo
      obtain ⟨hwriting, hempty⟩ := TcpLoop.not_busy_iff.mp hidle
      have hnoFile := hover.noFile hpassive
      rcases wrote_send hcall hrun hstate hwriting hempty response.message_ne_nil with
        ⟨n, hresult, hn, -⟩ | ⟨n, hn, -, hwrote, hbuffered⟩
      · exact ⟨hstate, hwriting, hempty, ⟨n, congrArg some hresult, hn⟩, hnoFile⟩
      · -- what `::write` has left stays in the buffer, so the message is not complete
        obtain ⟨⟨data, hdata, hmessage⟩, -⟩ := hover
        have hsame := (hafter.busy hbuffered).2
        rw [wrote_view, wrote_view, hdata, hwrote, List.append_cancel_left_eq] at hsame
        have hle := hmessage.length_le
        rw [hsame, List.length_append, List.length_take] at hle
        omega
    · rintro ⟨hstate, hwriting, hempty, ⟨n, hresult, hn⟩, hnoFile⟩
      refine ⟨hclosed (by simp [hstate]), ⟨?_, [], ?_, ?_⟩⟩
      · rcases wrote_send hcall hrun hstate hwriting hempty response.message_ne_nil with
          ⟨-, -, -, hwrote⟩ | ⟨-, -, hshort, -⟩
        · obtain ⟨more, hmore⟩ := hafter.grows
          rw [wrote_view, wrote_view, hwrote, List.append_assoc] at hmore
          refine ⟨_, hmore.symm, ?_⟩
          rw [show w.conn.writeBuffer.readable = [] from TcpLoop.buffered_eq_nil.mpr hempty]
          exact List.prefix_append _ _
        · exact absurd (hshort n (Option.some.inj hresult)) (not_lt.mpr hn)
      · rw [List.append_nil, ← sentFile_view, ← sentFile_view w]
        exact hpassive.sent
      · rw [hnoFile]

/-! ### Two responses -/

/-- A server that answers every request with the same response. -/
def answering (response : HttpResponse) : HttpServer Unit :=
  HttpServer.onConnection { cb := some fun u _ _ _ => ⟨u, response, []⟩, user := () } (ascii "c")
    true

def sampleRequest : Buffer := Buffer.new.append (ascii "GET / HTTP/1.1\r\n\r\n")

/-- The server that always answers so answers so. -/
theorem answer?_answering (response : HttpResponse) :
    (answering response).answer? (ascii "c") sampleRequest = some response := by
  have hparsed :
      ∃ p, parse ⟨{}, sampleRequest, {}, HttpServer.initialResponse⟩ = (p, .ok true) := by
    have hok : (parse ⟨{}, sampleRequest, {}, HttpServer.initialResponse⟩).2.toOption =
        some true := by
      decide +kernel
    cases hresult : parse ⟨{}, sampleRequest, {}, HttpServer.initialResponse⟩ with
    | mk p result =>
      rw [hresult] at hok
      cases result with
      | error e => contradiction
      | ok b =>
        obtain rfl := Option.some.inj hok
        exact ⟨p, rfl⟩
  obtain ⟨p, hp⟩ := hparsed
  have hctx : (answering response).context[ascii "c"]? = some {} := rfl
  rw [HttpServer.answer?, hctx]
  dsimp only
  rw [hp]
  rfl

/-- A short page, behind which the connection is to be closed. -/
def pageResponse : HttpResponse :=
  (({} : HttpResponse).setStatus .k200Ok |>.setBody (ascii "Hello!")).setCloseConnection true

/-- A file of three bytes, behind which the connection is to be closed. -/
def fileResponse : HttpResponse :=
  (((({} : HttpResponse).setFilePath [20, 21, 22] (ascii "video/mp4") (some 3)).2).setStatus
    .k200Ok).setCloseConnection true

/-- A connection is established, and data arrives: its message callback is invoked. -/
def reading : List Action :=
  [.poll [] {}, .doPendingFuncs, .nextFunc, .run {}, .ret, .poll [.conn] { epollin := true },
    .dispatch, .resume { timer := 2 }, .resume { timer := 2, read := .done [71] }]

/-- The calls that send a response, with what the first `::write` takes and what the user does
inside them. -/
def respondAndClose (response : HttpResponse) (write : IoResult) (nested : List Action) :
    List ((ConnCall × Env) × List Action) :=
  ((.send response.message, ({ write } : Env)), nested) ::
    (if response.fileMode then
      [((.sendFile response.filePath, ({ opened := .opened 5 } : Env)), [])] else []) ++
    [((.forceClose, ({} : Env)), [.ret])]

/-- The calls of such a run are those of `finish`. -/
theorem map_respondAndClose {response : HttpResponse} (hclose : response.closeConnection = true)
    (write : IoResult) (nested : List Action) :
    ((respondAndClose response write nested).map Prod.fst).map Prod.fst =
      HttpServer.finish response := by
  rw [HttpServer.finish_eq, hclose, respondAndClose]
  split
  · rfl
  · rfl

/-- The connection of `reading`. -/
def readingLoop : TcpLoop := TcpLoop.start 7 (fun _ => true) id

/-- A page that the kernel takes at once arrives whole before the close. -/
theorem completeWhenClosed_iff_page :
    ∃ w w', Run TcpLoop.step anyStep readingLoop reading w ∧
      w.Performs ((respondAndClose pageResponse (.done 99) [.ret]).map Prod.fst) w' ∧
      (wrote w'.trace).length = pageResponse.message.length ∧
      (CompleteWhenClosed pageResponse w w' ↔ WrittenAtOnce pageResponse w
        ((respondAndClose pageResponse (.done 99) [.ret]).map Prod.fst)) := by
  have hlength : ((replay TcpLoop.step anyStep readingLoop reading).bind fun w =>
      (w.perform (respondAndClose pageResponse (.done 99) [.ret])).map fun w' =>
        (wrote w'.trace).length) = some pageResponse.message.length := by
    decide +kernel
  obtain ⟨w, hw, hlength⟩ := Option.bind_eq_some_iff.mp hlength
  obtain ⟨w', hw', hlength⟩ := Option.map_eq_some_iff.mp hlength
  have hperforms := TcpLoop.performs_of_perform hw'
  exact ⟨w, w', .of_replay hw, hperforms, hlength,
    (HttpServer.completeWhenClosed_iff (answer?_answering pageResponse) rfl).2 w w' _
      (map_respondAndClose rfl _ _) hperforms⟩

/-- A request is answered by this response, which is cut off when the connection is closed. -/
def CutOff (response : HttpResponse) (write : IoResult) (nested : List Action) : Prop :=
  (answering response).answer? (ascii "c") sampleRequest = some response ∧
    response.closeConnection = true ∧
    ∃ w w', Run TcpLoop.step anyStep readingLoop reading w ∧
      w.Performs ((respondAndClose response write nested).map Prod.fst) w' ∧
      w'.conn.state = .kDisConnected ∧ ¬CompleteWhenClosed response w w'

/-- The kernel takes one byte of the page; and it takes all the headers of the file, which is sent
later. -/
theorem closed_before_complete :
    CutOff pageResponse (.done 1) [] ∧ CutOff fileResponse (.done 99) [.ret] := by
  constructor
  · have hlength : ((replay TcpLoop.step anyStep readingLoop reading).bind fun w =>
        (w.perform (respondAndClose pageResponse (.done 1) [])).map fun w' =>
          (decide (w'.conn.state = .kDisConnected), (wrote w'.trace).length)) =
            some (true, 1) := by
      decide +kernel
    obtain ⟨w, hw, hlength⟩ := Option.bind_eq_some_iff.mp hlength
    obtain ⟨w', hw', he⟩ := Option.map_eq_some_iff.mp hlength
    obtain ⟨hclosed, hlength⟩ := Prod.mk.inj he
    refine ⟨answer?_answering _, rfl, w, w', .of_replay hw, TcpLoop.performs_of_perform hw',
      of_decide_eq_true hclosed, ?_⟩
    rintro ⟨-, ⟨data, hdata, hmessage⟩, -⟩
    have hle := hmessage.length_le
    have hpage : pageResponse.message.length = 44 := by decide +kernel
    rw [hdata, List.length_append] at hlength
    rw [List.length_append] at hle
    omega
  · have hfile : ((replay TcpLoop.step anyStep readingLoop reading).bind fun w =>
        (w.perform (respondAndClose fileResponse (.done 99) [.ret])).map fun w' =>
          (decide (w'.conn.state = .kDisConnected), fileResponse.file w.disk)) =
            some (true, [20, 21, 22]) := by
      decide +kernel
    obtain ⟨w, hw, hfile⟩ := Option.bind_eq_some_iff.mp hfile
    obtain ⟨w', hw', he⟩ := Option.map_eq_some_iff.mp hfile
    obtain ⟨hclosed, hfile⟩ := Prod.mk.inj he
    have hperforms := TcpLoop.performs_of_perform hw'
    refine ⟨answer?_answering _, rfl, w, w', .of_replay hw, hperforms,
      of_decide_eq_true hclosed, ?_⟩
    rintro ⟨-, hover⟩
    rw [hover.noFile hperforms.passive] at hfile
    contradiction

end ClearMoon.Http

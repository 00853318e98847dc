import ClearMoon.Http.Grammar

/-!
# Malformed body lengths

The body state hands the stored `Content-Length` to `std::stoul` without looking at it. A request
whose length is not a plain number is therefore never answered with 400, as a rejected request
line is: the call throws, or goes on with whatever number `std::stoul` made of the value.
-/

namespace ClearMoon.Http

open ClearMoon.Net

/-- A body request whose stored length is not a plain number. -/
def Malformed (request : HttpRequest) : Prop :=
  request.method.hasBody = true ∧ contentLength ∈ request.headers ∧
    ¬PlainLength (request.getHeader contentLength)

/-- Lines of `input` lead from `state` to the body state, and `final` is the request stored by
then. -/
inductive EntersBody : HttpRequestParseState → HttpRequest → Bytes → HttpRequest → Prop
  | requestLine {request request' final input i} : search kCRLF input = some i →
      parseRequestLine (input.take i) request = (true, request') →
      EntersBody .kExpectHeaders request' (input.drop (i + 2)) final →
      EntersBody .kExpectRequestLine request input final
  | headerLine {request final input i} : search kCRLF input = some i → input.take i ≠ [] →
      EntersBody .kExpectHeaders (storeHeaderLine (input.take i) request) (input.drop (i + 2))
        final →
      EntersBody .kExpectHeaders request input final
  | blankLine {request input i} : search kCRLF input = some i → input.take i = [] →
      request.method.hasBody = true → EntersBody .kExpectHeaders request input request
  | body {request input} : EntersBody .kExpectBody request input request

/-- The contexts and requests that calls of `parse` lead to, from fresh ones and on any buffer.
A caller may put a new request in place of the old one between two calls, and reset the
context. -/
inductive Reached : HttpContext → HttpRequest → Prop
  | fresh : Reached {} {}
  | parse {context request} (buf : Buffer) (response : HttpResponse) : Reached context request →
      Reached (Http.parse ⟨context, buf, request, response⟩).1.context
        (Http.parse ⟨context, buf, request, response⟩).1.request
  | newRequest {context request} : Reached context request → Reached context {}
  | reset {context request} : Reached context request → Reached context.reset request

/-- A call does not throw, and answers a malformed length with 400 and a closed connection. -/
def RejectsMalformed (context : HttpContext) (request : HttpRequest) (buf : Buffer) : Prop :=
  ∀ response,
    (∀ e, (parse ⟨context, buf, request, response⟩).2 ≠ .error e) ∧
    ∀ final, EntersBody context.state request buf.readable final → Malformed final →
      (parse ⟨context, buf, request, response⟩).2 = .ok true ∧
      (parse ⟨context, buf, request, response⟩).1.response.statusCode = .k400BadRequest ∧
      (parse ⟨context, buf, request, response⟩).1.response.closeConnection = true

/-! ## The state in which a body is expected -/

/-- In the body state the request is a body request, or it has no length at all. -/
def BodyState (context : HttpContext) (request : HttpRequest) : Prop :=
  context.state = .kExpectBody →
    request.method.hasBody = true ∨ contentLength ∉ request.headers

/-- A turn that goes on enters the body state with a body request only. -/
theorem bodyState_again {p q : Parsing} (h : parseTurn p = .again q) :
    BodyState q.context q.request := by
  intro hq
  rcases parseTurn_again_cases h with ⟨-, line, buf, request, -, -, rfl⟩ | ⟨-, buf, -, rfl⟩ |
    ⟨hs, line, buf, -, -, rfl⟩ | ⟨-, -, rfl⟩ | ⟨-, -, len, -, -, rfl⟩
  · contradiction
  · dsimp only [stateAfterHeaders] at hq ⊢
    split at hq
    · rename_i hm
      exact .inl hm
    · contradiction
  · rw [hs] at hq
    contradiction
  · contradiction
  · contradiction

/-- Nor does the turn that ends a call leave the body state with anything else. -/
theorem bodyState_leave {p q : Parsing} {r : ParseResult} (hp : BodyState p.context p.request)
    (h : parseTurn p = .leave q r) : BodyState q.context q.request := by
  rcases parseTurn_leave_cases h with ⟨hs, -, line, buf, request, -, -, rfl⟩ | ⟨-, rfl, -⟩ |
    ⟨-, rfl, -⟩
  · intro hq
    rw [hs] at hq
    contradiction
  · exact hp
  · exact hp

/-- In the body state in which a parse stops, the request has a body or no length. -/
theorem bodyState_run {p : Parsing} (hp : BodyState p.context p.request) :
    BodyState (parseLoop.run p).1.context (parseLoop.run p).1.request :=
  parseLoop.run_invariant (I := fun p => BodyState p.context p.request)
    (fun _ _ _ hb => bodyState_again hb) (fun _ _ _ hp hb => bodyState_leave hp hb)
    (fun _ _ hp hb => by rwa [(parseTurn_starve hb).1]) hp

/-- So it is in every state in which a caller finds the parser. -/
theorem Reached.bodyState {context : HttpContext} {request : HttpRequest}
    (h : Reached context request) : BodyState context request := by
  induction h with
  | fresh => exact fun h => absurd h (by decide)
  | parse buf response _ ih => exact bodyState_run (p := ⟨_, buf, _, response⟩) ih
  | newRequest _ _ => exact fun _ => .inr Std.ExtTreeMap.not_mem_empty
  | reset _ _ => exact fun h => absurd h HttpRequestParseState.noConfusion

/-! ## What becomes of a malformed length -/

/-- The loop follows the lines into the body state without touching the response. -/
theorem run_entersBody {p : Parsing} {final : HttpRequest}
    (h : EntersBody p.context.state p.request p.buf.readable final) :
    ∃ buf, parseLoop.run p = parseLoop.run ⟨⟨.kExpectBody⟩, buf, final, p.response⟩ := by
  obtain ⟨⟨state⟩, buf, request, response⟩ := p
  dsimp only at h ⊢
  generalize hinput : buf.readable = input at h
  induction h generalizing buf with
  | requestLine hfind haccept _ ih =>
    subst hinput
    obtain ⟨buf', hrun⟩ := ih _ (buf.readable_retrieve _)
    refine ⟨buf', Eq.trans (parseLoop.run_again ?_) hrun⟩
    simp only [parseLoop, parseTurn, takeLine, Buffer.findCRLF, hfind, Option.map_some, haccept]
  | headerLine hfind hne _ ih =>
    subst hinput
    obtain ⟨buf', hrun⟩ := ih _ (buf.readable_retrieve _)
    refine ⟨buf', Eq.trans (parseLoop.run_again ?_) hrun⟩
    simp only [parseLoop, parseTurn, takeLine, Buffer.findCRLF, hfind, Option.map_some, if_neg hne]
  | @blankLine request input i hfind hempty hm =>
    subst hinput
    refine ⟨buf.retrieve (i + 2), parseLoop.run_again ?_⟩
    simp only [parseLoop, parseTurn, takeLine, Buffer.findCRLF, hfind, Option.map_some, hempty,
      ite_true, stateAfterHeaders, if_pos hm]
  | body => exact ⟨buf, rfl⟩

/-- From the body state on, the response stays as it is. -/
theorem response_run_body {p : Parsing} (hs : p.context.state = .kExpectBody) :
    (parseLoop.run p).1.response = p.response := by
  cases hb : parseTurn p with
  | starve q => rw [parseLoop.run_starve hb, (parseTurn_starve hb).1]
  | leave q r =>
    rw [parseLoop.run_leave hb]
    rcases parseTurn_leave_cases hb with ⟨hs', -⟩ | ⟨-, rfl, -⟩ | ⟨-, rfl, -⟩
    · rw [hs] at hs'
      contradiction
    · rfl
    · rfl
  | again q =>
    rw [parseLoop.run_again hb]
    rcases parseTurn_again_cases hb with ⟨hs', -⟩ | ⟨hs', -⟩ | ⟨hs', -⟩ | ⟨-, -, rfl⟩ |
      ⟨-, -, len, -, -, rfl⟩
    · rw [hs] at hs'
      contradiction
    · rw [hs] at hs'
      contradiction
    · rw [hs] at hs'
      contradiction
    · rw [parseLoop.run_leave rfl]
    · rw [parseLoop.run_leave rfl]

/-- A turn that goes on adds a line to those that lead to the body state. -/
theorem EntersBody.again {p q : Parsing} {final : HttpRequest} (hb : parseTurn p = .again q)
    (h : EntersBody q.context.state q.request q.buf.readable final) :
    EntersBody p.context.state p.request p.buf.readable final := by
  rcases parseTurn_again_cases hb with ⟨hs, line, buf, request, hline, haccept, rfl⟩ |
    ⟨hs, buf, hline, rfl⟩ | ⟨hs, line, buf, hline, hne, rfl⟩ | ⟨-, -, rfl⟩ |
    ⟨-, -, len, -, -, rfl⟩
  · obtain ⟨i, hi, he⟩ := Option.map_eq_some_iff.mp hline
    obtain ⟨rfl, rfl⟩ := Prod.mk.inj he
    rw [Buffer.readable_retrieve] at h
    rw [hs]
    exact .requestLine hi haccept h
  · obtain ⟨i, hi, he⟩ := Option.map_eq_some_iff.mp hline
    obtain ⟨hempty, rfl⟩ := Prod.mk.inj he
    dsimp only [stateAfterHeaders] at h
    split at h
    · rename_i hm
      cases h
      rw [hs]
      exact .blankLine hi hempty hm
    · cases h
  · obtain ⟨i, hi, he⟩ := Option.map_eq_some_iff.mp hline
    obtain ⟨rfl, rfl⟩ := Prod.mk.inj he
    rw [Buffer.readable_retrieve, hs] at h
    rw [hs]
    exact .headerLine hi hne h
  · cases h
  · cases h

/-- A call throws only on a malformed length. -/
theorem run_ne_error {p : Parsing} (hp : BodyState p.context p.request)
    (hok : ∀ final, EntersBody p.context.state p.request p.buf.readable final →
      ¬Malformed final) (e : StoulError) : (parseLoop.run p).2 ≠ .left (.error e) := by
  induction p using parseLoop.run_induction with
  | starve p q hb =>
    rw [parseLoop.run_starve hb]
    nofun
  | again p q hb ih =>
    rw [parseLoop.run_again hb]
    exact ih (bodyState_again hb) fun final hfinal => hok final (hfinal.again hb)
  | leave p q r hb =>
    rw [parseLoop.run_leave hb]
    rcases parseTurn_leave_cases hb with ⟨-, rfl, -⟩ | ⟨hs, -, hne, e', he, -⟩ | ⟨-, -, rfl⟩
    · nofun
    · -- the stored length is not empty, so it is there; it is plain, so it is read
      have hmem : contentLength ∈ p.request.headers := by
        by_contra hno
        apply hne
        change (p.request.headers[contentLength]?).getD [] = []
        rw [Std.ExtTreeMap.getElem?_eq_none hno, Option.getD_none]
      have hm := (hp hs).resolve_right fun h => h hmem
      have hplain : PlainLength (p.request.getHeader contentLength) := by
        by_contra hno
        exact hok p.request (by rw [hs]; exact .body) ⟨hm, hmem, hno⟩
      have hread := stoul_of_plain hplain
      change stoul (p.request.getHeader contentLength) = _ at he
      rw [hread] at he
      contradiction
    · nofun

/-- Exactly when a call meets the rule: when no malformed length enters the body state. -/
theorem rejectsMalformed_iff {context : HttpContext} {request : HttpRequest}
    (h : Reached context request) (buf : Buffer) :
    RejectsMalformed context request buf ↔
      ∀ final, EntersBody context.state request buf.readable final → ¬Malformed final := by
  constructor
  · intro hrejects final hfinal hbad
    obtain ⟨-, hanswer⟩ := hrejects {}
    obtain ⟨-, -, hclose⟩ := hanswer final hfinal hbad
    obtain ⟨buf', hrun⟩ := run_entersBody (p := ⟨context, buf, request, {}⟩) hfinal
    rw [parse, hrun, response_run_body rfl] at hclose
    contradiction
  · intro hok response
    refine ⟨fun e he => ?_, fun final hfinal hbad => absurd hbad (hok final hfinal)⟩
    have hne := run_ne_error (p := ⟨context, buf, request, response⟩) h.bodyState hok e
    rw [parse] at he
    cases hexit : (parseLoop.run ⟨context, buf, request, response⟩).2 with
    | left r =>
      rw [hexit] at he hne
      exact hne (congrArg _ he)
    | starved =>
      rw [hexit] at he
      contradiction

/-- A length with a minus sign is no length, and is taken for one all the same. -/
theorem rejectsMalformed_iff_sign :
    let buf := Buffer.new.append (ascii "PUT / HTTP/1.0\r\nContent-Length: -1\r\n\r\n")
    RejectsMalformed {} {} buf ↔
      ∀ final, EntersBody .kExpectRequestLine {} buf.readable final → ¬Malformed final :=
  rejectsMalformed_iff .fresh _

/-- Letters for a length: the call throws, and the rule is broken. -/
theorem parse_throws_on_letters :
    let buf := Buffer.new.append (ascii "POST / HTTP/1.1\r\nContent-Length: abc\r\n\r\n")
    (parse ⟨{}, buf, {}, {}⟩).2 = .error .invalidArgument ∧
      ¬∀ context request buf, Reached context request → RejectsMalformed context request buf := by
  have hthrows : (parse ⟨{}, Buffer.new.append
      (ascii "POST / HTTP/1.1\r\nContent-Length: abc\r\n\r\n"), {}, {}⟩).2 =
        .error .invalidArgument := by
    decide +kernel
  exact ⟨hthrows, fun h => (h {} {} _ .fresh {}).1 _ hthrows⟩

end ClearMoon.Http

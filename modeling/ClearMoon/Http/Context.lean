import ClearMoon.Core.Loop
import ClearMoon.Http.Message

/-!
# The request parser

`HttpContext::parse` is a loop over a four-state machine. It reads lines and the body from the
connection's buffer, stores into the caller's request and, for a rejected request line, into the
caller's response. The parser state survives between calls; the request and the response are
whatever objects the caller passes. `std::stoul` may throw, so a call either returns or throws.
-/

namespace ClearMoon.Http

open ClearMoon.Net

def space : UInt8 := 32
def htab : UInt8 := 9
def colon : UInt8 := 58
def qmark : UInt8 := 63

/-! ## `std::stoul` -/

/-- The two exceptions of `std::stoul`. -/
inductive StoulError where
  | invalidArgument
  | outOfRange
  deriving DecidableEq, Repr

/-- `isspace` in the C locale. -/
def isSpace (b : UInt8) : Bool := b = 32 ∨ 9 ≤ b ∧ b ≤ 13

def isDigit (b : UInt8) : Bool := 48 ≤ b ∧ b ≤ 57

/-- The number a string of decimal digits denotes. -/
def decimalValue (ds : Bytes) : Nat := ds.foldl (fun n d => n * 10 + (d.toNat - 48)) 0

/-- One past the largest `size_t`. -/
def sizeLimit : Nat := 2 ^ 64

/-- The optional sign `strtoul` reads, and what follows it. -/
def stripSign : Bytes → Bool × Bytes
  | 45 :: ds => (true, ds)
  | 43 :: ds => (false, ds)
  | ds => (false, ds)

/-- `std::stoul` in base ten: blanks, an optional sign, digits; anything behind them is ignored
and a minus sign negates the result modulo the word size. -/
def stoul (s : Bytes) : Except StoulError Nat :=
  let (negative, rest) := stripSign (s.dropWhile isSpace)
  let digits := rest.takeWhile isDigit
  if digits = [] then .error .invalidArgument
  else if sizeLimit ≤ decimalValue digits then .error .outOfRange
  else .ok (if negative then (sizeLimit - decimalValue digits) % sizeLimit
    else decimalValue digits)

/-! ## Request line and header lines -/

/-- `HttpContext::stringToMethod`. -/
def stringToMethod (method : Bytes) : HttpMethod :=
  if method = ascii "GET" then .kGet
  else if method = ascii "POST" then .kPost
  else if method = ascii "HEAD" then .kHead
  else if method = ascii "PUT" then .kPut
  else if method = ascii "DELETE" then .kDelete
  else if method = ascii "OPTIONS" then .kOptions
  else if method = ascii "PATCH" then .kPatch
  else .kInvalid

/-- Split a URL at its first question mark and store the parts. -/
def storeUrl (url : Bytes) (request : HttpRequest) : HttpRequest :=
  match url.idxOf? qmark with
  | some q => (request.setPath (url.take q)).setQuery (url.drop (q + 1))
  | none => request.setPath url

/-- `HttpContext::parseRequestLine`. A rejected line may already have stored the method, the path
and the query. -/
def parseRequestLine (line : Bytes) (request : HttpRequest) : Bool × HttpRequest :=
  match line.idxOf? space with
  | none => (false, request)
  | some space1 =>
    let method := stringToMethod (line.take space1)
    if method = .kInvalid then (false, request)
    else
      let request := request.setMethod method
      match rfind space line with
      | none => (false, request)
      | some space2 =>
        if space2 ≤ space1 + 1 then (false, request)
        else
          let url := (line.drop (space1 + 1)).take (space2 - space1 - 1)
          let request := storeUrl url request
          let versionStr := line.drop (space2 + 1)
          if versionStr = ascii "HTTP/1.1" then (true, request.setVersion .kHttp11)
          else if versionStr = ascii "HTTP/1.0" then (true, request.setVersion .kHttp10)
          else (false, request)

/-- Neither a space nor a tab. -/
def notBlank (b : UInt8) : Bool := b ≠ space ∧ b ≠ htab

/-- Drop the leading blanks of a header value, unless it has nothing else. -/
def trimLeading (value : Bytes) : Bytes :=
  match value.findIdx? notBlank with
  | some start => value.drop start
  | none => value

/-- Store one non-empty header line; a line without a colon is ignored. -/
def storeHeaderLine (line : Bytes) (request : HttpRequest) : HttpRequest :=
  match line.idxOf? colon with
  | some i => request.setHeader (line.take i) (trimLeading (line.drop (i + 1)))
  | none => request

/-! ## The state machine -/

inductive HttpRequestParseState where
  | kExpectRequestLine
  | kExpectHeaders
  | kExpectBody
  | kGotAll
  deriving DecidableEq, Repr

/-- `net/Http/HttpContext.h`. -/
structure HttpContext where
  state : HttpRequestParseState := .kExpectRequestLine
  deriving DecidableEq

/-- `HttpContext::reset`. -/
def HttpContext.reset (_ : HttpContext) : HttpContext := {}

/-- The objects `parse` works on: the context itself and its three arguments. -/
structure Parsing where
  context : HttpContext
  buf : Buffer
  request : HttpRequest
  response : HttpResponse
  deriving DecidableEq

/-- What a call to `parse` delivers: its return value, or the exception that leaves it. -/
abbrev ParseResult := Except StoulError Bool

/-- Whether a request of this method has a message body. -/
def HttpMethod.hasBody (m : HttpMethod) : Bool := m = .kPost ∨ m = .kPut ∨ m = .kPatch

/-- The state that follows the empty line. -/
def stateAfterHeaders (m : HttpMethod) : HttpRequestParseState :=
  if m.hasBody then .kExpectBody else .kGotAll

/-- The response a rejected request line stores. -/
def badRequest (response : HttpResponse) : HttpResponse :=
  (((response.setStatus .k400BadRequest).setBody (ascii "Bad Request" ++ kCRLF)).setContentType
    (ascii "text/plain")).setCloseConnection true

/-- The line up to the first CRLF and the buffer behind it. -/
def takeLine (buf : Buffer) : Option (Bytes × Buffer) :=
  buf.findCRLF.map fun lineLen => (buf.readable.take lineLen, buf.retrieve (lineLen + 2))

/-- The `switch` of `parse`, run once. -/
def parseTurn (p : Parsing) : Turn Parsing ParseResult :=
  match p.context.state with
  | .kExpectRequestLine =>
    match takeLine p.buf with
    | none => .starve p
    | some (line, buf) =>
      match parseRequestLine line p.request with
      | (false, request) =>
        .leave { p with buf, request, response := badRequest p.response } (.ok true)
      | (true, request) => .again { p with context := ⟨.kExpectHeaders⟩, buf, request }
  | .kExpectHeaders =>
    match takeLine p.buf with
    | none => .starve p
    | some (line, buf) =>
      if line = [] then
        .again { p with context := ⟨stateAfterHeaders p.request.method⟩, buf }
      else .again { p with buf, request := storeHeaderLine line p.request }
  | .kExpectBody =>
    let contentLenStr := p.request.getHeader (ascii "Content-Length")
    if contentLenStr = [] then .again { p with context := ⟨.kGotAll⟩ }
    else
      match stoul contentLenStr with
      | .error e => .leave p (.error e)
      | .ok contentLen =>
        if contentLen ≤ p.buf.readableBytes then
          let (body, buf) := p.buf.readAsString contentLen
          .again { p with context := ⟨.kGotAll⟩, buf, request := p.request.setBody body }
        else .starve p
  | .kGotAll => .leave p (.ok true)

/-- Bytes read count twice, and reaching the last state counts once. -/
def parseMeasure (p : Parsing) : Nat :=
  2 * p.buf.readableBytes + if p.context.state = .kGotAll then 0 else 1

/-- A line that is taken shortens the buffer by at least its CRLF. -/
theorem takeLine_shortens {buf rest : Buffer} {line : Bytes}
    (h : takeLine buf = some (line, rest)) :
    rest.readableBytes + 2 ≤ buf.readableBytes := by
  obtain ⟨i, hi, he⟩ := Option.map_eq_some_iff.mp h
  obtain ⟨-, rfl⟩ := Prod.mk.inj he
  have hle := search_le hi
  rw [← Buffer.length_readable, ← Buffer.length_readable, Buffer.readable_retrieve,
    List.length_drop]
  simp only [kCRLF, List.length_cons, List.length_nil] at hle
  omega

/-- What a turn that goes on has done: taken an accepted request line, taken the empty line,
stored a header line, found no body to read, or read the body. -/
theorem parseTurn_again_cases {p q : Parsing} (h : parseTurn p = .again q) :
    (p.context.state = .kExpectRequestLine ∧ ∃ line buf request, takeLine p.buf = some (line, buf) ∧
      parseRequestLine line p.request = (true, request) ∧
      q = { p with context := ⟨.kExpectHeaders⟩, buf, request }) ∨
    (p.context.state = .kExpectHeaders ∧ ∃ buf, takeLine p.buf = some ([], buf) ∧
      q = { p with context := ⟨stateAfterHeaders p.request.method⟩, buf }) ∨
    (p.context.state = .kExpectHeaders ∧ ∃ line buf, takeLine p.buf = some (line, buf) ∧
      line ≠ [] ∧ q = { p with buf, request := storeHeaderLine line p.request }) ∨
    (p.context.state = .kExpectBody ∧ p.request.getHeader (ascii "Content-Length") = [] ∧
      q = { p with context := ⟨.kGotAll⟩ }) ∨
    (p.context.state = .kExpectBody ∧ p.request.getHeader (ascii "Content-Length") ≠ [] ∧
      ∃ len, stoul (p.request.getHeader (ascii "Content-Length")) = .ok len ∧
      len ≤ p.buf.readableBytes ∧
      q = { p with
        context := ⟨.kGotAll⟩
        buf := (p.buf.readAsString len).2
        request := p.request.setBody (p.buf.readAsString len).1 }) := by
  rw [parseTurn] at h
  split at h
  · rename_i hs
    split at h
    · contradiction
    · rename_i line buf hline
      split at h
      · contradiction
      · rename_i request haccept
        exact .inl ⟨hs, line, buf, request, hline, haccept, (Turn.again.inj h).symm⟩
  · rename_i hs
    split at h
    · contradiction
    · rename_i line buf hline
      split at h
      · rename_i hempty
        subst hempty
        exact .inr (.inl ⟨hs, buf, hline, (Turn.again.inj h).symm⟩)
      · rename_i hne
        exact .inr (.inr (.inl ⟨hs, line, buf, hline, hne, (Turn.again.inj h).symm⟩))
  · rename_i hs
    dsimp only at h
    split at h
    · rename_i hempty
      exact .inr (.inr (.inr (.inl ⟨hs, hempty, (Turn.again.inj h).symm⟩)))
    · rename_i hne
      split at h
      · contradiction
      · rename_i len hlen
        split at h
        · rename_i hle
          exact .inr (.inr (.inr (.inr ⟨hs, hne, len, hlen, hle, (Turn.again.inj h).symm⟩)))
        · contradiction
  · contradiction

/-- What ends a call: a rejected request line, a length `std::stoul` throws on, or the last
state. -/
theorem parseTurn_leave_cases {p q : Parsing} {r : ParseResult} (h : parseTurn p = .leave q r) :
    (p.context.state = .kExpectRequestLine ∧ r = .ok true ∧ ∃ line buf request,
      takeLine p.buf = some (line, buf) ∧ parseRequestLine line p.request = (false, request) ∧
      q = { p with buf, request, response := badRequest p.response }) ∨
    (p.context.state = .kExpectBody ∧ q = p ∧
      p.request.getHeader (ascii "Content-Length") ≠ [] ∧
      ∃ e, stoul (p.request.getHeader (ascii "Content-Length")) = .error e ∧ r = .error e) ∨
    (p.context.state = .kGotAll ∧ q = p ∧ r = .ok true) := by
  rw [parseTurn] at h
  split at h
  · rename_i hs
    split at h
    · contradiction
    · rename_i line buf hline
      split at h
      · rename_i request hreject
        obtain ⟨hq, hr⟩ := Turn.leave.inj h
        exact .inl ⟨hs, hr.symm, line, buf, request, hline, hreject, hq.symm⟩
      · contradiction
  · split at h
    · contradiction
    · split at h <;> contradiction
  · rename_i hs
    dsimp only at h
    split at h
    · contradiction
    · rename_i hne
      split at h
      · rename_i e he
        obtain ⟨hq, hr⟩ := Turn.leave.inj h
        exact .inr (.inl ⟨hs, hq.symm, hne, e, he, hr.symm⟩)
      · split at h <;> contradiction
  · rename_i hs
    obtain ⟨hq, hr⟩ := Turn.leave.inj h
    exact .inr (.inr ⟨hs, hq.symm, hr.symm⟩)

/-- A starving turn hands back the state it was given. -/
theorem parseTurn_starve {p q : Parsing} (h : parseTurn p = .starve q) :
    q = p ∧ p.context.state ≠ .kGotAll := by
  rw [parseTurn] at h
  split at h
  · rename_i hs
    split at h
    · exact ⟨(Turn.starve.inj h).symm, by rw [hs]; decide⟩
    · split at h <;> contradiction
  · rename_i hs
    split at h
    · exact ⟨(Turn.starve.inj h).symm, by rw [hs]; decide⟩
    · split at h <;> contradiction
  · rename_i hs
    dsimp only at h
    split at h
    · contradiction
    · split at h
      · contradiction
      · split at h
        · contradiction
        · exact ⟨(Turn.starve.inj h).symm, by rw [hs]; decide⟩
  · contradiction

/-- A turn that goes on takes a line or ends the body state. -/
theorem parseTurn_lowers (p q : Parsing) (h : parseTurn p = .again q) :
    parseMeasure q < parseMeasure p := by
  have hrank (s : HttpRequestParseState) : (if s = .kGotAll then 0 else 1) ≤ 1 := by
    split <;> omega
  rcases parseTurn_again_cases h with ⟨hs, line, buf, request, hline, -, rfl⟩ |
    ⟨hs, buf, hline, rfl⟩ | ⟨hs, line, buf, hline, -, rfl⟩ | ⟨hs, -, rfl⟩ |
    ⟨hs, -, len, -, -, rfl⟩
  · have hshort := takeLine_shortens hline
    simp only [parseMeasure, hs, reduceCtorEq, ite_false]
    omega
  · have hshort := takeLine_shortens hline
    have := hrank (stateAfterHeaders p.request.method)
    simp only [parseMeasure, hs]
    omega
  · have hshort := takeLine_shortens hline
    simp only [parseMeasure, hs]
    omega
  · simp only [parseMeasure, hs, reduceCtorEq, ite_true, ite_false]
    omega
  · have hle : (p.buf.readAsString len).2.readableBytes ≤ p.buf.readableBytes := by
      rw [← Buffer.length_readable, ← Buffer.length_readable,
        Buffer.readable_readAsString, List.length_drop]
      exact Nat.sub_le _ _
    simp only [parseMeasure, hs, reduceCtorEq, ite_true, ite_false]
    omega

/-- The `while` loop of `parse`. -/
def parseLoop : ReadLoop Parsing ParseResult where
  body := parseTurn
  measure := parseMeasure
  lowers := parseTurn_lowers

/-- The value `parse` delivers when its loop has ended. -/
def parseResult : ReadLoop.Exit ParseResult → HttpContext → ParseResult
  | .left r, _ => r
  | .starved, context => .ok (context.state = .kGotAll)

/-- `HttpContext::parse`. -/
def parse (p : Parsing) : Parsing × ParseResult :=
  ((parseLoop.run p).1, parseResult (parseLoop.run p).2 (parseLoop.run p).1.context)

end ClearMoon.Http

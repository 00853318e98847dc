import ClearMoon.Http.Incremental

/-!
# Complete requests on the wire

A `WireRequest` is a request as a client sends it: a request line, header lines with arbitrary
white space behind the colon, and the body its framing announces. From a fresh context and
request, `parse` consumes exactly the serialised request, whatever follows it, and yields the
request it denotes.
-/

namespace ClearMoon.Http

open ClearMoon.Net

/-- The text of a version. -/
def versionToString : HttpVersion → Bytes
  | .kHttp10 => ascii "HTTP/1.0"
  | .kHttp11 => ascii "HTTP/1.1"
  | .kUnknown => []

/-- The name under which the body length is stored. -/
def contentLength : Bytes := ascii "Content-Length"

/-- A byte that ends no line. -/
def notCRLF (b : UInt8) : Prop := b ≠ 13 ∧ b ≠ 10

/-- A plain string of decimal digits denoting a number that fits `size_t`. -/
def PlainLength (s : Bytes) : Prop :=
  s ≠ [] ∧ (∀ b ∈ s, isDigit b = true) ∧ decimalValue s < sizeLimit

instance (s : Bytes) : Decidable (PlainLength s) := by unfold PlainLength; infer_instance

instance (b : UInt8) : Decidable (notCRLF b) := by unfold notCRLF; infer_instance

/-- A digit is neither white space nor a sign. -/
theorem isSpace_of_isDigit {b : UInt8} (h : isDigit b = true) :
    isSpace b = false ∧ b ≠ 45 ∧ b ≠ 43 := by
  simp only [isDigit, decide_eq_true_eq, UInt8.le_iff_toNat_le] at h
  simp only [isSpace, decide_eq_false_iff_not, ← UInt8.toNat_inj, UInt8.le_iff_toNat_le, ne_eq]
  simp only [UInt8.toNat_ofNat] at *
  omega

/-- On a plain length `std::stoul` returns the number. -/
theorem stoul_of_plain {s : Bytes} (h : PlainLength s) : stoul s = .ok (decimalValue s) := by
  obtain ⟨hne, hdigits, hlt⟩ := h
  cases s with
  | nil => exact absurd rfl hne
  | cons b s =>
    obtain ⟨hspace, hminus, hplus⟩ := isSpace_of_isDigit (hdigits b List.mem_cons_self)
    have hsign : stripSign (b :: s) = (false, b :: s) := by
      rw [stripSign]
      · rintro ds ⟨⟩
        exact hminus rfl
      · rintro ds ⟨⟩
        exact hplus rfl
    have htake : (b :: s).takeWhile isDigit = b :: s := List.takeWhile_eq_self_iff.mpr hdigits
    rw [stoul, List.dropWhile_cons, hspace, if_neg (by decide), hsign]
    dsimp only
    rw [htake, if_neg hne, if_neg (by omega)]
    rfl

/-- The framing rule: a `POST`, `PUT` or `PATCH` announces its body with a plain length or has
none, the other methods have none. -/
def Framed (method : HttpMethod) (headers : Headers) (body : Bytes) : Prop :=
  (method.hasBody = true ∧ contentLength ∈ headers ∧ PlainLength (headers.get contentLength) ∧
    decimalValue (headers.get contentLength) = body.length) ∨
  ((method.hasBody = true → contentLength ∉ headers) ∧ body = [])

/-- A header line as sent: the name, and everything behind the colon. -/
structure Field where
  name : Bytes
  value : Bytes
  name_ok : ∀ b ∈ name, b ≠ colon ∧ notCRLF b
  value_ok : ∀ b ∈ value, notCRLF b

/-- The bytes of a header line. -/
def Field.line (f : Field) : Bytes := f.name ++ colon :: f.value

/-- The header map a sequence of fields leaves behind: a later field replaces an earlier one of
the same name. -/
def storeFields (fields : List Field) (headers : Headers) : Headers :=
  fields.foldl (fun h f => h.insert f.name (trimLeading f.value)) headers

/-- A complete well-formed request. -/
structure WireRequest where
  method : HttpMethod
  url : Bytes
  version : HttpVersion
  fields : List Field
  body : Bytes
  method_ok : method ≠ .kInvalid
  url_ne : url ≠ []
  url_ok : ∀ b ∈ url, b ≠ space ∧ notCRLF b
  version_ok : version ≠ .kUnknown
  framed : Framed method (storeFields fields ∅) body

namespace WireRequest

/-- The first line, without its CRLF. -/
def requestLine (r : WireRequest) : Bytes :=
  methodToString r.method ++ space :: (r.url ++ space :: versionToString r.version)

/-- The header lines, each with its CRLF. -/
def headerBlock (fields : List Field) : Bytes := fields.flatMap fun f => f.line ++ kCRLF

/-- The bytes of the request. -/
def serialize (r : WireRequest) : Bytes :=
  r.requestLine ++ kCRLF ++ (headerBlock r.fields ++ kCRLF ++ r.body)

/-- The request a server is to see. -/
def toRequest (r : WireRequest) : HttpRequest :=
  ((storeUrl r.url (HttpRequest.setMethod {} r.method)).setVersion r.version).setBody r.body
    |> fun q => { q with headers := storeFields r.fields ∅ }

end WireRequest

/-! ## Lines -/

/-- A complete line in front is taken, and exactly it. -/
theorem takeLine_of_readable {buf : Buffer} {line rest : Bytes} (hline : (13 : UInt8) ∉ line)
    (h : buf.readable = line ++ kCRLF ++ rest) :
    ∃ buf', takeLine buf = some (line, buf') ∧ buf'.readable = rest := by
  have hfind : buf.findCRLF = some line.length := by
    rw [Buffer.findCRLF, h]
    exact search_of_notMem hline rest
  refine ⟨buf.retrieve (line.length + 2), ?_, ?_⟩
  · rw [takeLine, hfind, Option.map_some, h, List.append_assoc, List.take_left' rfl]
  · rw [Buffer.readable_retrieve, h, List.drop_left' (by simp [kCRLF])]

/-- A method is read back from its name. -/
theorem stringToMethod_methodToString {m : HttpMethod} (h : m ≠ .kInvalid) :
    stringToMethod (methodToString m) = m := by
  cases m <;> first | exact absurd rfl h | decide

/-- Method names contain neither a space nor a CR. -/
theorem notMem_methodToString (m : HttpMethod) :
    space ∉ methodToString m ∧ (13 : UInt8) ∉ methodToString m := by
  cases m <;> decide

/-- Version names contain neither a space nor a CR. -/
theorem notMem_versionToString (v : HttpVersion) :
    space ∉ versionToString v ∧ (13 : UInt8) ∉ versionToString v := by
  cases v <;> decide

/-- What stands behind a delimiter. -/
private theorem drop_delimiter (before after : Bytes) (c : UInt8) :
    (before ++ c :: after).drop (before.length + 1) = after := by
  rw [← List.drop_drop, List.drop_left' rfl]
  rfl

/-- A well-formed first line is accepted and its parts are stored. -/
theorem parseRequestLine_wellFormed {m : HttpMethod} {url : Bytes} {v : HttpVersion}
    (hm : m ≠ .kInvalid) (hurl : url ≠ []) (hv : v ≠ .kUnknown) (request : HttpRequest) :
    parseRequestLine (methodToString m ++ space :: (url ++ space :: versionToString v)) request =
      (true, (storeUrl url (request.setMethod m)).setVersion v) := by
  have hpos : 0 < url.length := List.length_pos_iff.mpr hurl
  have hfirst : (methodToString m ++ space :: (url ++ space :: versionToString v)).idxOf? space =
      some (methodToString m).length :=
    idxOf?_of_notMem (notMem_methodToString m).1 _
  have hlast : rfind space (methodToString m ++ space :: (url ++ space :: versionToString v)) =
      some ((methodToString m).length + 1 + url.length) := by
    have := rfind_of_notMem (notMem_versionToString v).1 (methodToString m ++ space :: url)
    simpa [Nat.add_assoc, Nat.add_comm, Nat.add_left_comm] using this
  have hurlCut : ((methodToString m ++ space :: (url ++ space :: versionToString v)).drop
      ((methodToString m).length + 1)).take
        ((methodToString m).length + 1 + url.length - (methodToString m).length - 1) = url := by
    rw [drop_delimiter, List.take_left' (by omega)]
  have hversionCut : (methodToString m ++ space :: (url ++ space :: versionToString v)).drop
      ((methodToString m).length + 1 + url.length + 1) = versionToString v := by
    have := drop_delimiter (methodToString m ++ space :: url) (versionToString v) space
    simpa [Nat.add_assoc, Nat.add_comm, Nat.add_left_comm] using this
  rw [parseRequestLine, hfirst]
  dsimp only
  rw [List.take_left' rfl, stringToMethod_methodToString hm, if_neg hm, hlast]
  dsimp only
  rw [if_neg (by omega), hurlCut, hversionCut]
  cases v with
  | kUnknown => exact absurd rfl hv
  | kHttp10 => rw [if_neg (by decide), if_pos (by decide)]
  | kHttp11 => rw [if_pos (by decide)]

/-- A header line is stored under its name, without the blanks in front of the value. -/
theorem storeHeaderLine_line (f : Field) (request : HttpRequest) :
    storeHeaderLine f.line request = request.setHeader f.name (trimLeading f.value) := by
  have hcolon : f.line.idxOf? colon = some f.name.length :=
    idxOf?_of_notMem (fun h => (f.name_ok colon h).1 rfl) _
  rw [storeHeaderLine, hcolon]
  dsimp only
  rw [Field.line, List.take_left' rfl, drop_delimiter]

/-- A header line has its colon, so that it is not the empty one. -/
theorem Field.line_ne_nil (f : Field) : f.line ≠ [] := by simp [Field.line]

/-- A header line contains no CR. -/
theorem Field.notMem_line (f : Field) : (13 : UInt8) ∉ f.line := by
  intro h
  rcases List.mem_append.mp h with h | h
  · exact (f.name_ok 13 h).2.1 rfl
  · rcases List.mem_cons.mp h with h | h
    · exact absurd h (by decide)
    · exact (f.value_ok 13 h).1 rfl

/-- A request line whose target contains no CR contains none. -/
theorem notMem_requestLine (method : HttpMethod) {url : Bytes} (version : HttpVersion)
    (hurl : 13 ∉ url) :
    (13 : UInt8) ∉ methodToString method ++ space :: (url ++ space :: versionToString version) := by
  intro h
  rcases List.mem_append.mp h with h | h
  · exact (notMem_methodToString method).2 h
  · rcases List.mem_cons.mp h with h | h
    · exact absurd h (by decide)
    · rcases List.mem_append.mp h with h | h
      · exact hurl h
      · rcases List.mem_cons.mp h with h | h
        · exact absurd h (by decide)
        · exact (notMem_versionToString version).2 h

/-- A request line of the grammar has no line end inside. -/
theorem WireRequest.notMem_requestLine (r : WireRequest) : (13 : UInt8) ∉ r.requestLine :=
  Http.notMem_requestLine r.method r.version fun h => (r.url_ok 13 h).2.1 rfl

end ClearMoon.Http

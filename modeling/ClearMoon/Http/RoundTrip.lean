import ClearMoon.Http.Grammar

/-!
# The parser inverts the serialiser

The loop is followed over a serialised request: the request line, the header lines by induction
on the list of fields, the empty line, and the body its framing announces. What stands behind the
request stays in the buffer, so the framing of the next request is not disturbed.
-/

namespace ClearMoon.Http

open ClearMoon.Net

/-- The loop takes an accepted request line. -/
theorem run_requestLine {p : Parsing} {line t : Bytes} {request : HttpRequest}
    (hs : p.context.state = .kExpectRequestLine) (hline : (13 : UInt8) ∉ line)
    (hbuf : p.buf.readable = line ++ kCRLF ++ t)
    (haccept : parseRequestLine line p.request = (true, request)) :
    ∃ buf, parseLoop.run p = parseLoop.run { p with context := ⟨.kExpectHeaders⟩, buf, request } ∧
      buf.readable = t := by
  obtain ⟨buf, htake, hrest⟩ := takeLine_of_readable hline hbuf
  refine ⟨buf, parseLoop.run_again ?_, hrest⟩
  simp only [parseLoop, parseTurn, hs, htake, haccept]

/-- The loop takes one header line. -/
theorem run_field {p : Parsing} {f : Field} {t : Bytes}
    (hs : p.context.state = .kExpectHeaders) (hbuf : p.buf.readable = f.line ++ kCRLF ++ t) :
    ∃ buf, parseLoop.run p = parseLoop.run
        { p with buf, request := p.request.setHeader f.name (trimLeading f.value) } ∧
      buf.readable = t := by
  obtain ⟨buf, htake, hrest⟩ := takeLine_of_readable f.notMem_line hbuf
  refine ⟨buf, parseLoop.run_again ?_, hrest⟩
  simp only [parseLoop, parseTurn, hs, htake, if_neg f.line_ne_nil, storeHeaderLine_line]

/-- The loop takes all header lines, in order. -/
theorem run_fields {fields : List Field} {p : Parsing} {t : Bytes}
    (hs : p.context.state = .kExpectHeaders)
    (hbuf : p.buf.readable = WireRequest.headerBlock fields ++ t) :
    ∃ buf, parseLoop.run p = parseLoop.run
        { p with
          buf
          request := { p.request with headers := storeFields fields p.request.headers } } ∧
      buf.readable = t := by
  induction fields generalizing p with
  | nil => exact ⟨p.buf, rfl, by simpa [WireRequest.headerBlock] using hbuf⟩
  | cons f fields ih =>
    obtain ⟨buf₁, hrun₁, hbuf₁⟩ := run_field (f := f) hs
      (t := WireRequest.headerBlock fields ++ t)
      (by rw [hbuf]; simp only [WireRequest.headerBlock, List.flatMap_cons, List.append_assoc])
    obtain ⟨buf₂, hrun₂, hbuf₂⟩ := ih
      (p := { p with
        buf := buf₁
        request := p.request.setHeader f.name (trimLeading f.value) }) hs hbuf₁
    exact ⟨buf₂, hrun₁.trans hrun₂, hbuf₂⟩

/-- The loop takes the empty line behind the headers. -/
theorem run_blankLine {p : Parsing} {t : Bytes} (hs : p.context.state = .kExpectHeaders)
    (hbuf : p.buf.readable = kCRLF ++ t) :
    ∃ buf, parseLoop.run p =
        parseLoop.run { p with context := ⟨stateAfterHeaders p.request.method⟩, buf } ∧
      buf.readable = t := by
  obtain ⟨buf, htake, hrest⟩ :=
    takeLine_of_readable (show (13 : UInt8) ∉ ([] : Bytes) by simp) (by simpa using hbuf)
  refine ⟨buf, parseLoop.run_again ?_, hrest⟩
  simp only [parseLoop, parseTurn, hs, htake, ite_true]

/-- From the last state the loop leaves with `true`. -/
theorem run_gotAll {p : Parsing} (hs : p.context.state = .kGotAll) :
    parseLoop.run p = (p, .left (.ok true)) :=
  parseLoop.run_leave (by simp only [parseLoop, parseTurn, hs])

/-- A plain length is not the empty string the getter returns for an absent header. -/
theorem PlainLength.ne_nil {s : Bytes} (h : PlainLength s) : s ≠ [] := h.1

/-- Behind the headers, the loop consumes exactly the body the framing announces. -/
theorem run_framed {p : Parsing} {b t : Bytes}
    (hs : p.context.state = stateAfterHeaders p.request.method)
    (hframed : Framed p.request.method p.request.headers b) (hbody : p.request.body = [])
    (hbuf : p.buf.readable = b ++ t) :
    ∃ buf, parseLoop.run p =
        ({ p with context := ⟨.kGotAll⟩, buf, request := p.request.setBody b },
          .left (.ok true)) ∧ buf.readable = t := by
  rcases hframed with ⟨hm, hmem, hplain, hlen⟩ | ⟨hno, hnil⟩
  · -- the length is announced, and all of the body has arrived
    have hs' : p.context.state = .kExpectBody := by rw [hs, stateAfterHeaders, if_pos hm]
    have hle : b.length ≤ p.buf.readableBytes := by
      rw [← Buffer.length_readable, hbuf, List.length_append]
      omega
    refine ⟨(p.buf.readAsString b.length).2, ?_, ?_⟩
    · rw [← run_gotAll (p := { p with
        context := ⟨.kGotAll⟩
        buf := (p.buf.readAsString b.length).2
        request := p.request.setBody b }) rfl]
      apply parseLoop.run_again
      have hget : p.request.getHeader (ascii "Content-Length") =
          p.request.headers.get contentLength := rfl
      simp only [parseLoop, parseTurn, hs', hget, if_neg hplain.ne_nil, stoul_of_plain hplain,
        hlen, if_pos hle, Buffer.readAsString_fst, hbuf, List.take_left' rfl]
    · rw [Buffer.readable_readAsString, hbuf, List.drop_left' rfl]
  · -- there is no body to read
    subst hnil
    have hset : p.request.setBody [] = p.request := by
      rw [HttpRequest.setBody, ← hbody]
    rw [hset]
    refine ⟨p.buf, ?_, by simpa using hbuf⟩
    cases hm : p.request.method.hasBody with
    | true =>
      have hs' : p.context.state = .kExpectBody := by rw [hs, stateAfterHeaders, if_pos hm]
      have hget : p.request.getHeader (ascii "Content-Length") = [] := by
        change (p.request.headers[contentLength]?).getD [] = []
        rw [Std.ExtTreeMap.getElem?_eq_none (hno hm), Option.getD_none]
      rw [← run_gotAll (p := { p with context := ⟨.kGotAll⟩ }) rfl]
      apply parseLoop.run_again
      simp only [parseLoop, parseTurn, hs', hget, ite_true]
    | false =>
      have hs' : p.context.state = .kGotAll := by
        rw [hs, stateAfterHeaders, hm, if_neg Bool.false_ne_true]
      have hp : ({ p with context := ⟨.kGotAll⟩ } : Parsing) = p := by rw [← hs']
      rw [hp, run_gotAll hs']

/-- Storing the URL leaves method and headers alone, and an empty body empty. -/
theorem storeUrl_frame (url : Bytes) (request : HttpRequest) :
    (storeUrl url request).method = request.method ∧
      (storeUrl url request).headers = request.headers ∧
      (storeUrl url request).body = request.body := by
  rw [storeUrl]
  split <;> exact ⟨rfl, rfl, rfl⟩

/-- A complete request in front of the buffer is consumed exactly and yields the request it
denotes, whatever stands behind it. -/
theorem WireRequest.run_serialize (r : WireRequest) {buf : Buffer} {t : Bytes}
    (hbuf : buf.readable = r.serialize ++ t) (response : HttpResponse) :
    ∃ buf', parseLoop.run ⟨{}, buf, {}, response⟩ =
        (⟨⟨.kGotAll⟩, buf', r.toRequest, response⟩, .left (.ok true)) ∧ buf'.readable = t := by
  obtain ⟨hmethod, hheaders, hbody⟩ := storeUrl_frame r.url (HttpRequest.setMethod {} r.method)
  obtain ⟨buf₁, hrun₁, hbuf₁⟩ := run_requestLine (p := ⟨{}, buf, {}, response⟩)
    (t := headerBlock r.fields ++ (kCRLF ++ (r.body ++ t))) rfl r.notMem_requestLine
    (by rw [hbuf, serialize]; simp only [List.append_assoc])
    (parseRequestLine_wellFormed r.method_ok r.url_ne r.version_ok {})
  obtain ⟨buf₂, hrun₂, hbuf₂⟩ := run_fields (p := ⟨⟨.kExpectHeaders⟩, buf₁,
    (storeUrl r.url (HttpRequest.setMethod {} r.method)).setVersion r.version, response⟩) rfl hbuf₁
  obtain ⟨buf₃, hrun₃, hbuf₃⟩ := run_blankLine (p := ⟨⟨.kExpectHeaders⟩, buf₂,
    { (storeUrl r.url (HttpRequest.setMethod {} r.method)).setVersion r.version with
      headers := storeFields r.fields
        (storeUrl r.url (HttpRequest.setMethod {} r.method)).headers },
    response⟩) rfl hbuf₂
  obtain ⟨buf₄, hrun₄, hbuf₄⟩ := run_framed (b := r.body) (t := t)
    (p := ⟨⟨stateAfterHeaders (storeUrl r.url (HttpRequest.setMethod {} r.method)).method⟩, buf₃,
      { (storeUrl r.url (HttpRequest.setMethod {} r.method)).setVersion r.version with
        headers := storeFields r.fields
          (storeUrl r.url (HttpRequest.setMethod {} r.method)).headers }, response⟩)
    rfl
    (by
      change Framed (storeUrl r.url (HttpRequest.setMethod {} r.method)).method
        (storeFields r.fields (storeUrl r.url (HttpRequest.setMethod {} r.method)).headers) r.body
      rw [hmethod, hheaders]
      exact r.framed)
    hbody hbuf₃
  refine ⟨buf₄, ?_, hbuf₄⟩
  refine hrun₁.trans (hrun₂.trans (hrun₃.trans (hrun₄.trans ?_)))
  rw [toRequest, hheaders]
  rfl

/-- The same, for a whole call of `parse`. -/
theorem WireRequest.parse_serialize (r : WireRequest) {buf : Buffer} {t : Bytes}
    (hbuf : buf.readable = r.serialize ++ t) (response : HttpResponse) :
    ∃ buf', parse ⟨{}, buf, {}, response⟩ =
        (⟨⟨.kGotAll⟩, buf', r.toRequest, response⟩, .ok true) ∧ buf'.readable = t := by
  obtain ⟨buf', hrun, hrest⟩ := r.run_serialize hbuf response
  exact ⟨buf', by rw [parse, hrun]; rfl, hrest⟩

/-! ## Decimal lengths -/

/-- A decimal digit is a byte, and a digit of the parser. -/
private theorem toNat_digit {c : Char} (h : c.isDigit = true) :
    c.toUInt8.toNat = c.toNat ∧ isDigit c.toUInt8 = true := by
  simp only [Char.isDigit, ge_iff_le, Bool.and_eq_true, decide_eq_true_eq,
    UInt32.le_iff_toNat_le, Char.toNat_val] at h
  have hlow : '0'.toNat = 48 := rfl
  have hhigh : '9'.toNat = 57 := rfl
  have hnat : c.toUInt8.toNat = c.toNat := by
    simp only [Char.toUInt8, UInt32.toNat_toUInt8, Char.toNat_val]
    omega
  refine ⟨hnat, ?_⟩
  simp only [isDigit, decide_eq_true_eq, UInt8.le_iff_toNat_le, hnat, UInt8.toNat_ofNat]
  omega

/-- Reading back the digits of a number gives the number. -/
theorem decimalValue_decimal (n : Nat) : decimalValue (decimal n) = n := by
  have hfold (cs : List Char) (hcs : ∀ c ∈ cs, c.isDigit = true) (m : Nat) :
      (cs.map Char.toUInt8).foldl (fun n d => n * 10 + (d.toNat - 48)) m =
        Nat.ofDigitChars 10 cs m := by
    induction cs generalizing m with
    | nil => rfl
    | cons c cs ih =>
      rw [List.map_cons, List.foldl_cons, Nat.ofDigitChars_cons,
        ih fun d hd => hcs d (List.mem_cons_of_mem _ hd),
        (toNat_digit (hcs c List.mem_cons_self)).1, Nat.mul_comm m 10]
      rfl
  rw [decimalValue, decimal,
    hfold _ fun c hc => Nat.isDigit_of_mem_toDigits (by decide) (by decide) hc]
  exact Nat.ofDigitChars_ten_toDigits

/-- The digits of a number are digits of the parser. -/
theorem isDigit_of_mem_decimal {n : Nat} {b : UInt8} (h : b ∈ decimal n) : isDigit b = true := by
  obtain ⟨c, hc, rfl⟩ := List.mem_map.mp h
  exact (toNat_digit (Nat.isDigit_of_mem_toDigits (by decide) (by decide) hc)).2

/-- The decimal digits of a number that fits `size_t` are a plain length. -/
theorem plainLength_decimal {n : Nat} (h : n < sizeLimit) : PlainLength (decimal n) := by
  refine ⟨?_, fun b hb => isDigit_of_mem_decimal hb, by rwa [decimalValue_decimal]⟩
  rw [decimal, Ne, List.map_eq_nil_iff]
  exact Nat.toDigits_ne_nil

/-- The entries of a header map, stored in any order, give the map. -/
theorem Headers.ofList_of_perm {headers : Headers} {fields : List (Bytes × Bytes)}
    (h : fields.Perm headers.toList) : Std.ExtTreeMap.ofList fields = headers := by
  have hdistinct : fields.Pairwise fun a b => ¬compare a.1 b.1 = .eq :=
    h.symm.pairwise Std.ExtTreeMap.distinct_keys_toList fun h e => h (Std.OrientedCmp.eq_symm e)
  apply Std.ExtTreeMap.ext_getElem?
  intro k
  cases hk : headers[k]? with
  | some v =>
    have hmem : (k, v) ∈ fields :=
      h.mem_iff.mpr (Std.ExtTreeMap.mem_toList_iff_getElem?_eq_some.mpr hk)
    exact Std.ExtTreeMap.getElem?_ofList_of_mem Std.ReflCmp.compare_self hdistinct hmem
  | none =>
    apply Std.ExtTreeMap.getElem?_ofList_of_contains_eq_false
    rw [← Bool.not_eq_true, List.contains_iff_mem, List.mem_map]
    rintro ⟨⟨k', v⟩, hmem, rfl⟩
    have := Std.ExtTreeMap.mem_toList_iff_getElem?_eq_some.mp (h.mem_iff.mp hmem)
    rw [hk] at this
    contradiction

/-! ## The round trip -/

/-- A request by its parts, in the format of the round trip: every header is written once, with
one blank behind the colon, in any order. -/
structure PlainRequest where
  method : HttpMethod
  path : Bytes
  query : Option Bytes
  version : HttpVersion
  headers : Headers
  /-- The headers, in the order in which they are written. -/
  fields : List (Bytes × Bytes)
  body : Bytes
  method_ok : method ≠ .kInvalid
  path_ok : ∀ b ∈ path, b ≠ space ∧ b ≠ qmark ∧ notCRLF b
  query_ok : ∀ q ∈ query, ∀ b ∈ q, b ≠ space ∧ notCRLF b
  target_ne : path ≠ [] ∨ query ≠ none
  version_ok : version ≠ .kUnknown
  fields_perm : fields.Perm headers.toList
  name_ok : ∀ f ∈ fields, ∀ b ∈ f.1, b ≠ colon ∧ notCRLF b
  value_ok : ∀ f ∈ fields, ∀ b ∈ f.2, notCRLF b
  value_head : ∀ f ∈ fields, ∃ b ∈ f.2.head?, notBlank b = true
  body_ok : if method.hasBody then
      (headers[contentLength]? = some (decimal body.length) ∧ body.length < sizeLimit) ∨
        (contentLength ∉ headers ∧ body = [])
    else body = []

namespace PlainRequest

/-- The request target: the path, and the query behind a question mark. -/
def target (r : PlainRequest) : Bytes :=
  match r.query with
  | none => r.path
  | some q => r.path ++ qmark :: q

/-- The bytes of the request. -/
def serialize (r : PlainRequest) : Bytes :=
  methodToString r.method ++ ascii " " ++ r.target ++ ascii " " ++ versionToString r.version ++
    kCRLF ++ (r.fields.flatMap fun f => f.1 ++ ascii ": " ++ f.2 ++ kCRLF) ++ kCRLF ++ r.body

/-- The fields as header lines, with the blank in front of the value. -/
def wireFields (r : PlainRequest) : List Field :=
  r.fields.attach.map fun f =>
    { name := f.1.1
      value := space :: f.1.2
      name_ok := r.name_ok f.1 f.2
      value_ok := by
        intro b hb
        rcases List.mem_cons.mp hb with rfl | hb
        · decide
        · exact r.value_ok f.1 f.2 b hb }

/-- The blank is trimmed, and nothing of the value. -/
theorem trimLeading_value {v : Bytes} (h : ∃ b ∈ v.head?, notBlank b = true) :
    trimLeading (space :: v) = v := by
  obtain ⟨b, hb, hblank⟩ := h
  cases v with
  | nil => contradiction
  | cons c v =>
    obtain rfl : c = b := by simpa using hb
    have hfind : (space :: c :: v).findIdx? notBlank = some 1 := by
      rw [List.findIdx?_cons, if_neg (by decide), List.findIdx?_cons, if_pos hblank]
      rfl
    rw [trimLeading, hfind]
    rfl

/-- Storing the header lines one by one rebuilds the header map. -/
theorem storeFields_wireFields (r : PlainRequest) : storeFields r.wireFields ∅ = r.headers := by
  have hfold : storeFields r.wireFields ∅ = Std.ExtTreeMap.ofList r.fields := by
    have htrim : (fun (h : Headers) (f : { f // f ∈ r.fields }) =>
        h.insert f.1.1 (trimLeading (space :: f.1.2))) = fun h f => h.insert f.1.1 f.1.2 := by
      funext h f
      rw [trimLeading_value (r.value_head f.1 f.2)]
    rw [storeFields, wireFields, List.foldl_map, htrim, Std.ExtTreeMap.ofList_eq_foldl]
    exact List.foldl_attach (f := fun (h : Headers) (g : Bytes × Bytes) => h.insert g.1 g.2)
  rw [hfold, Headers.ofList_of_perm r.fields_perm]

/-- The same request on the wire. -/
def toWire (r : PlainRequest) : WireRequest where
  method := r.method
  url := r.target
  version := r.version
  fields := r.wireFields
  body := r.body
  method_ok := r.method_ok
  url_ne := by
    rw [target]
    split
    · rename_i hq
      exact r.target_ne.resolve_right fun h => h hq
    · simp
  url_ok := by
    intro b hb
    rw [target] at hb
    split at hb
    · exact ⟨(r.path_ok b hb).1, (r.path_ok b hb).2.2⟩
    · rename_i q hq
      rcases List.mem_append.mp hb with hb | hb
      · exact ⟨(r.path_ok b hb).1, (r.path_ok b hb).2.2⟩
      · rcases List.mem_cons.mp hb with rfl | hb
        · decide
        · exact r.query_ok q hq b hb
  version_ok := r.version_ok
  framed := by
    rw [r.storeFields_wireFields]
    have hbody := r.body_ok
    split at hbody
    · rename_i hm
      rcases hbody with ⟨hget, hlt⟩ | ⟨hno, hnil⟩
      · have hvalue : r.headers.get contentLength = decimal r.body.length := by
          rw [Headers.get, hget]
          rfl
        refine .inl ⟨hm, Std.ExtTreeMap.mem_iff_isSome_getElem?.mpr (by rw [hget]; rfl), ?_⟩
        rw [hvalue]
        exact ⟨plainLength_decimal hlt, decimalValue_decimal _⟩
      · exact .inr ⟨fun _ => hno, hnil⟩
    · rename_i hm
      exact .inr ⟨fun h => absurd h hm, hbody⟩

/-- A plain request is serialised as its lines. -/
theorem serialize_toWire (r : PlainRequest) : r.toWire.serialize = r.serialize := by
  have hblank : ascii ": " = [colon, space] := by decide
  have hblock : WireRequest.headerBlock r.wireFields =
      r.fields.flatMap fun f => f.1 ++ ascii ": " ++ f.2 ++ kCRLF := by
    rw [WireRequest.headerBlock, wireFields, List.flatMap_map]
    conv_rhs => rw [← List.attach_map_subtype_val r.fields, List.flatMap_map]
    congr 1
    funext f
    simp [Field.line, hblank]
  have hspace : ascii " " = [space] := by decide
  rw [WireRequest.serialize, serialize, ← hblock]
  simp [WireRequest.requestLine, toWire, hspace]

/-- Splitting the target gives the path, and the query or nothing. -/
theorem storeUrl_target (r : PlainRequest) (request : HttpRequest) :
    storeUrl r.target request = { request with
      path := r.path, query := r.query.getD request.query } := by
  have hpath : qmark ∉ r.path := fun h => (r.path_ok qmark h).2.1 rfl
  rw [storeUrl, target]
  cases r.query with
  | none =>
    have hnone : r.path.idxOf? qmark = none := by simpa [List.idxOf?_eq_none_iff] using hpath
    rw [hnone]
    rfl
  | some q =>
    have hsome : (r.path ++ qmark :: q).idxOf? qmark = some r.path.length :=
      idxOf?_of_notMem hpath q
    rw [hsome]
    dsimp only
    rw [List.take_left' rfl, ← List.drop_drop, List.drop_left' rfl]
    rfl

/-- Parsing a serialised request with anything behind it, from a fresh context and request,
returns `true` in the last state with exactly the parts of the request, and leaves exactly what
stood behind it. -/
theorem parse_roundTrip (r : PlainRequest) {buf : Buffer} {t : Bytes}
    (hbuf : buf.readable = r.serialize ++ t) (response : HttpResponse) :
    (parse ⟨{}, buf, {}, response⟩).2 = .ok true ∧
      (parse ⟨{}, buf, {}, response⟩).1.context.state = .kGotAll ∧
      (parse ⟨{}, buf, {}, response⟩).1.request =
        { method := r.method, path := r.path, query := r.query.getD [], version := r.version,
          body := r.body, headers := r.headers } ∧
      (parse ⟨{}, buf, {}, response⟩).1.buf.readable = t := by
  obtain ⟨buf', hparse, hrest⟩ := r.toWire.parse_serialize (t := t)
    (by rw [serialize_toWire]; exact hbuf) response
  have hrequest : r.toWire.toRequest =
      { method := r.method, path := r.path, query := r.query.getD [], version := r.version,
        body := r.body, headers := r.headers } := by
    rw [WireRequest.toRequest]
    change { ((storeUrl r.target (HttpRequest.setMethod {} r.method)).setVersion
      r.version).setBody r.body with headers := storeFields r.wireFields ∅ } = _
    rw [storeUrl_target, storeFields_wireFields]
    rfl
  rw [hparse, hrequest]
  exact ⟨rfl, rfl, rfl, hrest⟩

/-- `POST /a?x HTTP/1.0` with a header of its own and a body that looks like an empty line. -/
def samplePost : PlainRequest where
  method := .kPost
  path := ascii "/a"
  query := some (ascii "x")
  version := .kHttp10
  headers := ((∅ : Headers).insert contentLength (ascii "4")).insert (ascii "A") (ascii "b: c")
  fields := [(contentLength, ascii "4"), (ascii "A", ascii "b: c")]
  body := kCRLF ++ kCRLF
  method_ok := by decide
  path_ok := by decide +kernel
  query_ok := by decide +kernel
  target_ne := by decide
  version_ok := by decide
  fields_perm := by decide +kernel
  name_ok := by decide +kernel
  value_ok := by decide +kernel
  value_head := by decide +kernel
  body_ok := by decide +kernel

/-- A `POST` with a body is taken whole, and the next bytes stay. -/
theorem parse_roundTrip_samplePost :
    (parse ⟨{}, Buffer.new.append (samplePost.serialize ++ ascii "GET"), {}, {}⟩).1.buf.readable =
      ascii "GET" :=
  (samplePost.parse_roundTrip (by simp) {}).2.2.2

end PlainRequest

end ClearMoon.Http

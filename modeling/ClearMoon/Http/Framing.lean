import ClearMoon.Http.RoundTrip

/-!
# Framing and the case of header names

The header map compares names byte by byte, and the body state asks it for `Content-Length` in
this spelling alone. Two serialisations of one request that differ in the case of a header name may
therefore announce different lengths, and what is the body of one is the next request of the other.
-/

namespace ClearMoon.Http

open ClearMoon.Net

/-! ## Letter case -/

/-- `tolower` in the C locale. -/
def toLower (b : UInt8) : UInt8 := if 65 ≤ b ∧ b ≤ 90 then b + 32 else b

/-- A name in lower case. -/
def lower (name : Bytes) : Bytes := name.map toLower

/-- A letter made small is small. -/
@[simp] theorem toLower_toLower (b : UInt8) : toLower (toLower b) = toLower b := by
  unfold toLower
  by_cases hb : 65 ≤ b ∧ b ≤ 90
  · rw [if_pos hb, if_neg]
    simp only [UInt8.le_iff_toNat_le, UInt8.toNat_add, UInt8.toNat_ofNat] at hb ⊢
    omega
  · rw [if_neg hb, if_neg hb]

/-- So is a name. -/
@[simp] theorem lower_lower (name : Bytes) : lower (lower name) = lower name := by
  simp [lower]

/-- Lower case neither makes a separator nor an end of line. -/
theorem toLower_ok {b : UInt8} (h : b ≠ colon ∧ notCRLF b) :
    toLower b ≠ colon ∧ notCRLF (toLower b) := by
  unfold toLower
  by_cases hb : 65 ≤ b ∧ b ≤ 90
  · rw [if_pos hb]
    simp only [notCRLF, colon, UInt8.le_iff_toNat_le, ne_eq, ← UInt8.toNat_inj,
      UInt8.toNat_add, UInt8.toNat_ofNat] at hb ⊢
    omega
  · rw [if_neg hb]
    exact h

/-- A name in lower case is not the name the parser asks for. -/
theorem lower_ne_contentLength (name : Bytes) : lower name ≠ contentLength := by
  intro h
  have hlower : lower contentLength = contentLength := by rw [← h, lower_lower]
  exact absurd hlower (by decide)

namespace Field

/-- The field with its name in lower case. -/
def toLower (f : Field) : Field where
  name := lower f.name
  value := f.value
  name_ok := by
    intro b hb
    obtain ⟨c, hc, rfl⟩ := List.mem_map.mp hb
    exact toLower_ok (f.name_ok c hc)
  value_ok := f.value_ok

/-- The field under the name the parser asks for. -/
def asContentLength (f : Field) : Field where
  name := contentLength
  value := f.value
  name_ok := by decide +kernel
  value_ok := f.value_ok

/-- The fields differ in the letter case of the name at most. -/
def Recased (f g : Field) : Prop := lower f.name = lower g.name ∧ f.value = g.value

/-- A line in small letters differs in the case of its name only. -/
theorem recased_toLower (f : Field) : f.Recased f.toLower := ⟨(lower_lower _).symm, rfl⟩

end Field

/-! ## Serialisations of a request -/

/-- A request up to its empty line. -/
structure RequestHead where
  method : HttpMethod
  url : Bytes
  version : HttpVersion
  fields : List Field
  method_ok : method ≠ .kInvalid
  url_ne : url ≠ []
  url_ok : ∀ b ∈ url, b ≠ space ∧ notCRLF b
  version_ok : version ≠ .kUnknown

namespace RequestHead

/-- The first line, without its CRLF. -/
def requestLine (r : RequestHead) : Bytes :=
  methodToString r.method ++ space :: (r.url ++ space :: versionToString r.version)

/-- The bytes of the head. -/
def serialize (r : RequestHead) : Bytes :=
  r.requestLine ++ kCRLF ++ (WireRequest.headerBlock r.fields ++ kCRLF)

/-- The same request, each header name in any case. -/
def Recased (r : RequestHead) (fields : List Field) : Prop :=
  List.Forall₂ Field.Recased r.fields fields

/-- The request with its headers spelled in another way. -/
def spell (r : RequestHead) (fields : List Field) : RequestHead := { r with fields }

/-- The length the parser takes the body to have: none is announced without a body, or without a
header that is spelled as the parser asks for it. -/
def announced (r : RequestHead) : Except StoulError Nat :=
  let contentLenStr := (storeFields r.fields ∅).get contentLength
  if r.method.hasBody = true ∧ contentLenStr ≠ [] then stoul contentLenStr else .ok 0

end RequestHead

/-- What a call of `parse` makes of its input: the return value or the exception, the body, and
what is left in the buffer. -/
def framing (p : Parsing × ParseResult) : ParseResult × Bytes × Bytes :=
  (p.2, p.1.request.body, p.1.buf.readable)

/-- The framing that an announced length gives of what stands behind the empty line. -/
def framed (announced : Except StoulError Nat) (rest : Bytes) : ParseResult × Bytes × Bytes :=
  match announced with
  | .error e => (.error e, [], rest)
  | .ok len => if len ≤ rest.length then (.ok true, rest.take len, rest.drop len)
    else (.ok false, [], rest)

/-- Behind the headers, the loop is done, or waits, or throws, by the announced length alone. -/
theorem parse_behindHeaders {p : Parsing} {rest : Bytes}
    (hs : p.context.state = stateAfterHeaders p.request.method)
    (hbody : p.request.body = []) (hbuf : p.buf.readable = rest) :
    framing ((parseLoop.run p).1,
        parseResult (parseLoop.run p).2 (parseLoop.run p).1.context) =
      framed (if p.request.method.hasBody = true ∧ p.request.headers.get contentLength ≠ [] then
        stoul (p.request.headers.get contentLength) else .ok 0) rest := by
  subst hbuf
  have hget : p.request.getHeader (ascii "Content-Length") =
    p.request.headers.get contentLength := rfl
  by_cases hm : p.request.method.hasBody = true
  · have hs' : p.context.state = .kExpectBody := by rw [hs, stateAfterHeaders, if_pos hm]
    by_cases hempty : p.request.headers.get contentLength = []
    · have hturn : parseLoop.body p = .again { p with context := ⟨.kGotAll⟩ } := by
        simp only [parseLoop, parseTurn, hs', hget, hempty, ite_true]
      rw [parseLoop.run_again hturn, run_gotAll rfl, if_neg (fun h => h.2 hempty)]
      simp [framing, framed, parseResult, hbody]
    · rw [if_pos ⟨hm, hempty⟩]
      cases hlen : stoul (p.request.headers.get contentLength) with
      | error e =>
        have hturn : parseLoop.body p = .leave p (.error e) := by
          simp only [parseLoop, parseTurn, hs', hget, if_neg hempty, hlen]
        rw [parseLoop.run_leave hturn]
        simp [framing, framed, parseResult, hbody]
      | ok len =>
        by_cases hle : len ≤ p.buf.readableBytes
        · have hturn : parseLoop.body p = .again { p with
              context := ⟨.kGotAll⟩
              buf := (p.buf.readAsString len).2
              request := p.request.setBody (p.buf.readAsString len).1 } := by
            simp only [parseLoop, parseTurn, hs', hget, if_neg hempty, hlen, if_pos hle]
          rw [parseLoop.run_again hturn, run_gotAll rfl]
          simp only [framing, framed, parseResult, HttpRequest.setBody, Buffer.length_readable,
            if_pos hle, Buffer.readAsString_fst, Buffer.readable_readAsString]
        · have hturn : parseLoop.body p = .starve p := by
            simp only [parseLoop, parseTurn, hs', hget, if_neg hempty, hlen, if_neg hle]
          rw [parseLoop.run_starve hturn]
          simp [framing, framed, parseResult, hbody, hs', hle]
  · have hs' : p.context.state = .kGotAll := by rw [hs, stateAfterHeaders, if_neg hm]
    rw [run_gotAll hs', if_neg (fun h => hm h.1)]
    simp [framing, framed, parseResult, hbody]

/-- The line of a request has no line end inside. -/
theorem RequestHead.notMem_requestLine (r : RequestHead) : (13 : UInt8) ∉ r.requestLine :=
  Http.notMem_requestLine r.method r.version fun h => (r.url_ok 13 h).2.1 rfl

/-- From a fresh state, `parse` frames what stands behind a head by the length it announces. -/
theorem RequestHead.framing_parse (r : RequestHead) {buf : Buffer} {rest : Bytes}
    (hbuf : buf.readable = r.serialize ++ rest) (response : HttpResponse) :
    framing (parse ⟨{}, buf, {}, response⟩) = framed r.announced rest := by
  obtain ⟨hmethod, hheaders, hbody⟩ := storeUrl_frame r.url (HttpRequest.setMethod {} r.method)
  obtain ⟨buf₁, hrun₁, hbuf₁⟩ := run_requestLine (p := ⟨{}, buf, {}, response⟩)
    (t := WireRequest.headerBlock r.fields ++ (kCRLF ++ rest)) rfl r.notMem_requestLine
    (by rw [hbuf, serialize]; simp only [List.append_assoc])
    (parseRequestLine_wellFormed r.method_ok r.url_ne r.version_ok {})
  obtain ⟨buf₂, hrun₂, hbuf₂⟩ := run_fields (p := ⟨⟨.kExpectHeaders⟩, buf₁,
    (storeUrl r.url (HttpRequest.setMethod {} r.method)).setVersion r.version, response⟩) rfl hbuf₁
  obtain ⟨buf₃, hrun₃, hbuf₃⟩ := run_blankLine (p := ⟨⟨.kExpectHeaders⟩, buf₂,
    { (storeUrl r.url (HttpRequest.setMethod {} r.method)).setVersion r.version with
      headers := storeFields r.fields
        (storeUrl r.url (HttpRequest.setMethod {} r.method)).headers },
    response⟩) rfl hbuf₂
  rw [parse, hrun₁.trans (hrun₂.trans hrun₃)]
  rw [parse_behindHeaders rfl hbody hbuf₃]
  change framed (if (storeUrl r.url (HttpRequest.setMethod {} r.method)).method.hasBody = true ∧
    (storeFields r.fields (storeUrl r.url (HttpRequest.setMethod {} r.method)).headers).get
      contentLength ≠ [] then stoul ((storeFields r.fields (storeUrl r.url
        (HttpRequest.setMethod {} r.method)).headers).get contentLength) else .ok 0) rest = _
  rw [hmethod, hheaders]
  rfl

/-! ## The announced length -/

/-- A header is what the last line of its name has stored. -/
theorem getElem?_storeFields_concat (before after : List Field) (f : Field) (headers : Headers)
    (hafter : ∀ g ∈ after, g.name ≠ f.name) :
    (storeFields (before ++ f :: after) headers)[f.name]? = some (trimLeading f.value) := by
  rw [storeFields, List.foldl_append, List.foldl_cons]
  generalize List.foldl _ headers before = headers
  change (storeFields after _)[f.name]? = _
  induction after using List.reverseRecOn with
  | nil => simp [storeFields]
  | append_singleton after g ih =>
    rw [storeFields, List.foldl_append, List.foldl_cons, List.foldl_nil,
      Std.ExtTreeMap.getElem?_insert, if_neg]
    · exact ih fun g hg => hafter g (List.mem_append_left _ hg)
    · intro he
      exact hafter g (by simp) (Std.LawfulEqCmp.eq_of_compare he)

/-- What stands in the header map has been stored by a line of this name. -/
theorem mem_of_getElem?_storeFields {fields : List Field} {name value : Bytes}
    (h : (storeFields fields ∅)[name]? = some value) :
    ∃ f ∈ fields, f.name = name ∧ trimLeading f.value = value := by
  induction fields using List.reverseRecOn with
  | nil => simp [storeFields] at h
  | append_singleton fields g ih =>
    rw [storeFields, List.foldl_append, List.foldl_cons, List.foldl_nil,
      Std.ExtTreeMap.getElem?_insert] at h
    split at h
    · rename_i he
      exact ⟨g, by simp, Std.LawfulEqCmp.eq_of_compare he, Option.some.inj h⟩
    · obtain ⟨f, hf, hname, hvalue⟩ := ih h
      exact ⟨f, List.mem_append_left _ hf, hname, hvalue⟩

/-- Every field of a respelled list stands for one of the original list. -/
theorem exists_recased {fields fields' : List Field} (h : List.Forall₂ Field.Recased fields fields')
    {g : Field} (hg : g ∈ fields') : ∃ f ∈ fields, f.Recased g := by
  induction h with
  | nil => contradiction
  | cons hfg _ ih =>
    rcases List.mem_cons.mp hg with rfl | hg
    · exact ⟨_, List.mem_cons_self, hfg⟩
    · obtain ⟨f, hf, hfg⟩ := ih hg
      exact ⟨f, List.mem_cons_of_mem _ hf, hfg⟩

/-- All names may be spelled in lower case. -/
theorem recased_map_toLower (fields : List Field) :
    List.Forall₂ Field.Recased fields (fields.map Field.toLower) := by
  rw [List.forall₂_map_right_iff, List.forall₂_same]
  intro f _
  exact f.recased_toLower

namespace RequestHead

/-- Two announcements frame `rest` alike: they are the same, or both say more than has arrived. -/
def Alike (announced announced' : Except StoulError Nat) (rest : Bytes) : Prop :=
  announced = announced' ∨
    (∃ len, announced = .ok len ∧ rest.length < len) ∧ ∃ len, announced' = .ok len ∧
      rest.length < len

/-- No header that is `Content-Length` in some spelling announces a body. -/
def AnnouncesNothing (r : RequestHead) : Prop :=
  r.method.hasBody = true → ∀ f ∈ r.fields, lower f.name = lower contentLength →
    trimLeading f.value = [] ∨ stoul (trimLeading f.value) = .ok 0

/-- `parse` returns the same, and leaves the same body and the same bytes, for both heads with
`rest` behind them. -/
def SameFraming (r r' : RequestHead) (rest : Bytes) : Prop :=
  ∀ buf buf' response response', buf.readable = r.serialize ++ rest →
    buf'.readable = r'.serialize ++ rest →
    framing (parse ⟨{}, buf, {}, response⟩) = framing (parse ⟨{}, buf', {}, response'⟩)

/-- Whatever the spelling, such a request has no body. -/
theorem AnnouncesNothing.announced {r : RequestHead} (h : r.AnnouncesNothing)
    {fields : List Field} (hfields : r.Recased fields) : (r.spell fields).announced = .ok 0 := by
  rw [RequestHead.announced]
  apply ite_eq_right_iff.mpr
  rintro ⟨hm, hne⟩
  rw [Headers.get] at hne ⊢
  cases hget : (storeFields (r.spell fields).fields ∅)[contentLength]? with
  | none => exact absurd (by rw [hget]; rfl) hne
  | some value =>
    obtain ⟨g, hg, hname, hvalue⟩ := mem_of_getElem?_storeFields hget
    obtain ⟨f, hf, hcase, hv⟩ := exists_recased hfields hg
    rw [hget, Option.getD_some] at hne
    rw [← hvalue, ← hv] at hne ⊢
    exact (h hm f hf (by rw [hcase, hname])).resolve_left hne

/-- In lower case no header is found, so nothing is announced. -/
theorem announced_toLower (r : RequestHead) :
    (r.spell (r.fields.map Field.toLower)).announced = .ok 0 := by
  rw [announced]
  apply ite_eq_right_iff.mpr
  rintro ⟨-, hne⟩
  rw [Headers.get] at hne
  cases hget : (storeFields (r.spell (r.fields.map Field.toLower)).fields ∅)[contentLength]? with
  | none => exact absurd (by rw [hget]; rfl) hne
  | some value =>
    obtain ⟨g, hg, hname, -⟩ := mem_of_getElem?_storeFields hget
    obtain ⟨f, -, rfl⟩ := List.mem_map.mp hg
    exact absurd hname (lower_ne_contentLength f.name)

/-- Any header that is `Content-Length` in some spelling can be made the one that is found. -/
theorem exists_announced {r : RequestHead} (hm : r.method.hasBody = true) {f : Field}
    (hf : f ∈ r.fields) (hname : lower f.name = lower contentLength)
    (hne : trimLeading f.value ≠ []) : ∃ fields, r.Recased fields ∧
      (r.spell fields).announced = stoul (trimLeading f.value) := by
  obtain ⟨before, after, hsplit⟩ := List.append_of_mem hf
  refine ⟨before.map Field.toLower ++ f.asContentLength :: after.map Field.toLower, ?_, ?_⟩
  · rw [Recased, hsplit]
    exact List.rel_append (recased_map_toLower before)
      (.cons ⟨hname, rfl⟩ (recased_map_toLower after))
  · have hget := getElem?_storeFields_concat (before.map Field.toLower) (after.map Field.toLower)
      f.asContentLength ∅ (by
        intro g hg
        obtain ⟨g, -, rfl⟩ := List.mem_map.mp hg
        exact lower_ne_contentLength g.name)
    have hvalue : (storeFields (before.map Field.toLower ++
        f.asContentLength :: after.map Field.toLower) ∅).get contentLength =
          trimLeading f.value := by
      rw [Headers.get]
      exact congrArg (Option.getD · []) hget
    rw [announced]
    change (if r.method.hasBody = true ∧ (storeFields (before.map Field.toLower ++
      f.asContentLength :: after.map Field.toLower) ∅).get contentLength ≠ [] then _ else _) = _
    rw [hvalue, if_pos ⟨hm, hne⟩]
    exact congrArg stoul hvalue

/-- A framing tells how much was announced, unless it is more than there is. -/
theorem framed_eq_iff (announced announced' : Except StoulError Nat) (rest : Bytes) :
    framed announced rest = framed announced' rest ↔ Alike announced announced' rest := by
  constructor
  · intro h
    have hvalue (len : Nat) : framed (.ok len) rest =
        if len ≤ rest.length then (.ok true, rest.take len, rest.drop len)
        else (.ok false, [], rest) := rfl
    cases announced with
    | error e =>
      cases announced' with
      | error e' =>
        have he : e = e' := by simpa [framed] using congrArg Prod.fst h
        exact .inl (congrArg _ he)
      | ok len =>
        rw [hvalue] at h
        split at h
        · exact absurd (congrArg Prod.fst h) (by simp [framed])
        · exact absurd (congrArg Prod.fst h) (by simp [framed])
    | ok len =>
      cases announced' with
      | error e =>
        rw [hvalue] at h
        split at h
        · exact absurd (congrArg Prod.fst h) (by simp [framed])
        · exact absurd (congrArg Prod.fst h) (by simp [framed])
      | ok len' =>
        rw [hvalue, hvalue] at h
        split_ifs at h with hle hle' hle'
        · -- the bodies have the same length
          have hbody := congrArg List.length (congrArg (·.2.1) h)
          simp only [List.length_take] at hbody
          exact .inl (congrArg _ (by omega))
        · exact absurd (congrArg Prod.fst h) (by simp)
        · exact absurd (congrArg Prod.fst h) (by simp)
        · exact .inr ⟨⟨len, rfl, by omega⟩, len', rfl, by omega⟩
  · rintro (rfl | ⟨⟨len, rfl, hlen⟩, len', rfl, hlen'⟩)
    · rfl
    · simp only [framed, if_neg (not_le.mpr hlen), if_neg (not_le.mpr hlen')]

/-- Two heads frame their bytes alike just when the lengths that they announce do. -/
theorem sameFraming_iff {r r' : RequestHead} {rest : Bytes} :
    SameFraming r r' rest ↔ Alike r.announced r'.announced rest := by
  rw [← framed_eq_iff]
  constructor
  · intro h
    rw [← r.framing_parse (Buffer.readable_append Buffer.new _) {},
      ← r'.framing_parse (Buffer.readable_append Buffer.new _) {}]
    exact h _ _ _ _ (Buffer.readable_append _ _) (Buffer.readable_append _ _)
  · intro h buf buf' response response' hbuf hbuf'
    rw [r.framing_parse hbuf, r'.framing_parse hbuf', h]

/-- Two spellings of a request are framed alike exactly if the lengths they announce are alike, and
all its spellings are exactly if none of its headers announces a body under any spelling of
`Content-Length`. -/
theorem sameFraming_of_recased_iff (r : RequestHead) (rest : Bytes) :
    (∀ fields fields', r.Recased fields → r.Recased fields' →
      (SameFraming (r.spell fields) (r.spell fields') rest ↔
        Alike (r.spell fields).announced (r.spell fields').announced rest)) ∧
    ((∀ fields fields', r.Recased fields → r.Recased fields' →
      SameFraming (r.spell fields) (r.spell fields') rest) ↔ r.AnnouncesNothing) := by
  refine ⟨fun _ _ _ _ => sameFraming_iff, ?_, ?_⟩
  · intro hall hm f hf hname
    by_contra hne
    obtain ⟨hne, hlen⟩ := not_or.mp hne
    obtain ⟨fields, hfields, hannounced⟩ := exists_announced hm hf hname hne
    -- this spelling announces what the header says, the lower-case one nothing
    have halike := sameFraming_iff.mp (hall fields _ hfields (recased_map_toLower r.fields))
    rw [hannounced, announced_toLower] at halike
    rcases halike with heq | ⟨-, len, hzero, hlt⟩
    · exact hlen heq
    · obtain rfl := Except.ok.inj hzero
      exact absurd hlt (Nat.not_lt_zero _)
  · intro hnone fields fields' hfields hfields'
    rw [sameFraming_iff, hnone.announced hfields, hnone.announced hfields']
    exact .inl rfl

theorem kPost_ne_kInvalid : HttpMethod.kPost ≠ .kInvalid := by decide

theorem root_ne_nil : ascii "/" ≠ [] := by decide

theorem root_ok : ∀ b ∈ ascii "/", b ≠ space ∧ notCRLF b := by decide +kernel

theorem kHttp11_ne_kUnknown : HttpVersion.kHttp11 ≠ .kUnknown := by decide

/-- A `POST` with a length in one spelling of the header name. -/
def samplePost : RequestHead where
  method := .kPost
  url := ascii "/"
  version := .kHttp11
  fields := [{ name := ascii "Content-Length", value := ascii " 5", name_ok := by decide +kernel,
               value_ok := by decide +kernel }]
  method_ok := kPost_ne_kInvalid
  url_ne := root_ne_nil
  url_ok := root_ok
  version_ok := kHttp11_ne_kUnknown

/-- With the name in lower case the body is left in the buffer, as the next request. -/
theorem body_left_behind :
    ∃ fields, samplePost.Recased fields ∧ ¬SameFraming samplePost (samplePost.spell fields)
      (ascii "hello") := by
  refine ⟨samplePost.fields.map Field.toLower, recased_map_toLower _, fun h => ?_⟩
  rw [sameFraming_iff, announced_toLower] at h
  rcases h with h | ⟨-, len, hzero, hlt⟩
  · revert h
    decide +kernel
  · obtain rfl := Except.ok.inj hzero
    exact absurd hlt (Nat.not_lt_zero _)

end RequestHead

end ClearMoon.Http

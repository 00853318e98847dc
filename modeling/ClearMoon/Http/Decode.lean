import ClearMoon.Http.Resend

/-!
# Responses on the wire

A reference decoder for responses: the status line, header lines up to an empty line, and as many
bytes as `Content-Length` says. Both serialisers of a response write something that it reads back,
whatever the body is and whatever follows it on the connection.
-/

namespace ClearMoon.Http

open ClearMoon.Net

/-! ## The decoder -/

/-- All statuses. -/
def allStatuses : List HttpStatusCode :=
  [.kUnknown, .k200Ok, .k301MovedPermanently, .k302Found, .k400BadRequest, .k403Forbidden,
    .k404NotFound, .k405MethodNotAllowed, .k408RequestTimeout, .k413PayloadTooLarge,
    .k414UriTooLong, .k500InternalServerError, .k501NotImplemented, .k502BadGateway,
    .k503ServiceUnavailable]

/-- What a client reads of a response. -/
structure Decoded where
  status : HttpStatusCode
  headers : Headers
  body : Bytes

/-- The bytes up to the first CRLF, and those behind it. -/
def splitLine (s : Bytes) : Option (Bytes × Bytes) :=
  (search kCRLF s).map fun i => (s.take i, s.drop (i + 2))

/-- The status whose number stands in a status line. -/
def decodeStatusLine (line : Bytes) : Option HttpStatusCode :=
  if ascii "HTTP/1.1 " <+: line then
    let digits := (line.drop 9).takeWhile isDigit
    allStatuses.find? fun code => code.toNat = decimalValue digits
  else none

/-- The name and the value of a header line. -/
def decodeHeaderLine (line : Bytes) : Option (Bytes × Bytes) :=
  (search (ascii ": ") line).map fun i => (line.take i, line.drop (i + 2))

/-- Header lines up to an empty line, at most `fuel` of them. -/
def decodeHeaders : Nat → Bytes → Headers → Option (Headers × Bytes)
  | 0, _, _ => none
  | fuel + 1, s, headers =>
    (splitLine s).bind fun (line, rest) =>
      if line = [] then some (headers, rest)
      else (decodeHeaderLine line).bind fun (name, value) =>
        decodeHeaders fuel rest (headers.insert name value)

/-- A response in front of `s`, and what stands behind it. -/
def decodeResponse (s : Bytes) : Option (Decoded × Bytes) :=
  (splitLine s).bind fun (line, rest) =>
    (decodeStatusLine line).bind fun status =>
      (decodeHeaders s.length rest ∅).bind fun (headers, rest) =>
        (headers[contentLength]?).bind fun len =>
          if decimalValue len ≤ rest.length then
            some (⟨status, headers, rest.take (decimalValue len)⟩, rest.drop (decimalValue len))
          else none

/-! ## Headers that can be told apart -/

/-- A name that a header line can begin with. -/
def PlainName (name : Bytes) : Prop := ∀ b ∈ name, b ≠ colon ∧ notCRLF b

/-- A value that ends no line. -/
def PlainValue (value : Bytes) : Prop := ∀ b ∈ value, notCRLF b

instance (name : Bytes) : Decidable (PlainName name) := by unfold PlainName; infer_instance

instance (value : Bytes) : Decidable (PlainValue value) := by unfold PlainValue; infer_instance

/-- Headers whose lines are what they seem. -/
def Headers.Plain (headers : Headers) : Prop :=
  ∀ name value, headers[name]? = some value → PlainName name ∧ PlainValue value

/-- No header has nothing to escape. -/
theorem Headers.plain_empty : (∅ : Headers).Plain := by
  intro name value h
  rw [Std.ExtTreeMap.getElem?_empty] at h
  contradiction

/-- A plain line may be added. -/
theorem Headers.Plain.insert {headers : Headers} (h : headers.Plain) {name value : Bytes}
    (hname : PlainName name) (hvalue : PlainValue value) :
    Headers.Plain (headers.insert name value) := by
  intro k v hk
  rw [Std.ExtTreeMap.getElem?_insert] at hk
  split at hk
  · rename_i heq
    obtain rfl := Std.LawfulEqCmp.eq_of_compare heq
    obtain rfl := Option.some.inj hk
    exact ⟨hname, hvalue⟩
  · exact h k v hk

/-- A number is plain. -/
theorem plainValue_decimal (n : Nat) : PlainValue (decimal n) := by
  intro b hb
  have hdigit := isDigit_of_mem_decimal hb
  refine ⟨?_, ?_⟩
  · rintro rfl
    exact absurd hdigit (by decide)
  · rintro rfl
    exact absurd hdigit (by decide)

/-! ## Lines -/

/-- A line without a CR is read up to its end. -/
theorem splitLine_line {line : Bytes} (h : (13 : UInt8) ∉ line) (rest : Bytes) :
    splitLine (line ++ kCRLF ++ rest) = some (line, rest) := by
  have hfind : search kCRLF (line ++ kCRLF ++ rest) = some line.length := search_of_notMem h rest
  rw [splitLine, hfind, Option.map_some, List.append_assoc, List.take_left' rfl, ← List.drop_drop,
    List.drop_left' rfl]
  rfl

/-- The number of a status is read back from its line. -/
theorem decodeStatusLine_statusLine (r : HttpResponse) :
    ∃ line, r.statusLine = line ++ kCRLF ∧ (13 : UInt8) ∉ line ∧
      decodeStatusLine line = some r.statusCode := by
  refine ⟨_, rfl, ?_⟩
  cases r.statusCode <;> decide +kernel

/-- A header line is split behind its name. -/
theorem decodeHeaderLine_line {name : Bytes} (h : PlainName name) (value : Bytes) :
    decodeHeaderLine (name ++ ascii ": " ++ value) = some (name, value) := by
  have hfind : search (ascii ": ") (name ++ ascii ": " ++ value) = some name.length :=
    search_of_notMem (fun hc => (h colon hc).1 rfl) value
  rw [decodeHeaderLine, hfind, Option.map_some, List.append_assoc, List.take_left' rfl,
    ← List.drop_drop, List.drop_left' rfl]
  rfl

/-- Neither a plain name nor a plain value puts a CR into its line. -/
theorem notMem_headerLine {name value : Bytes} (hname : PlainName name)
    (hvalue : PlainValue value) : (13 : UInt8) ∉ name ++ ascii ": " ++ value := by
  intro h
  rcases List.mem_append.mp h with h | h
  · rcases List.mem_append.mp h with h | h
    · exact (hname 13 h).2.1 rfl
    · exact absurd h (by decide)
  · exact (hvalue 13 h).1 rfl

/-- The lines of a list of headers are read back one by one. -/
theorem decodeHeaders_lines (fields : List (Bytes × Bytes))
    (hplain : ∀ f ∈ fields, PlainName f.1 ∧ PlainValue f.2) (headers : Headers) (rest : Bytes)
    {fuel : Nat} (hfuel : fields.length < fuel) :
    decodeHeaders fuel
        ((fields.flatMap fun kv => kv.1 ++ ascii ": " ++ kv.2 ++ kCRLF) ++ kCRLF ++ rest) headers =
      some (fields.foldl (fun h f => h.insert f.1 f.2) headers, rest) := by
  induction fields generalizing headers fuel with
  | nil =>
    obtain ⟨fuel, rfl⟩ := Nat.exists_eq_succ_of_ne_zero (Nat.ne_of_gt hfuel)
    rw [decodeHeaders]
    have hempty : splitLine ([] ++ kCRLF ++ rest) = some ([], rest) := splitLine_line (by simp) rest
    rw [List.flatMap_nil, hempty]
    rfl
  | cons f fields ih =>
    obtain ⟨fuel, rfl⟩ := Nat.exists_eq_succ_of_ne_zero (Nat.ne_of_gt (by omega : 0 < fuel))
    obtain ⟨hname, hvalue⟩ := hplain f List.mem_cons_self
    have hline := splitLine_line (notMem_headerLine hname hvalue)
      ((fields.flatMap fun kv => kv.1 ++ ascii ": " ++ kv.2 ++ kCRLF) ++ kCRLF ++ rest)
    have hne : f.1 ++ ascii ": " ++ f.2 ≠ [] := by
      have : ascii ": " ≠ [] := by decide
      simp [this]
    rw [List.flatMap_cons, decodeHeaders]
    simp only [List.append_assoc] at hline ⊢
    rw [hline, Option.bind_some]
    dsimp only
    rw [if_neg (by simpa only [List.append_assoc] using hne), ← List.append_assoc,
      decodeHeaderLine_line hname, Option.bind_some]
    dsimp only
    have hrest := ih (fun g hg => hplain g (List.mem_cons_of_mem _ hg))
      (headers.insert f.1 f.2) (show fields.length < fuel by simpa using hfuel)
    simp only [List.append_assoc] at hrest
    exact hrest

/-- What the decoder reads of a status line, the lines of a header map with a `Content-Length`, an
empty line, and so many bytes. -/
theorem decodeResponse_of_lines (r : HttpResponse) (hplain : r.headers.Plain) {body : Bytes}
    (hlen : r.headers[contentLength]? = some (decimal body.length)) (t : Bytes) :
    decodeResponse (r.statusLine ++ r.headerLines ++ kCRLF ++ body ++ t) =
      some (⟨r.statusCode, r.headers, body⟩, t) := by
  obtain ⟨line, hline, hcr, hstatus⟩ := decodeStatusLine_statusLine r
  have hfirst := splitLine_line hcr (r.headerLines ++ kCRLF ++ (body ++ t))
  have hinput : r.statusLine ++ r.headerLines ++ kCRLF ++ body ++ t =
      line ++ kCRLF ++ (r.headerLines ++ kCRLF ++ (body ++ t)) := by
    simp only [hline, List.append_assoc]
  have hfields : ∀ f ∈ r.headers.toList, PlainName f.1 ∧ PlainValue f.2 := fun f hf =>
    hplain f.1 f.2 (Std.ExtTreeMap.mem_toList_iff_getElem?_eq_some.mp hf)
  -- there is at least one byte for each header
  have hfuel : r.headers.toList.length <
      (line ++ kCRLF ++ (r.headerLines ++ kCRLF ++ (body ++ t))).length := by
    have hlines : r.headers.toList.length ≤ r.headerLines.length := by
      rw [HttpResponse.headerLines, List.length_flatMap]
      have hone : ∀ f ∈ r.headers.toList,
          1 ≤ (f.1 ++ ascii ": " ++ f.2 ++ kCRLF).length := by
        intro f _
        simp only [List.length_append, kCRLF, List.length_cons, List.length_nil]
        omega
      calc r.headers.toList.length
          = (r.headers.toList.map fun _ => 1).sum := by simp
        _ ≤ _ := List.sum_le_sum hone
    simp only [List.length_append, kCRLF, List.length_cons, List.length_nil]
    omega
  have hheaders : decodeHeaders (line ++ kCRLF ++ (r.headerLines ++ kCRLF ++ (body ++ t))).length
      (r.headerLines ++ kCRLF ++ (body ++ t)) ∅ = some (r.headers, body ++ t) := by
    have hread := decodeHeaders_lines r.headers.toList hfields ∅ (body ++ t) hfuel
    rwa [← Std.ExtTreeMap.ofList_eq_foldl, Headers.ofList_of_perm (List.Perm.refl _)] at hread
  rw [hinput, decodeResponse, hfirst, Option.bind_some]
  dsimp only
  rw [hstatus, Option.bind_some, hheaders, Option.bind_some]
  dsimp only
  rw [hlen, Option.bind_some, decimalValue_decimal, if_pos (by simp), List.take_left' rfl,
    List.drop_left' rfl]

/-! ## The two serialisers -/

/-- The names and values a call gives to the response can be told apart on the wire. -/
def ResponseCall.Plain : ResponseCall → Prop
  | .setHeader key value => PlainName key ∧ PlainValue value
  | .setContentType contentType => PlainValue contentType
  | _ => True

namespace HttpResponse

variable {r : HttpResponse}

/-- A response in file mode, whose length is that of the file. -/
structure FramesFile (r : HttpResponse) (size : Nat) : Prop where
  fileSize : r.fileSize = size
  length : r.headers[contentLength]? = some (decimal size)
  plain : r.headers.Plain

/-- So is the name of the content type. -/
theorem plainName_contentType : PlainName (ascii "Content-Type") := by decide +kernel

/-- Setting a file makes its size the length. -/
theorem framesFile_setFilePath (hplain : r.headers.Plain) (path : Bytes) {contentType : Bytes}
    (htype : PlainValue contentType) (size : Nat) :
    (r.setFilePath path contentType (some size)).2.FramesFile size where
  fileSize := rfl
  length := by
    change (((r.headers.insert (ascii "Content-Type") contentType).insert contentLength
      (decimal size)).insert (ascii "Accept-Ranges") (ascii "bytes"))[contentLength]? = _
    rw [Std.ExtTreeMap.getElem?_insert, if_neg (by decide +kernel)]
    exact Std.ExtTreeMap.getElem?_insert_self
  plain := ((hplain.insert plainName_contentType htype).insert (by decide +kernel)
    (plainValue_decimal size)).insert (by decide +kernel) (by decide +kernel)

/-- Setting other headers, or serialising, leaves it so. -/
theorem FramesFile.apply {size : Nat} (h : r.FramesFile size) {call : ResponseCall}
    (hcall : call.Plain) : (r.apply call).FramesFile size := by
  have hset (key : UserName) {value : Bytes} (hkey : PlainName key) (hvalue : PlainValue value) :
      (r.setHeader key value).FramesFile size := by
    refine ⟨h.fileSize, ?_, h.plain.insert hkey hvalue⟩
    change (r.headers.insert key.1 value)[contentLength]? = _
    rw [Std.ExtTreeMap.getElem?_insert, if_neg fun he => key.2.1 (Std.LawfulEqCmp.eq_of_compare he)]
    exact h.length
  cases call with
  | setStatus code => exact ⟨h.fileSize, h.length, h.plain⟩
  | setBody body => exact ⟨h.fileSize, h.length, h.plain⟩
  | setHeader key value => exact hset key hcall.1 hcall.2
  | setContentType value => exact hset contentType plainName_contentType hcall
  | appendToBuffer =>
    have hmem : contentLength ∈ r.headers :=
      Std.ExtTreeMap.mem_iff_isSome_getElem?.mpr (by rw [h.length]; rfl)
    have hsame : r.apply .appendToBuffer = r := if_neg fun hno => hno.1 hmem
    rw [hsame]
    exact h

/-- Plain calls keep the length of the file in its header. -/
theorem FramesFile.applyAll {size : Nat} (h : r.FramesFile size) {calls : List ResponseCall}
    (hcalls : ∀ call ∈ calls, call.Plain) : (r.applyAll calls).FramesFile size := by
  induction calls generalizing r with
  | nil => exact h
  | cons call calls ih =>
    exact ih (h.apply (hcalls call List.mem_cons_self))
      fun c hc => hcalls c (List.mem_cons_of_mem _ hc)

/-- What `appendToBuffer` appends is read back with the computed length, whatever follows it. -/
def PageDecodes (r : HttpResponse) : Prop :=
  ∀ output, ∃ appended, (r.appendToBuffer output).2.readable = output.readable ++ appended ∧
    ∀ t, decodeResponse (appended ++ t) =
      some (⟨r.statusCode, r.headers.insert contentLength (decimal r.body.length), r.body⟩, t)

/-- What `serializeHeaders` appends is read back with the file behind it, whatever follows them. -/
def FileDecodes (r : HttpResponse) : Prop :=
  ∀ output, ∃ appended, (r.serializeHeaders output).readable = output.readable ++ appended ∧
    ∀ file t, file.length = r.fileSize →
      decodeResponse (appended ++ file ++ t) = some (⟨r.statusCode, r.headers, file⟩, t)

/-- Both serialisers are decodable: `appendToBuffer` for every response whose headers can be told
apart, and `serializeHeaders` for every such response once it has been given a file, whatever else
is then set. -/
theorem decodes_of_plain (hplain : r.headers.Plain) (hlength : contentLength ∉ r.headers)
    (htransfer : transferEncoding ∉ r.headers) :
    r.PageDecodes ∧
      ∀ path contentType size calls, PlainValue contentType → (∀ call ∈ calls, call.Plain) →
        ((r.setFilePath path contentType (some size)).2.applyAll calls).FileDecodes := by
  constructor
  · intro output
    refine ⟨r.emission, readable_appendToBuffer r output, fun t => ?_⟩
    have hstored := apply_appendToBuffer_of_unset ⟨hlength, htransfer⟩
    have hread := @decodeResponse_of_lines (r.stored r.body.length)
      (hplain.insert (by decide +kernel) (plainValue_decimal _)) r.body
      Std.ExtTreeMap.getElem?_insert_self t
    rw [emission_eq, hstored]
    exact hread
  · intro path contentType size calls htype hcalls output
    have hframes := (framesFile_setFilePath hplain path htype size).applyAll hcalls
    refine ⟨_, Buffer.readable_append _ _, fun file t hfile => ?_⟩
    rw [hframes.fileSize] at hfile
    exact decodeResponse_of_lines _ hframes.plain (by rw [hfile]; exact hframes.length) t

/-- A body that looks like the end of a head, and a value with a separator in it. -/
theorem decodes_of_plain_lookalike :
    (({ body := ascii "\r\n\r\n" } : HttpResponse).setHeader (ascii "A")
      (ascii " b: c")).PageDecodes :=
  (decodes_of_plain (Headers.plain_empty.insert (by decide +kernel) (by decide +kernel))
    (by decide +kernel) (by decide +kernel)).1

end HttpResponse

end ClearMoon.Http

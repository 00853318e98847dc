import ClearMoon.Core.Entries
import ClearMoon.Http.RoundTrip

/-!
# Serialising a response more than once

`appendToBuffer` is a `const` member, but it stores the length it computes into the header map. The
next call finds a `Content-Length` there and computes none, so the first length stands in every
later output, whatever body has been set since.
-/

namespace ClearMoon.Http

open ClearMoon.Net

/-- The name that keeps `appendToBuffer` from computing a length. -/
def transferEncoding : Bytes := ascii "Transfer-Encoding"

/-- A header name other than the two that `appendToBuffer` looks for. -/
abbrev UserName := { key : Bytes // key ≠ contentLength ∧ key ≠ transferEncoding }

/-- The calls on a response. -/
inductive ResponseCall where
  | setStatus (code : HttpStatusCode)
  | setBody (body : Bytes)
  | setHeader (key : UserName) (value : Bytes)
  | setContentType (contentType : Bytes)
  | appendToBuffer
  deriving DecidableEq

namespace HttpResponse

/-- What a call leaves of the response. -/
def apply (r : HttpResponse) : ResponseCall → HttpResponse
  | .setStatus code => r.setStatus code
  | .setBody body => r.setBody body
  | .setHeader key value => r.setHeader key value
  | .setContentType contentType => r.setContentType contentType
  | .appendToBuffer => (r.appendToBuffer Buffer.new).1

/-- What a sequence of calls leaves of it. -/
def applyAll (r : HttpResponse) (calls : List ResponseCall) : HttpResponse :=
  calls.foldl HttpResponse.apply r

/-- The bytes `appendToBuffer` appends. -/
def emission (r : HttpResponse) : Bytes := (r.appendToBuffer Buffer.new).2.readable

/-- What the calls of `appendToBuffer` in a sequence append, in order. -/
def outputs (r : HttpResponse) : List ResponseCall → List Bytes
  | [] => []
  | .appendToBuffer :: calls => r.emission :: (r.apply .appendToBuffer).outputs calls
  | call :: calls => (r.apply call).outputs calls

/-- The lines of the headers whose names come before the name, or behind it. -/
def linesAround (r : HttpResponse) (name : Bytes) (side : Ordering) : Bytes :=
  (r.headers.toList.filter (compare ·.1 name = side)).flatMap fun kv =>
    kv.1 ++ ascii ": " ++ kv.2 ++ kCRLF

/-- What `appendToBuffer` appends has, in its place between the lines of the other headers, a line
with the length of the body that comes last. -/
def EmitsLength (r : HttpResponse) : Prop :=
  r.emission = r.statusLine ++ (r.linesAround contentLength .lt ++
    (ascii "Content-Length: " ++ decimal r.body.length ++ kCRLF ++
      (r.linesAround contentLength .gt ++ (kCRLF ++ r.body))))

/-- Every `appendToBuffer` of the sequence writes the length of its body. -/
def LengthsCurrent (r : HttpResponse) (calls : List ResponseCall) : Prop :=
  ∀ before after, calls = before ++ .appendToBuffer :: after → (r.applyAll before).EmitsLength

/-- Leaving out an `appendToBuffer` changes nothing of what the later calls append. -/
def AppendsHarmless (r : HttpResponse) (calls : List ResponseCall) : Prop :=
  ∀ before after, calls = before ++ .appendToBuffer :: after →
    ((r.applyAll before).apply .appendToBuffer).outputs after = (r.applyAll before).outputs after

end HttpResponse

/-- The sizes of the body at the calls of `appendToBuffer`, for a body of `size` bytes at first. -/
def bodySizes (size : Nat) : List ResponseCall → List Nat
  | [] => []
  | .setBody body :: calls => bodySizes body.length calls
  | .appendToBuffer :: calls => size :: bodySizes size calls
  | _ :: calls => bodySizes size calls

namespace HttpResponse

variable {r : HttpResponse} {call : ResponseCall} {calls : List ResponseCall} {n : Nat}

/-! ## The stored length -/

/-- What is appended does not depend on what is in the buffer. -/
theorem readable_appendToBuffer (r : HttpResponse) (output : Buffer) :
    (r.appendToBuffer output).2.readable = output.readable ++ r.emission := by
  simp [emission, appendToBuffer]

/-- What `appendToBuffer` emits: the first line, the header lines, an empty line and the body. -/
theorem emission_eq (r : HttpResponse) : r.emission = r.statusLine ++
    (r.apply .appendToBuffer).headerLines ++ kCRLF ++ (r.apply .appendToBuffer).body := by
  rw [emission, appendToBuffer, Buffer.readable_append, Buffer.readable_new, List.nil_append]
  rfl

/-- A number is read off its digits. -/
theorem decimal_injective {m n : Nat} (h : decimal m = decimal n) : m = n := by
  rw [← decimalValue_decimal m, h, decimalValue_decimal]

/-- Neither of the two headers is set. -/
def Unset (r : HttpResponse) : Prop :=
  contentLength ∉ r.headers ∧ transferEncoding ∉ r.headers

/-- A computed length has been stored. -/
def stored (r : HttpResponse) (n : Nat) : HttpResponse := r.setHeader contentLength (decimal n)

/-- Where no length was set, the one of the body is stored. -/
theorem apply_appendToBuffer_of_unset (h : r.Unset) :
    r.apply .appendToBuffer = r.stored r.body.length :=
  if_pos h

/-- Where one was set the headers stay. -/
theorem apply_appendToBuffer_of_set (h : ¬r.Unset) : r.apply .appendToBuffer = r := if_neg h

/-- Once there is a length, none is computed. -/
theorem not_unset_stored (r : HttpResponse) (n : Nat) : ¬(r.stored n).Unset :=
  fun h => h.1 Std.ExtTreeMap.mem_insert_self

/-- The stored length is found under its name. -/
theorem getElem?_stored (r : HttpResponse) (n : Nat) :
    (r.stored n).headers[contentLength]? = some (decimal n) :=
  Std.ExtTreeMap.getElem?_insert_self

/-- The header lines around the one of a name. -/
theorem headerLines_split (r : HttpResponse) (name : Bytes) :
    r.headerLines = r.linesAround name .lt ++
      ((r.headers[name]?.map fun value => name ++ ascii ": " ++ value ++ kCRLF).getD [] ++
        r.linesAround name .gt) := by
  rw [headerLines, toList_split r.headers name, List.flatMap_append, List.flatMap_append]
  refine congrArg₂ (· ++ ·) rfl (congrArg₂ (· ++ ·) ?_ rfl)
  cases r.headers[name]? with
  | none => rfl
  | some value => simp

/-- The line of a name is not among those around it. -/
theorem linesAround_setHeader (r : HttpResponse) (name value : Bytes) {side : Ordering}
    (hside : side ≠ .eq) :
    (r.setHeader name value).linesAround name side = r.linesAround name side := by
  rw [linesAround, linesAround, HttpResponse.setHeader, filter_insert r.headers name value hside]

/-- The lines around the length are the same before and behind the call. -/
theorem linesAround_apply (r : HttpResponse) {side : Ordering} (hside : side ≠ .eq) :
    (r.apply .appendToBuffer).linesAround contentLength side =
      r.linesAround contentLength side := by
  by_cases h : r.Unset
  · rw [apply_appendToBuffer_of_unset h]
    exact linesAround_setHeader r contentLength _ hside
  · rw [apply_appendToBuffer_of_set h]

/-- `appendToBuffer` emits the length of its body exactly if the map it leaves has that one. -/
theorem emitsLength_iff : r.EmitsLength ↔
    (r.apply .appendToBuffer).headers[contentLength]? = some (decimal r.body.length) := by
  have hbody : (r.apply .appendToBuffer).body = r.body := by
    by_cases h : r.Unset
    · rw [apply_appendToBuffer_of_unset h]
      rfl
    · rw [apply_appendToBuffer_of_set h]
  have hname : ascii "Content-Length: " = contentLength ++ ascii ": " := by decide +kernel
  rw [EmitsLength, emission_eq, headerLines_split _ contentLength, linesAround_apply r (by simp),
    linesAround_apply r (by simp), hbody, hname]
  simp only [List.append_assoc, List.append_cancel_left_eq]
  cases (r.apply .appendToBuffer).headers[contentLength]? with
  | none =>
    refine iff_of_false (fun h => ?_) (by simp)
    have hlength := congrArg List.length h
    simp only [Option.map_none, Option.getD_none, List.nil_append, List.length_append] at hlength
    have : 0 < contentLength.length := by decide +kernel
    omega
  | some value => simp

/-- Where no length was set, the emitted one is that of the body. -/
theorem emitsLength_of_unset (h : r.Unset) : r.EmitsLength := by
  rw [emitsLength_iff, apply_appendToBuffer_of_unset h]
  exact r.getElem?_stored _

/-- A length that is set is emitted, whatever the body. -/
theorem emitsLength_of_set (h : ¬r.Unset) :
    r.EmitsLength ↔ r.headers[contentLength]? = some (decimal r.body.length) := by
  rw [emitsLength_iff, apply_appendToBuffer_of_set h]

/-- Names the user sets are none of the two. -/
theorem Unset.setHeader (h : r.Unset) (key : UserName) (value : Bytes) :
    (r.setHeader key value).Unset := by
  constructor
  · intro hmem
    rcases Std.ExtTreeMap.mem_insert.mp hmem with heq | hmem
    · exact key.2.1 (Std.LawfulEqCmp.eq_of_compare heq)
    · exact h.1 hmem
  · intro hmem
    rcases Std.ExtTreeMap.mem_insert.mp hmem with heq | hmem
    · exact key.2.2 (Std.LawfulEqCmp.eq_of_compare heq)
    · exact h.2 hmem

/-- Storing a length and setting another header may be done in either order. -/
theorem setHeader_stored (r : HttpResponse) (key : UserName) (value : Bytes) (n : Nat) :
    (r.stored n).setHeader key value = (r.setHeader key value).stored n := by
  have hheaders : (r.headers.insert contentLength (decimal n)).insert key.1 value =
      (r.headers.insert key.1 value).insert contentLength (decimal n) := by
    apply Std.ExtTreeMap.ext_getElem?
    intro k
    simp only [Std.ExtTreeMap.getElem?_insert]
    split_ifs with h₁ h₂
    · exact absurd ((Std.LawfulEqCmp.eq_of_compare h₁).trans
        (Std.LawfulEqCmp.eq_of_compare h₂).symm) key.2.1
    · rfl
    · rfl
    · rfl
  rw [stored, stored, HttpResponse.setHeader, HttpResponse.setHeader, HttpResponse.setHeader]
  exact congrArg (fun headers => { r with headers }) hheaders

/-- `Content-Type` as a name the user sets. -/
def contentType : UserName := ⟨ascii "Content-Type", by decide +kernel, by decide +kernel⟩

/-- Calls that set something keep the two headers unset. -/
theorem Unset.apply (h : r.Unset) (hcall : call ≠ .appendToBuffer) : (r.apply call).Unset := by
  cases call with
  | setStatus code => exact h
  | setBody body => exact h
  | setHeader key value => exact h.setHeader key value
  | setContentType value => exact h.setHeader contentType value
  | appendToBuffer => exact absurd rfl hcall

/-- No call unsets one of the two headers, or sets another length. -/
theorem set_apply (h : ¬r.Unset) (call : ResponseCall) :
    ¬(r.apply call).Unset ∧
      (r.apply call).headers[contentLength]? = r.headers[contentLength]? := by
  have hset (key : UserName) (value : Bytes) : ¬(r.setHeader key value).Unset ∧
      (r.setHeader key value).headers[contentLength]? = r.headers[contentLength]? := by
    refine ⟨fun hunset => h ⟨fun hmem => hunset.1 ?_, fun hmem => hunset.2 ?_⟩, ?_⟩
    · exact Std.ExtTreeMap.mem_insert.mpr (.inr hmem)
    · exact Std.ExtTreeMap.mem_insert.mpr (.inr hmem)
    · rw [HttpResponse.setHeader, Std.ExtTreeMap.getElem?_insert, if_neg]
      exact fun heq => key.2.1 (Std.LawfulEqCmp.eq_of_compare heq)
  cases call with
  | setStatus code => exact ⟨h, rfl⟩
  | setBody body => exact ⟨h, rfl⟩
  | setHeader key value => exact hset key value
  | setContentType value => exact hset contentType value
  | appendToBuffer =>
    rw [apply_appendToBuffer_of_set h]
    exact ⟨h, rfl⟩

/-- They do not mind a stored length either. -/
theorem apply_stored (hcall : call ≠ .appendToBuffer) :
    (r.stored n).apply call = (r.apply call).stored n := by
  cases call with
  | setStatus code => rfl
  | setBody body => rfl
  | setHeader key value => exact setHeader_stored r key value n
  | setContentType value => exact setHeader_stored r contentType value n
  | appendToBuffer => exact absurd rfl hcall

/-! ## Sequences of calls -/

/-- A call that emits nothing changes what the calls behind it emit. -/
theorem outputs_cons (hcall : call ≠ .appendToBuffer) :
    r.outputs (call :: calls) = (r.apply call).outputs calls := by
  cases call with
  | appendToBuffer => exact absurd rfl hcall
  | _ => rfl

/-- A call that sets something has the body it leaves at every `appendToBuffer` behind it. -/
theorem bodySizes_cons (hcall : call ≠ .appendToBuffer) :
    bodySizes r.body.length (call :: calls) = bodySizes (r.apply call).body.length calls := by
  cases call with
  | appendToBuffer => exact absurd rfl hcall
  | _ => rfl

/-- The lengths are right when the first call's is, and those behind it are. -/
theorem lengthsCurrent_cons : r.LengthsCurrent (call :: calls) ↔
    (call = .appendToBuffer → r.EmitsLength) ∧ (r.apply call).LengthsCurrent calls := by
  constructor
  · intro h
    refine ⟨?_, fun before after hcalls => h (call :: before) after (by rw [hcalls]; rfl)⟩
    rintro rfl
    exact h [] calls rfl
  · rintro ⟨hfirst, hrest⟩ before after hcalls
    cases before with
    | nil => exact hfirst (List.cons.inj hcalls).1
    | cons c before =>
      obtain ⟨rfl, htail⟩ := List.cons.inj hcalls
      exact hrest before after htail

/-- The calls leave no trace when the first leaves none, and those behind it do not. -/
theorem appendsHarmless_cons : r.AppendsHarmless (call :: calls) ↔
    (call = .appendToBuffer → (r.apply .appendToBuffer).outputs calls = r.outputs calls) ∧
      (r.apply call).AppendsHarmless calls := by
  constructor
  · intro h
    refine ⟨?_, fun before after hcalls => h (call :: before) after (by rw [hcalls]; rfl)⟩
    rintro rfl
    exact h [] calls rfl
  · rintro ⟨hfirst, hrest⟩ before after hcalls
    cases before with
    | nil =>
      obtain ⟨hcall, rfl⟩ := List.cons.inj hcalls
      exact hfirst hcall
    | cons c before =>
      obtain ⟨rfl, htail⟩ := List.cons.inj hcalls
      exact hrest before after htail

/-- When one of the two headers is set, the lengths are current exactly if that one is the size of
every body. -/
theorem lengthsCurrent_of_set (h : ¬r.Unset) : r.LengthsCurrent calls ↔
    ∀ m ∈ bodySizes r.body.length calls, r.headers[contentLength]? = some (decimal m) := by
  induction calls generalizing r with
  | nil =>
    refine iff_of_true (fun before after h => ?_) (fun m hm => absurd hm List.not_mem_nil)
    exact absurd (congrArg List.length h) (by simp)
  | cons call calls ih =>
    obtain ⟨hset, hsame⟩ := set_apply h call
    rw [lengthsCurrent_cons, ih hset, hsame]
    by_cases hcall : call = .appendToBuffer
    · subst hcall
      rw [bodySizes, List.forall_mem_cons, emitsLength_of_set h, apply_appendToBuffer_of_set h]
      simp
    · rw [bodySizes_cons hcall]
      simp [hcall]

/-- Behind a stored length, the lengths are current exactly if no size differs from it. -/
theorem lengthsCurrent_stored :
    (r.stored n).LengthsCurrent calls ↔ ∀ m ∈ bodySizes r.body.length calls, m = n := by
  rw [lengthsCurrent_of_set (r.not_unset_stored n), getElem?_stored]
  refine forall₂_congr fun m _ => ?_
  rw [Option.some.injEq]
  exact ⟨fun h => (decimal_injective h).symm, fun h => congrArg decimal h.symm⟩

/-- Nothing distinguishes a stored length from a computed one while the sizes are the same. -/
theorem outputs_stored (h : r.Unset) (hsizes : ∀ m ∈ bodySizes r.body.length calls, m = n) :
    (r.stored n).outputs calls = r.outputs calls := by
  induction calls generalizing r with
  | nil => rfl
  | cons call calls ih =>
    by_cases hcall : call = .appendToBuffer
    · subst hcall
      obtain ⟨hsize, hsizes⟩ := List.forall_mem_cons.mp hsizes
      subst hsize
      have hsame : (r.stored r.body.length).apply .appendToBuffer = r.apply .appendToBuffer := by
        rw [apply_appendToBuffer_of_set (r.not_unset_stored _), apply_appendToBuffer_of_unset h]
      have hfirst : (r.stored r.body.length).emission = r.emission := by
        rw [emission_eq, emission_eq, hsame]
        rfl
      rw [outputs, outputs, hfirst, hsame]
    · rw [outputs_cons hcall, outputs_cons hcall, apply_stored hcall]
      exact ih (h.apply hcall) (by rwa [bodySizes_cons hcall] at hsizes)

/-- An `appendToBuffer` that computes no length does nothing. -/
theorem appendsHarmless_of_set (h : ¬r.Unset) : r.AppendsHarmless calls := by
  induction calls generalizing r with
  | nil =>
    intro before after h
    exact absurd (congrArg List.length h) (by simp)
  | cons call calls ih =>
    rw [appendsHarmless_cons, apply_appendToBuffer_of_set h]
    exact ⟨fun _ => rfl, ih (set_apply h call).1⟩

/-- A computed length is current in every output, and computing it does no harm, exactly if the
body has the same size at every `appendToBuffer`. -/
theorem lengthsCurrent_of_unset (h : r.Unset) :
    r.LengthsCurrent calls ∧ r.AppendsHarmless calls ↔
      ∃ n, ∀ m ∈ bodySizes r.body.length calls, m = n := by
  induction calls generalizing r with
  | nil =>
    refine iff_of_true ⟨fun before after h => ?_, fun before after h => ?_⟩
      ⟨0, fun m hm => absurd hm List.not_mem_nil⟩
    · exact absurd (congrArg List.length h) (by simp)
    · exact absurd (congrArg List.length h) (by simp)
  | cons call calls ih =>
    rw [lengthsCurrent_cons, appendsHarmless_cons]
    by_cases hcall : call = .appendToBuffer
    · -- from here on the length of this body stands in the map
      subst hcall
      rw [apply_appendToBuffer_of_unset h, lengthsCurrent_stored]
      constructor
      · rintro ⟨⟨-, hsizes⟩, -⟩
        exact ⟨r.body.length, List.forall_mem_cons.mpr ⟨rfl, hsizes⟩⟩
      · rintro ⟨n, hn⟩
        obtain ⟨rfl, hsizes⟩ := List.forall_mem_cons.mp hn
        exact ⟨⟨fun _ => emitsLength_of_unset h, hsizes⟩, fun _ => outputs_stored h hsizes,
          appendsHarmless_of_set (r.not_unset_stored _)⟩
    · rw [bodySizes_cons hcall]
      refine Iff.trans ?_ (ih (h.apply hcall))
      simp [hcall]

/-- The length is current in every output, and no `appendToBuffer` changes what a later one appends,
exactly if nothing is appended, or the body has the same size at every `appendToBuffer` and at the
start neither of the two headers is set, or a `Content-Length` of that size. -/
theorem lengthsCurrent_iff : r.LengthsCurrent calls ∧ r.AppendsHarmless calls ↔
    bodySizes r.body.length calls = [] ∨ ∃ n, (∀ m ∈ bodySizes r.body.length calls, m = n) ∧
      (r.Unset ∨ r.headers[contentLength]? = some (decimal n)) := by
  by_cases h : r.Unset
  · rw [lengthsCurrent_of_unset h]
    constructor
    · rintro ⟨n, hn⟩
      exact .inr ⟨n, hn, .inl h⟩
    · rintro (hnil | ⟨n, hn, -⟩)
      · exact ⟨0, by simp [hnil]⟩
      · exact ⟨n, hn⟩
  · rw [and_iff_left (appendsHarmless_of_set h), lengthsCurrent_of_set h]
    cases hsizes : bodySizes r.body.length calls with
    | nil => simp
    | cons size sizes =>
      constructor
      · intro hall
        have hsize := hall size List.mem_cons_self
        refine .inr ⟨size, fun m hm => decimal_injective ?_, .inr hsize⟩
        exact Option.some.inj ((hall m hm).symm.trans hsize)
      · rintro (hnil | ⟨n, hn, hunset | hlength⟩)
        · contradiction
        · exact absurd hunset h
        · intro m hm
          rw [hn m hm, hlength]

/-- A longer body is sent under the length of the one before. -/
theorem stale_length :
    ¬HttpResponse.LengthsCurrent {}
      [.setBody (ascii "a"), .appendToBuffer, .setBody (ascii "bcd"), .appendToBuffer] ∧
    ¬HttpResponse.AppendsHarmless {}
      [.setBody (ascii "a"), .appendToBuffer, .setBody (ascii "bcd"), .appendToBuffer] := by
  constructor
  · intro h
    have hlast := h [.setBody (ascii "a"), .appendToBuffer, .setBody (ascii "bcd")] [] rfl
    revert hlast
    rw [emitsLength_iff]
    decide +kernel
  · intro h
    have hfirst := h [.setBody (ascii "a")] [.setBody (ascii "bcd"), .appendToBuffer] rfl
    revert hfirst
    decide +kernel

end HttpResponse

end ClearMoon.Http

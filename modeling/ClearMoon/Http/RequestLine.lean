import ClearMoon.Http.Grammar

/-!
# The language of request lines

`parseRequestLine` ends the method at the first space of the line and the URL at the last one,
where the comment beside it speaks of the second. The two agree on a line with two spaces. On a
longer one the parser takes the spaces between for a part of the URL, so that it accepts lines
its grammar has not.
-/

namespace ClearMoon.Http

open ClearMoon.Net

/-- The line is METHOD, one space, URL, one space, VERSION. -/
structure RequestLine (line : Bytes) (method : HttpMethod) (url : Bytes) (version : HttpVersion) :
    Prop where
  method_ok : method ≠ .kInvalid
  url_ne : url ≠ []
  url_ok : space ∉ url
  version_ok : version ≠ .kUnknown
  parts : line = methodToString method ++ space :: (url ++ space :: versionToString version)

/-- The lines of the grammar are accepted and no others, and the parts of a line that is accepted
are stored in a fresh request. -/
def ParsedByGrammar (line : Bytes) : Prop :=
  (∀ request, (parseRequestLine line request).1 = true ↔
    ∃ method url version, RequestLine line method url version) ∧
  ((parseRequestLine line {}).1 = true → ∃ method url version,
    RequestLine line method url version ∧
    (parseRequestLine line {}).2 =
      { method
        path := url.takeWhile (· ≠ qmark)
        query := (url.dropWhile (· ≠ qmark)).drop 1
        version })

/-- What stands before the first space. -/
def firstWord (line : Bytes) : Bytes := line.takeWhile (· ≠ space)

/-- What stands behind the last space. -/
def lastWord (line : Bytes) : Bytes := line.rtakeWhile (· ≠ space)

/-- A line with more than two spaces does not have a supported method in front and a supported
version at its end. -/
def PlainlySpaced (line : Bytes) : Prop :=
  line.count space ≤ 2 ∨ stringToMethod (firstWord line) = .kInvalid ∨
    (lastWord line ≠ ascii "HTTP/1.1" ∧ lastWord line ≠ ascii "HTTP/1.0")

instance (line : Bytes) : Decidable (PlainlySpaced line) := by
  unfold PlainlySpaced
  infer_instance

/-! ## What the parser accepts -/

/-- A supported method is the text of its name. -/
theorem methodToString_stringToMethod {s : Bytes} (h : stringToMethod s ≠ .kInvalid) :
    methodToString (stringToMethod s) = s := by
  unfold stringToMethod at h ⊢
  split_ifs at h ⊢ with h₁ h₂ h₃ h₄ h₅ h₆ h₇
  · exact h₁.symm
  · exact h₂.symm
  · exact h₃.symm
  · exact h₄.symm
  · exact h₅.symm
  · exact h₆.symm
  · exact h₇.symm
  · exact absurd rfl h

/-- The first space splits a line. -/
theorem idxOf?_split {c : UInt8} {l : Bytes} {i : Nat} (h : l.idxOf? c = some i) :
    i < l.length ∧ l = l.take i ++ c :: l.drop (i + 1) := by
  obtain ⟨hi, heq, -⟩ := List.findIdx?_eq_some_iff_getElem.mp h
  refine ⟨hi, ?_⟩
  have hc : l[i] = c := by simpa using heq
  rw [← hc, List.getElem_cons_drop, List.take_append_drop]

/-- So does the last one. -/
theorem rfind_split {c : UInt8} {l : Bytes} {i : Nat} (h : rfind c l = some i) :
    i < l.length ∧ l = l.take i ++ c :: l.drop (i + 1) ∧ c ∉ l.drop (i + 1) := by
  induction l generalizing i with
  | nil => contradiction
  | cons a l ih =>
    rw [rfind] at h
    cases hr : rfind c l with
    | some j =>
      rw [hr] at h
      obtain rfl := Option.some.inj h
      obtain ⟨hj, hsplit, hlast⟩ := ih hr
      refine ⟨Nat.succ_lt_succ hj, ?_, hlast⟩
      rw [List.take_succ_cons, List.cons_append, List.drop_succ_cons, ← hsplit]
    | none =>
      rw [hr] at h
      dsimp only at h
      split at h
      · rename_i ha
        obtain rfl := Option.some.inj h
        subst ha
        exact ⟨Nat.succ_pos _, rfl, rfind_eq_none_iff.mp hr⟩
      · contradiction

/-- Whatever is accepted has a method in front, a version behind, and a URL between, which may
contain spaces. -/
theorem parseRequestLine_eq_true {line : Bytes} {request : HttpRequest}
    (h : (parseRequestLine line request).1 = true) :
    ∃ method url version, method ≠ .kInvalid ∧ url ≠ [] ∧ version ≠ .kUnknown ∧
      line = methodToString method ++ space :: (url ++ space :: versionToString version) := by
  rw [parseRequestLine] at h
  split at h
  · contradiction
  rename_i space1 hfirst
  obtain ⟨hlt, hsplit⟩ := idxOf?_split hfirst
  dsimp only at h
  split at h
  · contradiction
  rename_i hmethod
  split at h
  · contradiction
  rename_i space2 hlast
  obtain ⟨hlt2, hsplit2, -⟩ := rfind_split hlast
  split at h
  · contradiction
  rename_i hpos
  -- behind the method stands the URL, and behind the URL what follows the last space
  have hrest : line.drop (space1 + 1) = (line.drop (space1 + 1)).take (space2 - space1 - 1) ++
      space :: line.drop (space2 + 1) := by
    conv_lhs => rw [hsplit2]
    rw [List.drop_append_of_le_length (by rw [List.length_take]; omega), List.drop_take]
    congr 2
  have hurl : (line.drop (space1 + 1)).take (space2 - space1 - 1) ≠ [] := by
    intro hnil
    have hlen := congrArg List.length hnil
    rw [List.length_take, List.length_drop, List.length_nil] at hlen
    omega
  have hline : line = methodToString (stringToMethod (line.take space1)) ++
      space :: ((line.drop (space1 + 1)).take (space2 - space1 - 1) ++
        space :: line.drop (space2 + 1)) := by
    rw [methodToString_stringToMethod hmethod, ← hrest]
    exact hsplit
  split at h
  · rename_i hversion
    refine ⟨_, _, .kHttp11, hmethod, hurl, by decide, ?_⟩
    rw [hversion] at hline
    exact hline
  · split at h
    · rename_i hversion
      refine ⟨_, _, .kHttp10, hmethod, hurl, by decide, ?_⟩
      rw [hversion] at hline
      exact hline
    · contradiction

/-! ## Words -/

/-- The first word ends at the first space. -/
theorem firstWord_append {method rest : Bytes} (h : space ∉ method) :
    firstWord (method ++ space :: rest) = method := by
  unfold firstWord
  rw [List.takeWhile_append_of_pos]
  · simp
  · intro b hb
    simpa using fun he : b = space => h (he ▸ hb)

/-- The last word begins behind the last space. -/
theorem lastWord_append {before version : Bytes} (h : space ∉ version) :
    lastWord (before ++ space :: version) = version := by
  unfold lastWord List.rtakeWhile
  rw [List.reverse_append, List.reverse_cons, List.append_assoc, List.singleton_append,
    List.takeWhile_append_of_pos]
  · simp
  · intro b hb
    simpa using fun he : b = space => h (he ▸ List.mem_reverse.mp hb)

/-- The spaces of a line that is made of three parts. -/
theorem count_parts {method : HttpMethod} {url : Bytes} {version : HttpVersion} :
    (methodToString method ++ space :: (url ++ space :: versionToString version)).count space =
      url.count space + 2 := by
  rw [List.count_append, List.count_cons_self, List.count_append, List.count_cons_self,
    List.count_eq_zero_of_not_mem (notMem_methodToString method).1,
    List.count_eq_zero_of_not_mem (notMem_versionToString version).1]
  omega

/-- The URL is split at its first question mark. -/
theorem storeUrl_fresh (method : HttpMethod) (url : Bytes) :
    storeUrl url (HttpRequest.setMethod {} method) =
      { method
        path := url.takeWhile (· ≠ qmark)
        query := (url.dropWhile (· ≠ qmark)).drop 1 } := by
  rw [storeUrl]
  cases hq : url.idxOf? qmark with
  | none =>
    have hall : ∀ b ∈ url, decide (b ≠ qmark) = true := by
      intro b hb
      simpa using fun he : b = qmark => List.idxOf?_eq_none_iff.mp hq (he ▸ hb)
    have htake : url.takeWhile (· ≠ qmark) = url := List.takeWhile_eq_self_iff.mpr hall
    have hdrop : url.dropWhile (· ≠ qmark) = [] := List.dropWhile_eq_nil_iff.mpr hall
    rw [htake, hdrop]
    rfl
  | some i =>
    obtain ⟨hi, hsplit⟩ := idxOf?_split hq
    obtain ⟨_, -, hbefore⟩ := List.findIdx?_eq_some_iff_getElem.mp hq
    have hnot : ∀ b ∈ url.take i, decide (b ≠ qmark) = true := by
      intro b hb
      obtain ⟨j, hj, rfl⟩ := List.getElem_of_mem hb
      rw [List.length_take] at hj
      rw [List.getElem_take]
      simpa using hbefore j (by omega)
    have htake : url.takeWhile (· ≠ qmark) = url.take i := by
      conv_lhs => rw [hsplit]
      rw [List.takeWhile_append_of_pos hnot]
      simp
    have hdrop : url.dropWhile (· ≠ qmark) = qmark :: url.drop (i + 1) := by
      conv_lhs => rw [hsplit]
      rw [List.dropWhile_append_of_pos hnot]
      simp
    rw [htake, hdrop]
    rfl

/-! ## The accepted language -/

/-- A line of the grammar has two spaces. -/
theorem RequestLine.count {line : Bytes} {method : HttpMethod} {url : Bytes}
    {version : HttpVersion} (h : RequestLine line method url version) : line.count space = 2 := by
  rw [h.parts, count_parts, List.count_eq_zero_of_not_mem h.url_ok]

/-- A version the parser knows. -/
theorem exists_version {s : Bytes} (h : s = ascii "HTTP/1.1" ∨ s = ascii "HTTP/1.0") :
    ∃ version, version ≠ .kUnknown ∧ s = versionToString version := by
  rcases h with h | h
  · exact ⟨.kHttp11, by decide, h⟩
  · exact ⟨.kHttp10, by decide, h⟩

/-- A version that the parser knows is one of two. -/
theorem versionToString_known {version : HttpVersion} (h : version ≠ .kUnknown) :
    versionToString version = ascii "HTTP/1.1" ∨ versionToString version = ascii "HTTP/1.0" := by
  cases version with
  | kUnknown => exact absurd rfl h
  | kHttp10 => exact .inr rfl
  | kHttp11 => exact .inl rfl

/-- A line with more spaces between a supported method and a supported version is accepted, the
spaces in the URL. -/
theorem accepts_of_not_plainlySpaced {line : Bytes} (h : ¬PlainlySpaced line)
    (request : HttpRequest) : 2 < line.count space ∧ (parseRequestLine line request).1 = true := by
  simp only [PlainlySpaced, not_or, not_le, not_and_or, not_ne_iff] at h
  obtain ⟨hcount, hmethod, hversion⟩ := h
  refine ⟨hcount, ?_⟩
  -- the two ends of the line
  have hmem : space ∈ line := List.count_pos_iff.mp (by omega)
  obtain ⟨i, hi⟩ := Option.ne_none_iff_exists'.mp fun h => List.idxOf?_eq_none_iff.mp h hmem
  obtain ⟨-, hsplit⟩ := idxOf?_split hi
  have hbefore : space ∉ line.take i := by
    obtain ⟨_, -, hbefore⟩ := List.findIdx?_eq_some_iff_getElem.mp hi
    intro hb
    obtain ⟨j, hj, hj'⟩ := List.getElem_of_mem hb
    rw [List.length_take] at hj
    rw [List.getElem_take] at hj'
    exact absurd hj' (by simpa using hbefore j (by omega))
  have hfirst : firstWord line = line.take i := by
    conv_lhs => rw [hsplit]
    exact firstWord_append hbefore
  rw [hfirst] at hmethod
  -- what stands behind the method has a last space
  have hrest : 2 ≤ (line.drop (i + 1)).count space := by
    rw [hsplit, List.count_append, List.count_cons_self,
      List.count_eq_zero_of_not_mem hbefore] at hcount
    omega
  have hmem2 : space ∈ line.drop (i + 1) := List.count_pos_iff.mp (by omega)
  obtain ⟨j, hj⟩ := Option.ne_none_iff_exists'.mp fun h => rfind_eq_none_iff.mp h hmem2
  obtain ⟨-, hsplit2, hlast⟩ := rfind_split hj
  have hend : lastWord line = (line.drop (i + 1)).drop (j + 1) := by
    have hline : line = (line.take i ++ space :: (line.drop (i + 1)).take j) ++
        space :: (line.drop (i + 1)).drop (j + 1) := by
      rw [List.append_assoc, List.cons_append, ← hsplit2]
      exact hsplit
    conv_lhs => rw [hline]
    exact lastWord_append hlast
  rw [hend] at hversion
  obtain ⟨version, hv, hveq⟩ := exists_version hversion
  have hurl : (line.drop (i + 1)).take j ≠ [] := by
    intro hnil
    rw [hsplit2, hnil, List.nil_append, List.count_cons_self,
      List.count_eq_zero_of_not_mem hlast] at hrest
    omega
  have hline : line = methodToString (stringToMethod (line.take i)) ++
      space :: ((line.drop (i + 1)).take j ++ space :: versionToString version) := by
    rw [methodToString_stringToMethod hmethod, ← hveq, ← hsplit2]
    exact hsplit
  rw [hline, parseRequestLine_wellFormed hmethod hurl hv]

/-- On a plainly spaced line, what is accepted is in the grammar. -/
theorem requestLine_of_accepted {line : Bytes} {request : HttpRequest}
    (hspaced : PlainlySpaced line)
    (h : (parseRequestLine line request).1 = true) :
    ∃ method url version, RequestLine line method url version := by
  obtain ⟨method, url, version, hm, hurl, hv, rfl⟩ := parseRequestLine_eq_true h
  refine ⟨method, url, version, hm, hurl, ?_, hv, rfl⟩
  rcases hspaced with hcount | hmethod | hversion
  · rw [count_parts] at hcount
    exact List.count_eq_zero.mp (by omega)
  · rw [firstWord_append (notMem_methodToString method).1,
      stringToMethod_methodToString hm] at hmethod
    exact absurd hmethod hm
  · have hend : lastWord (methodToString method ++ space :: (url ++ space ::
        versionToString version)) = versionToString version := by
      rw [← List.cons_append, ← List.append_assoc]
      exact lastWord_append (notMem_versionToString version).1
    rw [hend] at hversion
    rcases versionToString_known hv with hv | hv
    · exact absurd hv hversion.1
    · exact absurd hv hversion.2

/-- The parser follows its grammar exactly on the lines in which a supported method in front and a
supported version at the end leave no more than two spaces. -/
theorem parsedByGrammar_iff (line : Bytes) : ParsedByGrammar line ↔ PlainlySpaced line := by
  constructor
  · rintro ⟨haccept, -⟩
    by_contra hspaced
    obtain ⟨hcount, htrue⟩ := accepts_of_not_plainlySpaced hspaced {}
    obtain ⟨method, url, version, hline⟩ := (haccept {}).mp htrue
    rw [hline.count] at hcount
    exact absurd hcount (lt_irrefl 2)
  · intro hspaced
    refine ⟨fun request => ⟨requestLine_of_accepted hspaced, ?_⟩, fun h => ?_⟩
    · rintro ⟨method, url, version, hline⟩
      rw [hline.parts, parseRequestLine_wellFormed hline.method_ok hline.url_ne hline.version_ok]
    · obtain ⟨method, url, version, hline⟩ := requestLine_of_accepted hspaced h
      refine ⟨method, url, version, hline, ?_⟩
      rw [hline.parts, parseRequestLine_wellFormed hline.method_ok hline.url_ne hline.version_ok,
        storeUrl_fresh]
      rfl

/-- A line with a space in its URL is accepted. -/
theorem spaced_url_accepted :
    (parseRequestLine (ascii "GET /a b HTTP/1.1") {}).1 = true ∧
      ¬ParsedByGrammar (ascii "GET /a b HTTP/1.1") := by
  refine ⟨by decide, fun h => ?_⟩
  obtain ⟨method, url, version, hline⟩ := (h.1 {}).mp (by decide)
  exact absurd hline.count (by decide)

end ClearMoon.Http

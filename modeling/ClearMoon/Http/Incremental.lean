import ClearMoon.Http.Context

/-!
# Parsing in pieces

The loop of `parse` is resumable: none of its turns depends on bytes that come behind the line or
the body it reads, and a turn that lacks input changes nothing. Cutting the input anywhere and
keeping the context, the request and the response across the calls therefore makes no difference.
-/

namespace ClearMoon.Http

open ClearMoon.Net

/-- What can be observed of a parse: all but the layout of the buffer. -/
structure View where
  context : HttpContext
  /-- The readable bytes. -/
  input : Bytes
  request : HttpRequest
  response : HttpResponse

/-- The observation of the four objects. -/
def Parsing.view (p : Parsing) : View := ⟨p.context, p.buf.readable, p.request, p.response⟩

/-- More bytes arrive behind the readable ones. -/
def View.extend (v : View) (b : Bytes) : View := { v with input := v.input ++ b }

/-- The bytes of a read are appended to the buffer. -/
def Parsing.receive (p : Parsing) (b : Bytes) : Parsing := { p with buf := p.buf.append b }

/-- Bytes received are seen behind those received before. -/
@[simp] theorem Parsing.view_receive (p : Parsing) (b : Bytes) :
    (p.receive b).view = p.view.extend b := by
  simp only [Parsing.view, Parsing.receive, View.extend, Buffer.readable_append]

/-- A line that is complete is taken alike when more bytes follow. -/
theorem takeLine_append {buf buf' rest : Buffer} {line b : Bytes}
    (h : takeLine buf = some (line, rest)) (hb : buf'.readable = buf.readable ++ b) :
    ∃ rest', takeLine buf' = some (line, rest') ∧ rest'.readable = rest.readable ++ b := by
  obtain ⟨i, hi, he⟩ := Option.map_eq_some_iff.mp h
  obtain ⟨rfl, rfl⟩ := Prod.mk.inj he
  have hle := search_le hi
  simp only [kCRLF, List.length_cons, List.length_nil] at hle
  refine ⟨buf'.retrieve (i + 2), ?_, ?_⟩
  · rw [takeLine, Buffer.findCRLF, hb, search_append hi b, Option.map_some,
      List.take_append_of_le_length (by omega)]
  · rw [Buffer.readable_retrieve, Buffer.readable_retrieve, hb,
      List.drop_append_of_le_length (by omega)]

/-- A body that has arrived is read alike when more bytes follow. -/
theorem readAsString_append {buf buf' : Buffer} {len : Nat} {b : Bytes}
    (h : len ≤ buf.readableBytes) (hb : buf'.readable = buf.readable ++ b) :
    len ≤ buf'.readableBytes ∧ (buf'.readAsString len).1 = (buf.readAsString len).1 ∧
      (buf'.readAsString len).2.readable = (buf.readAsString len).2.readable ++ b := by
  rw [← Buffer.length_readable] at h
  refine ⟨?_, ?_, ?_⟩
  · rw [← Buffer.length_readable, hb, List.length_append]
    omega
  · rw [Buffer.readAsString_fst, Buffer.readAsString_fst, hb,
      List.take_append_of_le_length h]
  · rw [Buffer.readable_readAsString, Buffer.readable_readAsString, hb,
      List.drop_append_of_le_length h]

/-- States that agree up to later input agree in everything but the buffer. -/
theorem view_eq_extend {p q : Parsing} {b : Bytes} (h : q.view = p.view.extend b) :
    ∃ buf, q = { p with buf } ∧ buf.readable = p.buf.readable ++ b := by
  obtain ⟨context, buf, request, response⟩ := q
  simp only [Parsing.view, View.extend, View.mk.injEq] at h
  obtain ⟨rfl, hb, rfl, rfl⟩ := h
  exact ⟨buf, rfl, hb⟩

/-- A turn that goes on does the same when more bytes follow. -/
theorem parseTurn_again {p p' q : Parsing} {b : Bytes} (h : parseTurn p = .again p')
    (hq : q.view = p.view.extend b) :
    ∃ q', parseTurn q = .again q' ∧ q'.view = p'.view.extend b := by
  obtain ⟨buf, rfl, hb⟩ := view_eq_extend hq
  rcases parseTurn_again_cases h with ⟨hs, line, rest, request, hline, haccept, rfl⟩ |
    ⟨hs, rest, hline, rfl⟩ | ⟨hs, line, rest, hline, hne, rfl⟩ | ⟨hs, hempty, rfl⟩ |
    ⟨hs, hne, len, hlen, hle, rfl⟩
  · obtain ⟨rest', hline', hrest⟩ := takeLine_append hline hb
    simp only [parseTurn, hs, hline', haccept]
    exact ⟨_, rfl, by simp only [Parsing.view, View.extend, hrest]⟩
  · obtain ⟨rest', hline', hrest⟩ := takeLine_append hline hb
    simp only [parseTurn, hs, hline', ite_true]
    exact ⟨_, rfl, by simp only [Parsing.view, View.extend, hrest]⟩
  · obtain ⟨rest', hline', hrest⟩ := takeLine_append hline hb
    simp only [parseTurn, hs, hline', if_neg hne]
    exact ⟨_, rfl, by simp only [Parsing.view, View.extend, hrest]⟩
  · simp only [parseTurn, hs, if_pos hempty]
    exact ⟨_, rfl, by simp only [Parsing.view, View.extend, hb]⟩
  · obtain ⟨hle', hbody, hrest⟩ := readAsString_append hle hb
    simp only [parseTurn, hs, if_neg hne, hlen, if_pos hle']
    exact ⟨_, rfl, by simp only [Parsing.view, View.extend, hbody, hrest]⟩

/-- A turn that ends the call does the same when more bytes follow. -/
theorem parseTurn_leave {p p' q : Parsing} {b : Bytes} {r : ParseResult}
    (h : parseTurn p = .leave p' r) (hq : q.view = p.view.extend b) :
    ∃ q', parseTurn q = .leave q' r ∧ q'.view = p'.view.extend b := by
  obtain ⟨buf, rfl, hb⟩ := view_eq_extend hq
  rcases parseTurn_leave_cases h with ⟨hs, rfl, line, rest, request, hline, hreject, rfl⟩ |
    ⟨hs, rfl, hne, e, he, rfl⟩ | ⟨hs, rfl, rfl⟩
  · obtain ⟨rest', hline', hrest⟩ := takeLine_append hline hb
    simp only [parseTurn, hs, hline', hreject]
    exact ⟨_, rfl, by simp only [Parsing.view, View.extend, hrest]⟩
  · simp only [parseTurn, hs, if_neg hne, he]
    exact ⟨_, rfl, by simp only [Parsing.view, View.extend, hb]⟩
  · simp only [parseTurn, hs]
    exact ⟨_, rfl, by simp only [Parsing.view, View.extend, hb]⟩

/-- Whether a turn starves depends on the view only. -/
theorem parseTurn_starve_congr {p p' q : Parsing} (h : parseTurn p = .starve p')
    (hq : q.view = p.view) : ∃ q', parseTurn q = .starve q' := by
  have hp : p.view = q.view.extend [] := by simp only [hq, View.extend, List.append_nil]
  cases hturn : parseTurn q with
  | starve q' => exact ⟨q', rfl⟩
  | again q' =>
    obtain ⟨p', hp', -⟩ := parseTurn_again hturn hp
    rw [h] at hp'
    contradiction
  | leave q' r =>
    obtain ⟨p', hp', -⟩ := parseTurn_leave hturn hp
    rw [h] at hp'
    contradiction

/-- The parser does not look past the bytes that it needs. -/
theorem parseLoop_resumable : parseLoop.Resumable Parsing.view View.extend where
  again := parseTurn_again
  leave := parseTurn_leave
  starve h := by rw [(parseTurn_starve h).1]
  starve_congr := parseTurn_starve_congr
  extend_nil v := by simp only [View.extend, List.append_nil]

/-- The loop starves outside the last state only, so a starved call returns `false`. -/
theorem run_starved_state {p : Parsing} (h : (parseLoop.run p).2 = .starved) :
    (parseLoop.run p).1.context.state ≠ .kGotAll := by
  induction p using parseLoop.run_induction with
  | again p q hb ih =>
    rw [parseLoop.run_again hb] at h ⊢
    exact ih h
  | leave p q r hb =>
    rw [parseLoop.run_leave hb] at h
    contradiction
  | starve p q hb =>
    obtain ⟨rfl, hs⟩ := parseTurn_starve hb
    rw [parseLoop.run_starve hb]
    exact hs

/-- No turn ends the loop by returning `false`. -/
theorem parseTurn_leave_ne_false {p q : Parsing} {r : ParseResult}
    (h : parseTurn p = .leave q r) : r ≠ .ok false := by
  rcases parseTurn_leave_cases h with ⟨-, rfl, -⟩ | ⟨-, -, -, e, -, rfl⟩ | ⟨-, -, rfl⟩ <;> nofun

/-- A call returns `false` exactly when its loop starves. -/
theorem parse_eq_false_iff (p : Parsing) :
    (parse p).2 = .ok false ↔ (parseLoop.run p).2 = .starved := by
  constructor
  · intro h
    induction p using parseLoop.run_induction with
    | again p q hb ih =>
      rw [parse, parseLoop.run_again hb] at h
      rw [parseLoop.run_again hb]
      exact ih h
    | leave p q r hb =>
      rw [parse, parseLoop.run_leave hb] at h
      exact absurd h (parseTurn_leave_ne_false hb)
    | starve p q hb => rw [parseLoop.run_starve hb]
  · intro h
    simp [parse, h, parseResult, run_starved_state h]

/-- A call that ends does the same when more bytes stand behind what it reads. -/
theorem parse_extend {p q : Parsing} {b : Bytes} (hp : (parse p).2 ≠ .ok false)
    (hq : q.view = p.view.extend b) :
    (parse q).2 = (parse p).2 ∧ (parse q).1.view = (parse p).1.view.extend b := by
  cases hrun : parseLoop.run p with
  | mk p' exit =>
    cases exit with
    | starved => exact absurd ((parse_eq_false_iff p).mpr (by rw [hrun])) hp
    | left r =>
      obtain ⟨q', hrun', hview⟩ := parseLoop_resumable.run_left hrun hq
      simp only [parse, hrun, hrun', parseResult]
      exact ⟨trivial, hview⟩

/-- A call that wants more input, made again with more input, ends as one call on all of it. -/
theorem parse_resume {p q u : Parsing} {b : Bytes} (hp : (parse p).2 = .ok false)
    (hq : q.view = p.view.extend b) (hu : u.view = (parse p).1.view.extend b) :
    (parse q).2 = (parse u).2 ∧ (parse q).1.view = (parse u).1.view := by
  have hrun : parseLoop.run p = ((parse p).1, .starved) :=
    Prod.ext rfl ((parse_eq_false_iff p).mp hp)
  obtain ⟨hexit, hview⟩ := parseLoop_resumable.run_starved hrun hq hu
  refine ⟨?_, hview⟩
  simp only [parse, hexit]
  rw [show (parseLoop.run q).1.context = (parseLoop.run u).1.context from
    congrArg View.context hview]

/-- The incremental parsing law: a call on `a` that returns `false`, repeated after `b` has been
appended, delivers what one call on `a ++ b` delivers; a call on `a` that returns `true` or throws
delivers the same on `a ++ b` and leaves `b` behind. -/
theorem parse_incremental (p : Parsing) (b : Bytes) :
    ((parse p).2 = .ok false →
      (parse (p.receive b)).2 = (parse ((parse p).1.receive b)).2 ∧
      (parse (p.receive b)).1.view = (parse ((parse p).1.receive b)).1.view) ∧
    ((parse p).2 ≠ .ok false →
      (parse (p.receive b)).2 = (parse p).2 ∧
      (parse (p.receive b)).1.view = (parse p).1.view.extend b) :=
  ⟨fun h => parse_resume h (p.view_receive b) ((parse p).1.view_receive b),
    fun h => parse_extend h (p.view_receive b)⟩

end ClearMoon.Http

import ClearMoon.Core.Log
import ClearMoon.Tcp.Connection

/-!
# The stages of a number

A number is given to `sendWithRetransmit`, and its data is handed over by the lambda and again by
each timeout that finds the entry, until the number is acknowledged, its retries are used up or the
connection is gone. A number that is given once stands in one place at a time, and the retries of
its entry tell how often its data has been handed over.
-/

namespace ClearMoon.Tcp

/-- What happens to a number. -/
inductive Transmission where
  /-- `sendWithRetransmit` is called. -/
  | given (seq : Nat)
  /-- The data is handed to `send` or `sendInLoop`. -/
  | handed (seq : Nat)
  /-- The lambda of `sendWithRetransmit` is over. -/
  | finished (seq : Nat)
  /-- `ackReceived` runs in the loop. -/
  | acked (seq : Nat)
  /-- `connectDestroyed` runs, for all numbers. -/
  | destroyed
  deriving DecidableEq

def Transmission.seq? : Transmission → Option Nat
  | given seq | handed seq | finished seq | acked seq => some seq
  | destroyed => none

/-- What the retransmission of one number depends on. -/
structure Standing where
  state : StateE
  /-- Lambdas of `sendWithRetransmit` that have not begun. -/
  queued : Nat
  /-- Lambdas behind `send`. -/
  sending : Nat
  node : Option RetransmitNode
  /-- The calls of `onRetransmitTimeout` behind `sendInLoop`, with their references. -/
  resends : List Nat

namespace Standing

variable {x y : Standing} {seq : Nat} {history : List Transmission} {e : Option Transmission}

/-- What may happen to a number in one step. -/
inductive Moves (seq : Nat) (x : Standing) : Option Transmission → Standing → Prop
  | still {e s} (he : ∀ t ∈ e, t.seq? ≠ some seq) : Moves seq x e { x with state := s }
  | drop {e s} (he : ∀ t ∈ e, t.seq? ≠ some seq)
      (hgone : e = some .destroyed ∨ s = .kDisConnected) :
      Moves seq x e { x with state := s, node := none }
  | give : Moves seq x (some (.given seq)) { x with queued := x.queued + 1 }
  | hand {k} (hqueued : x.queued = k + 1) :
      Moves seq x (some (.handed seq)) { x with queued := k, sending := x.sending + 1 }
  | finish {k n} (hsending : x.sending = k + 1) (hnew : n.entry.retries = 0) :
      Moves seq x (some (.finished seq)) { x with sending := k, node := some n }
  | ack : Moves seq x (some (.acked seq)) { x with node := none }
  | resend {n} (hnode : x.node = some n) (hretries : n.entry.retries < kMaxRetries)
      (hfirst : x.resends = []) :
      Moves seq x (some (.handed seq)) { x with resends := [n.id] }
  | restart {n n' rest} (hnode : x.node = some n) (hresends : x.resends = n.id :: rest)
      (hid : n'.id = n.id) (hretries : n'.entry.retries = n.entry.retries + 1) :
      Moves seq x none { x with node := some n', resends := rest }
  | exhaust {n s} (hnode : x.node = some n) (hretries : kMaxRetries ≤ n.entry.retries)
      (hclosed : x.state ≠ .kConnecting → s = .kDisConnected) :
      Moves seq x none { x with state := s, node := none }

/-- No data of the number is handed over when it has been acknowledged. -/
def NotAcked (seq : Nat) (before : List Transmission) (t : Transmission) : Prop :=
  t = .handed seq → ¬[.finished seq, .acked seq].Sublist before

/-- The record of a number that is given once, and where it stands. -/
structure Accounted (seq : Nat) (x : Standing) (history : List Transmission) : Prop where
  given : history.count (.given seq) = x.queued + x.sending + history.count (.finished seq)
  once : history.count (.given seq) ≤ 1
  /-- Before the lambda is over there is no entry. -/
  fresh : .finished seq ∉ history →
    x.node = none ∧ x.resends = [] ∧ history.count (.handed seq) = x.sending
  /-- The entry counts how often the data has been handed over. -/
  retried : .finished seq ∈ history → ∀ n ∈ x.node,
    history.count (.handed seq) = 1 + n.entry.retries + x.resends.length ∧
      n.entry.retries + x.resends.length ≤ kMaxRetries ∧ ∀ i ∈ x.resends, i = n.id
  bounded : history.count (.handed seq) ≤ 1 + kMaxRetries
  silent : [.finished seq, .acked seq].Sublist history → x.node = none
  atEvery : AtEvery (NotAcked seq) history
  kept : .finished seq ∈ history → .acked seq ∉ history → .destroyed ∉ history →
    x.state ≠ .kDisConnected → x.node ≠ none

/-- What stands in this order stood so before an event that is not the second. -/
theorem sublist_concat_of_ne {a b t : Transmission} {h : List Transmission} (hne : t ≠ b)
    (hs : [a, b].Sublist (h ++ [t])) : [a, b].Sublist h := by
  obtain ⟨l, l', he, hl, hl'⟩ := List.sublist_append_iff.mp hs
  rcases List.sublist_singleton.mp hl' with rfl | rfl
  · rw [he, List.append_nil]
    exact hl
  · have hlast := congrArg List.getLast? he
    simp at hlast
    exact absurd hlast.symm hne

/-- What does not concern the number leaves its record alone, and its entry or drops it. -/
theorem Accounted.other (h : Accounted seq x history) {n : Option RetransmitNode} {s : StateE}
    (he : ∀ t ∈ e, t.seq? ≠ some seq) (hclosed : x.state = .kDisConnected → s = .kDisConnected)
    (hnode : n = x.node ∨ n = none ∧ (e = some .destroyed ∨ s = .kDisConnected)) :
    Accounted seq { x with state := s, node := n } (history ++ e.toList) := by
  have hcount {u : Transmission} (hu : u.seq? = some seq) :
      (history ++ e.toList).count u = history.count u := by
    have hnot : u ∉ e.toList := fun hmem => he u (Option.mem_toList.mp hmem) hu
    rw [List.count_append, List.count_eq_zero_of_not_mem hnot, Nat.add_zero]
  have hmem {u : Transmission} (hu : u.seq? = some seq) :
      u ∈ history ++ e.toList ↔ u ∈ history := by
    rw [List.mem_append]
    exact or_iff_left fun hmem => he u (Option.mem_toList.mp hmem) hu
  have hsub (hs : [.finished seq, .acked seq].Sublist (history ++ e.toList)) :
      [.finished seq, .acked seq].Sublist history := by
    cases e with
    | none => simpa using hs
    | some t =>
      refine sublist_concat_of_ne (fun ht => he t rfl ?_) hs
      rw [ht, Transmission.seq?]
  have hold {i : RetransmitNode} (hi : i ∈ n) : i ∈ x.node := by
    rcases hnode with rfl | ⟨rfl, -⟩
    · exact hi
    · contradiction
  have hnone (hx : x.node = none) : n = none := by
    rcases hnode with rfl | ⟨rfl, -⟩
    · exact hx
    · rfl
  refine ⟨?_, ?_, fun hf => ?_, fun hf i hi => ?_, ?_, fun hs => hnone (h.silent (hsub hs)), ?_,
    fun hf ha hd hs => ?_⟩
  · rw [hcount rfl, hcount rfl]
    exact h.given
  · rw [hcount rfl]
    exact h.once
  · rw [hmem rfl] at hf
    obtain ⟨hx, hresends, hhanded⟩ := h.fresh hf
    exact ⟨hnone hx, hresends, (hcount rfl).trans hhanded⟩
  · rw [hcount rfl]
    exact h.retried ((hmem rfl).mp hf) i (hold hi)
  · rw [hcount rfl]
    exact h.bounded
  · refine (atEvery_append fun _ t ht hhanded => ?_).mpr h.atEvery
    exact absurd (hhanded ▸ rfl) (he t (Option.mem_toList.mp ht))
  · rw [hmem rfl] at hf ha
    rcases hnode with rfl | ⟨-, rfl | rfl⟩
    · exact h.kept hf ha (fun hmem => hd (List.mem_append_left _ hmem)) fun hx => hs (hclosed hx)
    · exact absurd (List.mem_append_right _ (Option.mem_toList.mpr rfl)) hd
    · exact absurd rfl hs

/-- While a lambda has not begun or stands behind `send`, none has finished. -/
theorem Accounted.unfinished (h : Accounted seq x history) (hpos : 0 < x.queued + x.sending) :
    .finished seq ∉ history := by
  intro hmem
  have hgiven := h.given
  have honce := h.once
  have hfinished := List.count_pos_iff.mpr hmem
  omega

/-- A number given for the first time waits in the queue. -/
theorem Accounted.give (h : Accounted seq x history) (hfirst : .given seq ∉ history) :
    Accounted seq { x with queued := x.queued + 1 } (history ++ [.given seq]) := by
  have hzero := List.count_eq_zero_of_not_mem hfirst
  have hgiven := h.given
  have hfinished : .finished seq ∉ history := by
    rw [← List.count_eq_zero]
    omega
  have hfinished' : .finished seq ∉ history ++ [.given seq] := by simpa using hfinished
  refine ⟨?_, ?_, fun _ => ?_, fun hf => absurd hf hfinished', ?_, fun hs => ?_, ?_,
    fun hf => absurd hf hfinished'⟩
  · simp only [List.count_append, List.count_singleton, beq_iff_eq]
    simp
    omega
  · simp [List.count_append, hzero]
  · simpa [List.count_append] using h.fresh hfinished
  · simpa [List.count_append] using h.bounded
  · exact h.silent (sublist_concat_of_ne (by simp) hs)
  · exact h.atEvery.concat (by simp [NotAcked])

/-- Its message is handed over. -/
theorem Accounted.hand (h : Accounted seq x history) {k : Nat} (hqueued : x.queued = k + 1) :
    Accounted seq { x with queued := k, sending := x.sending + 1 } (history ++ [.handed seq]) := by
  have hgiven := h.given
  have honce := h.once
  have hfinished := h.unfinished (by omega)
  have hfinished' : .finished seq ∉ history ++ [.handed seq] := by simpa using hfinished
  obtain ⟨hnode, hresends, hhanded⟩ := h.fresh hfinished
  have hsending : x.sending = 0 := by omega
  refine ⟨?_, ?_, fun _ => ?_, fun hf => absurd hf hfinished', ?_, fun _ => hnode, ?_,
    fun hf => absurd hf hfinished'⟩
  · simp [List.count_append]
    omega
  · simpa [List.count_append] using honce
  · exact ⟨hnode, hresends, by simp [List.count_append, hhanded]⟩
  · simp [List.count_append, hhanded, hsending]
  · refine h.atEvery.concat fun _ hs => hfinished (hs.subset ?_)
    exact List.mem_cons_self

/-- Behind the first send its entry starts with no retry. -/
theorem Accounted.finish (h : Accounted seq x history) {k : Nat} {n : RetransmitNode}
    (hsending : x.sending = k + 1) (hnew : n.entry.retries = 0) :
    Accounted seq { x with sending := k, node := some n } (history ++ [.finished seq]) := by
  have hgiven := h.given
  have honce := h.once
  have hfinished := h.unfinished (by omega)
  obtain ⟨-, hresends, hhanded⟩ := h.fresh hfinished
  have hzero := List.count_eq_zero_of_not_mem hfinished
  refine ⟨?_, ?_, fun hf => ?_, fun _ i hi => ?_, ?_, fun hs => ?_, ?_, fun _ _ _ _ => ?_⟩
  · simp [List.count_append]
    omega
  · simpa [List.count_append] using honce
  · simp at hf
  · obtain rfl := Option.some.inj hi
    simp [List.count_append, hresends, hnew]
    omega
  · simpa [List.count_append] using h.bounded
  · exact absurd ((sublist_concat_of_ne (by simp) hs).subset List.mem_cons_self) hfinished
  · exact h.atEvery.concat (by simp [NotAcked])
  · simp

/-- An ack takes the entry away. -/
theorem Accounted.ack (h : Accounted seq x history) :
    Accounted seq { x with node := none } (history ++ [.acked seq]) := by
  refine ⟨?_, ?_, fun hf => ?_, fun _ i hi => ?_, ?_, fun _ => rfl, ?_, fun _ ha => ?_⟩
  · simpa [List.count_append] using h.given
  · simpa [List.count_append] using h.once
  · obtain ⟨-, hresends, hhanded⟩ := h.fresh (by simpa using hf)
    exact ⟨rfl, hresends, by simpa [List.count_append] using hhanded⟩
  · contradiction
  · simpa [List.count_append] using h.bounded
  · exact h.atEvery.concat (by simp [NotAcked])
  · simp at ha

/-- A timeout below the bound hands the message over again. -/
theorem Accounted.resend (h : Accounted seq x history) {n : RetransmitNode}
    (hnode : x.node = some n) (hretries : n.entry.retries < kMaxRetries) (hfirst : x.resends = []) :
    Accounted seq { x with resends := [n.id] } (history ++ [.handed seq]) := by
  have hfinished : .finished seq ∈ history := by
    by_contra hf
    have := (h.fresh hf).1
    rw [hnode] at this
    contradiction
  obtain ⟨hhanded, -, -⟩ := h.retried hfinished n hnode
  rw [hfirst, List.length_nil, Nat.add_zero] at hhanded
  refine ⟨?_, ?_, fun hf => ?_, fun _ i hi => ?_, ?_, fun hs => ?_, ?_, fun _ _ _ _ => ?_⟩
  · simpa [List.count_append] using h.given
  · simpa [List.count_append] using h.once
  · simp [hfinished] at hf
  · obtain rfl := Option.some.inj (hnode.symm.trans hi)
    refine ⟨?_, hretries, by simp⟩
    simp [List.count_append, hhanded]
  · simp [List.count_append, hhanded]
    omega
  · exact h.silent (sublist_concat_of_ne (by simp) hs)
  · refine h.atEvery.concat fun _ hs => ?_
    have := h.silent hs
    rw [hnode] at this
    contradiction
  · simp [hnode]

/-- Behind it one more retry is counted. -/
theorem Accounted.restart (h : Accounted seq x history) {n n' : RetransmitNode} {rest : List Nat}
    (hnode : x.node = some n) (hresends : x.resends = n.id :: rest) (hid : n'.id = n.id)
    (hretries : n'.entry.retries = n.entry.retries + 1) :
    Accounted seq { x with node := some n', resends := rest } history := by
  have hfinished : .finished seq ∈ history := by
    by_contra hf
    have := (h.fresh hf).1
    rw [hnode] at this
    contradiction
  obtain ⟨hhanded, hmax, hids⟩ := h.retried hfinished n hnode
  rw [hresends, List.length_cons] at hhanded hmax
  refine ⟨h.given, h.once, fun hf => absurd hfinished hf, fun _ i hi => ?_, h.bounded, fun hs => ?_,
    h.atEvery, fun _ _ _ _ => by simp⟩
  · obtain rfl := Option.some.inj hi
    refine ⟨by dsimp only; omega, by dsimp only; omega, fun j hj => ?_⟩
    rw [hid]
    exact hids j (hresends ▸ List.mem_cons_of_mem _ hj)
  · have := h.silent hs
    rw [hnode] at this
    contradiction

/-- Every move keeps the account of its number. -/
theorem Accounted.step (h : Accounted seq x history) (hmoves : Moves seq x e y)
    (hfirst : e = some (.given seq) → .given seq ∉ history)
    (hclosed : x.state = .kDisConnected → y.state = .kDisConnected)
    (hearly : x.state = .kConnecting → ∀ n ∈ x.node, n.entry.retries < kMaxRetries) :
    Accounted seq y (history ++ e.toList) := by
  cases hmoves with
  | still he => exact h.other he hclosed (.inl rfl)
  | drop he hgone => exact h.other he hclosed (.inr ⟨rfl, hgone⟩)
  | give => exact h.give (hfirst rfl)
  | hand hqueued => exact h.hand hqueued
  | finish hsending hnew => exact h.finish hsending hnew
  | ack => exact h.ack
  | resend hnode hretries hnone => exact h.resend hnode hretries hnone
  | restart hnode hresends hid hretries =>
    rw [Option.toList_none, List.append_nil]
    exact h.restart hnode hresends hid hretries
  | @exhaust n s hnode hretries hgone =>
    refine h.other (e := none) (by simp) hclosed (.inr ⟨rfl, .inr (hgone fun hs => ?_)⟩)
    exact absurd (hearly hs n hnode) (Nat.not_lt.mpr hretries)

end Standing

end ClearMoon.Tcp

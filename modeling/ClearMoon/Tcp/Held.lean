import ClearMoon.Timer.Armed
import ClearMoon.Tcp.Connection

/-!
# The timers that a connection holds

A connection keeps the ids of its timers: the idle timer's in `idleTimerId_`, and a retransmit
timer's in each entry of `pendingRetrans_`. The queue knows them by the callbacks. The two are
matched if a retransmit timer is armed exactly under the ids of the entries, but for the one whose
timeout is being handled. An entry is handed over again at most once in a batch of expired timers,
so its retries are bounded by the number of batches.
-/

namespace ClearMoon.Tcp

open ClearMoon.Net ClearMoon.Timer

/-- The number whose timeout the functor handles. -/
def Functor.timeout? : Functor → Option Nat
  | onRetransmitTimeout seq => some seq
  | _ => none

/-- A frame of the timer queue, or of a timeout that is being handled. -/
def Frame.ofTimers : Frame → Bool
  | onRetransmitTimeout _ _ | timerQueue => true
  | _ => false

/-- What the timers of a connection depend on. -/
structure Held where
  timers : TimerLoop Task
  idleTimerId : Option TimerId
  pendingRetrans : Std.ExtTreeMap Nat RetransmitNode
  /-- The number whose timeout the loop thread handles next. -/
  timeout : Option Nat
  /-- The frames of timers that are on the stack. -/
  frames : List Frame

namespace Held

/-- A retransmit timer of the number is armed under the id. -/
def Live (x : Held) (seq : Nat) (id : TimerId) : Prop :=
  x.timers.Armed id (.onRetransmitTimeout seq)

/-- A retransmit timer of the number has expired under the id, and has not been started. -/
def Fired (x : Held) (seq : Nat) (id : TimerId) : Prop :=
  x.timers.Due id (.onRetransmitTimeout seq)

/-- A timeout of the number is on its way, or is being handled. -/
def Busy (x : Held) (seq : Nat) : Prop :=
  x.timeout = some seq ∨ (∃ id, x.Fired seq id) ∨ ∃ node, .onRetransmitTimeout seq node ∈ x.frames

/-- The entry of a number and its timers go together, when `b` batches have begun. -/
structure Paired (x : Held) (b seq : Nat) : Prop where
  key : ∀ node ∈ x.pendingRetrans[seq]?, node.entry.seq = seq
  issued : ∀ node ∈ x.pendingRetrans[seq]?, ∀ id ∈ node.entry.timerId,
    x.timers.queue.Issued id (.onRetransmitTimeout seq)
  /-- The entry has a timer, which is armed unless it has just expired. -/
  placed : ∀ node ∈ x.pendingRetrans[seq]?, ∃ id, node.entry.timerId = some id ∧
    (x.Live seq id ∨ x.Fired seq id ∨ x.timeout = some seq ∨
      .onRetransmitTimeout seq node.id ∈ x.frames)
  /-- No other timer is armed. -/
  armed : ∀ id, x.Live seq id → ∃ node ∈ x.pendingRetrans[seq]?, node.entry.timerId = some id
  /-- An entry with an armed timer, while another one has expired, is a new one. -/
  stale : (x.timeout = some seq ∨ ∃ id, x.Fired seq id) → ∀ node ∈ x.pendingRetrans[seq]?,
    ∀ id ∈ node.entry.timerId, x.Live seq id → node.entry.retries = 0
  one : ∀ id id', x.Fired seq id → x.Fired seq id' → id = id'
  alone : (x.timeout = some seq ∨ ∃ node, .onRetransmitTimeout seq node ∈ x.frames) →
    ∀ id, ¬x.Fired seq id
  /-- A number times out at most once in a batch. -/
  paced : ∀ node ∈ x.pendingRetrans[seq]?,
    node.entry.retries ≤ b ∧ (x.Busy seq → node.entry.retries < b)

/-- Timeouts are handled one at a time, inside a batch. -/
structure Shaped (x : Held) (b : Nat) : Prop where
  frames : x.frames = [] ∨ x.frames = [.timerQueue] ∨
    ∃ seq node, x.frames = [.onRetransmitTimeout seq node, .timerQueue]
  batch : x.timers.batch.isSome → x.frames ≠ []
  begun : x.frames ≠ [] → 0 < b
  timeout : x.timeout ≠ none → x.frames = [.timerQueue]

/-- The ids that the connection keeps are those of its armed timers. -/
structure Matched (x : Held) (b : Nat) : Prop where
  shaped : x.Shaped b
  tidy : x.timers.Tidy (· ≠ .user)
  idle_issued : ∀ id ∈ x.idleTimerId, x.timers.queue.Issued id .onIdleTimeout
  idle_armed : ∀ id, x.timers.Armed id .onIdleTimeout → x.idleTimerId = some id
  paired : ∀ seq, x.Paired b seq

variable {x y : Held} {b seq : Nat}

/-- Nothing that concerns the number has changed. -/
theorem Paired.same (h : x.Paired b seq) (hkeeps : x.timers.queue.Keeps y.timers.queue)
    (hnode : y.pendingRetrans[seq]? = x.pendingRetrans[seq]?)
    (hlive : ∀ id, y.Live seq id ↔ x.Live seq id) (hfired : ∀ id, y.Fired seq id ↔ x.Fired seq id)
    (htimeout : y.timeout = some seq ↔ x.timeout = some seq)
    (hframes : ∀ node, .onRetransmitTimeout seq node ∈ y.frames ↔
      .onRetransmitTimeout seq node ∈ x.frames) : y.Paired b seq where
  key := by
    rw [hnode]
    exact h.key
  issued := by
    rw [hnode]
    exact fun node hn id hid => (h.issued node hn id hid).keeps hkeeps
  placed := by
    simp only [hnode, hlive, hfired, htimeout, hframes]
    exact h.placed
  armed := by
    simp only [hnode, hlive]
    exact h.armed
  stale := by
    simp only [hnode, hlive, hfired, htimeout]
    exact h.stale
  one := by
    simp only [hfired]
    exact h.one
  alone := by
    simp only [hfired, htimeout, hframes]
    exact h.alone
  paced := by
    simp only [hnode, Busy, hfired, htimeout, hframes]
    exact h.paced

/-- Without an entry no timer is armed. -/
theorem Paired.none (hnode : y.pendingRetrans[seq]? = none) (hlive : ∀ id, ¬y.Live seq id)
    (hone : ∀ id id', y.Fired seq id → y.Fired seq id' → id = id')
    (halone : (y.timeout = some seq ∨ ∃ node, .onRetransmitTimeout seq node ∈ y.frames) →
      ∀ id, ¬y.Fired seq id) : y.Paired b seq where
  key := by simp [hnode]
  issued := by simp [hnode]
  placed := by simp [hnode]
  armed id hid := absurd hid (hlive id)
  stale := by simp [hnode]
  one := hone
  alone := halone
  paced := by simp [hnode]

/-- A frame of a timeout stands right above the timer queue's. -/
theorem Shaped.bottom (h : x.Shaped b) {n : Nat} {rest : List Frame}
    (hframes : x.frames = .onRetransmitTimeout seq n :: rest) : rest = [.timerQueue] := by
  obtain hnil | hone | ⟨seq', n', htwo⟩ := h.frames
  · simp [hnil] at hframes
  · simp [hone] at hframes
  · rw [htwo] at hframes
    exact (List.cons.inj hframes).2.symm

/-- The end of `onRetransmitTimeout` leaves the shape behind it. -/
theorem Shaped.pop (h : x.Shaped b) {n : Nat} {rest : List Frame}
    (hframes : x.frames = .onRetransmitTimeout seq n :: rest) :
    Shaped { x with frames := rest } b where
  frames := .inr (.inl (h.bottom hframes))
  batch _ := by simp [h.bottom hframes]
  begun _ := h.begun (by simp [hframes])
  timeout _ := h.bottom hframes

/-- A step that leaves batch and frames alone, and starts no timeout, keeps the shape. -/
theorem Shaped.same (h : x.Shaped b) (hbatch : y.timers.batch = x.timers.batch)
    (htimeout : y.timeout ≠ none → x.timeout ≠ none) (hframes : y.frames = x.frames) :
    y.Shaped b where
  frames := by
    rw [hframes]
    exact h.frames
  batch := by
    rw [hbatch, hframes]
    exact h.batch
  begun := by
    rw [hframes]
    exact h.begun
  timeout ht := by
    rw [hframes]
    exact h.timeout (htimeout ht)

/-- Nothing times out before the first batch. -/
theorem Shaped.begun_of_busy (h : x.Shaped b) (hbusy : x.Busy seq) : 0 < b := by
  refine h.begun ?_
  rcases hbusy with htimeout | ⟨id, hfired⟩ | ⟨n, hn⟩
  · simp [h.timeout (by simp [htimeout])]
  · apply h.batch
    rw [Option.isSome_iff_ne_none]
    exact fun hb => TimerLoop.not_due_of_batch hb hfired
  · exact List.ne_nil_of_mem hn

/-- Timers of others are cancelled or added, and the id of the idle timer is set. -/
theorem Matched.retime (h : x.Matched b) {timers : TimerLoop Task} {idle : Option TimerId}
    (hbatch : timers.batch.isSome → x.timers.batch.isSome)
    (htidy : timers.Tidy (· ≠ .user)) (hkeeps : x.timers.queue.Keeps timers.queue)
    (hissued : ∀ id ∈ idle, timers.queue.Issued id .onIdleTimeout)
    (hidle : ∀ id, timers.Armed id .onIdleTimeout → idle = some id)
    (harmed : ∀ seq id, timers.Armed id (.onRetransmitTimeout seq) ↔ x.Live seq id)
    (hdue : ∀ seq id, timers.Due id (.onRetransmitTimeout seq) ↔ x.Fired seq id) :
    Matched { x with timers, idleTimerId := idle } b where
  shaped :=
    ⟨h.shaped.frames, fun hb => h.shaped.batch (hbatch hb), h.shaped.begun, h.shaped.timeout⟩
  tidy := htidy
  idle_issued := hissued
  idle_armed := hidle
  paired seq := (h.paired seq).same hkeeps rfl (harmed seq) (hdue seq) Iff.rfl fun _ => Iff.rfl

/-- An id that was given out for another callback is no id of a retransmit timer. -/
theorem Matched.cancelled (h : x.Matched b) {ids : TimerId → Prop} {timers : TimerLoop Task}
    {idle : Option TimerId} (hc : x.timers.Cancelled (· ≠ .user) ids timers)
    (hids : ∀ seq id, ids id → ¬x.Live seq id)
    (hidle : ∀ id, idle = some id → x.idleTimerId = some id)
    (hkept : ∀ id, x.idleTimerId = some id → ¬ids id → idle = some id) :
    Matched { x with timers, idleTimerId := idle } b := by
  refine h.retime (by rw [hc.batch]; exact id) hc.tidy hc.keeps
    (fun id hid => (h.idle_issued id (hidle id hid)).keeps hc.keeps)
    (fun id harmed => ?_) (fun seq id => ?_) fun seq id => hc.due id _
  · obtain ⟨harmed, hout⟩ := (hc.armed id _).mp harmed
    exact hkept id (h.idle_armed id harmed) hout
  · rw [hc.armed]
    exact and_iff_left_of_imp fun hlive hid => hids seq id hid hlive

/-- The entry of a number is dropped; no timer of the number is armed then. -/
theorem Matched.erase (h : x.Matched b) {timers : TimerLoop Task}
    (hbatch : timers.batch = x.timers.batch) (htidy : timers.Tidy (· ≠ .user))
    (hkeeps : x.timers.queue.Keeps timers.queue)
    (hidle : ∀ id, timers.Armed id .onIdleTimeout → x.timers.Armed id .onIdleTimeout)
    (hnone : ∀ id, ¬timers.Armed id (.onRetransmitTimeout seq))
    (hother : ∀ k ≠ seq, ∀ id, timers.Armed id (.onRetransmitTimeout k) ↔ x.Live k id)
    (hdue : ∀ k id, timers.Due id (.onRetransmitTimeout k) ↔ x.Fired k id) :
    Matched { x with timers, pendingRetrans := x.pendingRetrans.erase seq } b := by
  have hget (k : Nat) : (x.pendingRetrans.erase seq)[k]? =
      if seq = k then none else x.pendingRetrans[k]? := by
    simp [Std.ExtTreeMap.getElem?_erase]
  refine ⟨h.shaped.same hbatch id rfl, htidy, fun id hid => (h.idle_issued id hid).keeps hkeeps,
    fun id hid => h.idle_armed id (hidle id hid), fun k => ?_⟩
  by_cases hk : k = seq
  · subst hk
    have hp := h.paired k
    refine .none (by rw [hget, if_pos rfl]) hnone ?_ ?_
    · intro id id' hid hid'
      exact hp.one id id' ((hdue k id).mp hid) ((hdue k id').mp hid')
    · intro hrun id hid
      exact hp.alone hrun id ((hdue k id).mp hid)
  · refine (h.paired k).same hkeeps ?_ (hother k hk) (hdue k) Iff.rfl fun _ => Iff.rfl
    rw [hget, if_neg (Ne.symm hk)]

/-- The id of an entry is no id of another number's timer. -/
theorem Paired.not_live {k : Nat} (h : x.Paired b seq) {node : RetransmitNode}
    (hnode : x.pendingRetrans[seq]? = some node) {id : TimerId} (hid : node.entry.timerId = some id)
    (hk : k ≠ seq) : ¬x.Live k id := by
  intro hlive
  have hcb := (h.issued node hnode id hid).of_armed hlive
  exact hk (by simpa using hcb)

/-- A timeout has been handled whose entry is gone. -/
theorem Matched.settled (h : x.Matched b) (htimeout : x.timeout = some seq)
    (hnode : x.pendingRetrans[seq]? = none) : Matched { x with timeout := none } b := by
  refine ⟨h.shaped.same rfl (fun ht => absurd rfl ht) rfl, h.tidy, h.idle_issued, h.idle_armed,
    fun k => ?_⟩
  by_cases hk : k = seq
  · subst hk
    have hp := h.paired k
    refine .none hnode ?_ hp.one fun hrun => hp.alone (.inl htimeout)
    intro id hlive
    obtain ⟨node, hsome, -⟩ := hp.armed id hlive
    rw [hnode] at hsome
    contradiction
  · refine (h.paired k).same (.ofDeletes rfl fun ht => ht) rfl (fun _ => Iff.rfl)
      (fun _ => Iff.rfl) ?_ fun _ => Iff.rfl
    rw [htimeout, Option.some.injEq]
    exact iff_of_false (by simp) (Ne.symm hk)

/-- A timeout is handled, and the data of its entry handed over again. -/
theorem Matched.resent (h : x.Matched b) (htimeout : x.timeout = some seq) {node : RetransmitNode}
    (hnode : x.pendingRetrans[seq]? = some node) :
    Matched { x with
      timeout := none
      frames := .onRetransmitTimeout seq node.id :: x.frames } b := by
  have hbottom := h.shaped.timeout (by simp [htimeout])
  have hbegun := h.shaped.begun (by simp [hbottom])
  refine ⟨⟨.inr (.inr ⟨seq, node.id, by rw [hbottom]⟩), by simp, fun _ => hbegun, by simp⟩, h.tidy,
    h.idle_issued, h.idle_armed, fun k => ?_⟩
  by_cases hk : k = seq
  · subst hk
    have hp := h.paired k
    refine ⟨hp.key, hp.issued, ?_, hp.armed, fun _ => hp.stale (.inl htimeout), hp.one,
      fun _ => hp.alone (.inl htimeout), ?_⟩
    · intro node' hnode'
      obtain rfl := Option.some.inj (hnode.symm.trans hnode')
      obtain ⟨id, hid, -⟩ := hp.placed node hnode
      exact ⟨id, hid, .inr (.inr (.inr List.mem_cons_self))⟩
    · intro node' hnode'
      exact ⟨(hp.paced node' hnode').1, fun _ => (hp.paced node' hnode').2 (.inl htimeout)⟩
  · refine (h.paired k).same (.ofDeletes rfl fun ht => ht) rfl (fun _ => Iff.rfl)
      (fun _ => Iff.rfl) ?_ fun n => ?_
    · rw [htimeout, Option.some.injEq]
      exact iff_of_false (by simp) (Ne.symm hk)
    · simp [hk]

/-- The only armed timer of the number is the one that its entry has just been given. -/
theorem Paired.rearm (h : x.Paired b seq) {node : RetransmitNode} {id : TimerId}
    (hseq : node.entry.seq = seq)
    (hgot : y.pendingRetrans[seq]? =
      some { node with entry := { node.entry with timerId := some id } })
    (hissued : y.timers.queue.Issued id (.onRetransmitTimeout seq))
    (hlive : ∀ i, y.Live seq i ↔ i = id) (hfired : ∀ i, y.Fired seq i ↔ x.Fired seq i)
    (htimeout : y.timeout = x.timeout) (hsub : ∀ frame ∈ y.frames, frame ∈ x.frames)
    (hnew : (x.timeout = some seq ∨ ∃ id, x.Fired seq id) → node.entry.retries = 0)
    (hpaced : node.entry.retries ≤ b ∧ (y.Busy seq → node.entry.retries < b)) :
    y.Paired b seq where
  key := by
    intro node' hnode'
    obtain rfl := Option.some.inj (hgot.symm.trans hnode')
    exact hseq
  issued := by
    intro node' hnode' i hi
    obtain rfl := Option.some.inj (hgot.symm.trans hnode')
    obtain rfl := Option.some.inj hi
    exact hissued
  placed := by
    intro node' hnode'
    obtain rfl := Option.some.inj (hgot.symm.trans hnode')
    exact ⟨id, rfl, .inl ((hlive id).mpr rfl)⟩
  armed := by
    intro i hi
    obtain rfl := (hlive i).mp hi
    exact ⟨_, hgot, rfl⟩
  stale := by
    rw [htimeout]
    intro hrun node' hnode' i hi _
    obtain rfl := Option.some.inj (hgot.symm.trans hnode')
    refine hnew (hrun.imp_right fun hexpired => ?_)
    obtain ⟨j, hj⟩ := hexpired
    exact ⟨j, (hfired j).mp hj⟩
  one i j hi hj := h.one i j ((hfired i).mp hi) ((hfired j).mp hj)
  alone := by
    rw [htimeout]
    intro hrun i hi
    refine h.alone (hrun.imp_right fun hmem => ?_) i ((hfired i).mp hi)
    obtain ⟨n, hn⟩ := hmem
    exact ⟨n, hsub _ hn⟩
  paced := by
    intro node' hnode'
    obtain rfl := Option.some.inj (hgot.symm.trans hnode')
    exact hpaced

/-- The timer of an entry is restarted: the old one is cancelled, and the new one is the only one
of its number. -/
theorem Matched.rearm (h : x.Matched b) {node : RetransmitNode} {id : TimerId}
    {timers timers' : TimerLoop Task} {frames : List Frame} (hseq : node.entry.seq = seq)
    (hcancel : x.timers.Cancelled (· ≠ .user) (node.entry.timerId = some ·) timers)
    (hadd : timers.Added (· ≠ .user) id (.onRetransmitTimeout seq) timers')
    (hissued : ∀ id ∈ node.entry.timerId, x.timers.queue.Issued id (.onRetransmitTimeout seq))
    (harmed : ∀ id, x.Live seq id → node.entry.timerId = some id)
    (hnew : (x.timeout = some seq ∨ ∃ id, x.Fired seq id) → node.entry.retries = 0)
    (hframes : frames = x.frames ∨ ∃ n, x.frames = .onRetransmitTimeout seq n :: frames)
    (hpaced : node.entry.retries ≤ b ∧ (Busy { x with frames } seq → node.entry.retries < b)) :
    Matched { x with
      timers := timers'
      pendingRetrans := x.pendingRetrans.insert seq
        { node with entry := { node.entry with timerId := some id } }
      frames } b := by
  have hkeeps := hcancel.keeps.trans hadd.keeps
  have hbatch : timers'.batch = x.timers.batch := hadd.batch.trans hcancel.batch
  have hsub (frame : Frame) (hmem : frame ∈ frames) : frame ∈ x.frames := by
    obtain rfl | ⟨n, hn⟩ := hframes
    · exact hmem
    · exact hn ▸ List.mem_cons_of_mem _ hmem
  have hother (k n : Nat) (hk : k ≠ seq) (hmem : .onRetransmitTimeout k n ∈ x.frames) :
      .onRetransmitTimeout k n ∈ frames := by
    obtain rfl | ⟨m, hm⟩ := hframes
    · exact hmem
    · rw [hm] at hmem
      refine (List.mem_cons.mp hmem).resolve_left fun he => hk ?_
      exact (Frame.onRetransmitTimeout.inj he).1
  have hdue (k : Nat) (i : TimerId) :
      timers'.Due i (.onRetransmitTimeout k) ↔ x.Fired k i :=
    (hadd.due i _).trans (hcancel.due i _)
  have hget (k : Nat) : (x.pendingRetrans.insert seq
      { node with entry := { node.entry with timerId := some id } })[k]? =
      if seq = k then some { node with entry := { node.entry with timerId := some id } }
      else x.pendingRetrans[k]? := by
    simp [Std.ExtTreeMap.getElem?_insert]
  have hshaped : Shaped { x with frames } b := by
    obtain rfl | ⟨n, hn⟩ := hframes
    · exact h.shaped
    · exact h.shaped.pop hn
  refine ⟨hshaped.same hbatch (fun ht => ht) rfl, hadd.tidy,
    fun i hi => (h.idle_issued i hi).keeps hkeeps, ?_, fun k => ?_⟩
  · intro i hi
    rcases (hadd.armed i _).mp hi with ⟨-, hcb⟩ | hi
    · contradiction
    · exact h.idle_armed i ((hcancel.armed i _).mp hi).1
  · by_cases hk : k = seq
    · subst hk
      have hlive (i : TimerId) : timers'.Armed i (.onRetransmitTimeout k) ↔ i = id := by
        rw [hadd.armed, hcancel.armed]
        constructor
        · rintro (⟨hi, -⟩ | ⟨hi, hout⟩)
          · exact hi
          · exact absurd (harmed i hi) hout
        · rintro rfl
          exact .inl ⟨rfl, rfl⟩
      refine (h.paired k).rearm hseq ?_ hadd.issued hlive (hdue k) rfl hsub hnew
        ⟨hpaced.1, fun hbusy => hpaced.2 (hbusy.imp_right (Or.imp_left fun hexpired => ?_))⟩
      · rw [hget, if_pos rfl]
      · obtain ⟨i, hi⟩ := hexpired
        exact ⟨i, (hdue k i).mp hi⟩
    · refine (h.paired k).same hkeeps ?_ (fun i => ?_) (hdue k) Iff.rfl fun n => ?_
      · rw [hget, if_neg (Ne.symm hk)]
      · change timers'.Armed i (.onRetransmitTimeout k) ↔ _
        rw [hadd.armed, hcancel.armed, or_iff_right (by simp [hk])]
        refine and_iff_left_of_imp fun hlive hid => ?_
        have hcb := (hissued i hid).of_armed hlive
        exact hk (by simpa using hcb)
      · exact ⟨hsub _, hother k n hk⟩

/-! ### Batches -/

/-- A batch begins, with nothing of the connection on the stack: what was armed is armed or due. -/
theorem Matched.handleRead (h : x.Matched b) {timers : TimerLoop Task}
    (hstep : x.timers.step .handleRead = some timers) (htimeout : x.timeout = none)
    (hframes : x.frames = []) : Matched { x with timers, frames := [.timerQueue] } (b + 1) := by
  obtain ⟨htidy, harmed, hbatch, -⟩ := h.tidy.handleRead hstep
  have hkeeps := TimerLoop.keeps_of_step hstep
  refine ⟨⟨.inr (.inl rfl), by simp, fun _ => Nat.succ_pos b, fun _ => rfl⟩, htidy,
    fun id hid => (h.idle_issued id hid).keeps hkeeps,
    fun id hid => h.idle_armed id ((harmed id _).mpr (.inl hid)), fun seq => ?_⟩
  have hp := h.paired seq
  have hsplit (id : TimerId) : x.Live seq id ↔
      timers.Armed id (.onRetransmitTimeout seq) ∨ timers.Due id (.onRetransmitTimeout seq) :=
    harmed id _
  have hone {id id' : TimerId} (hid : x.Live seq id) (hid' : x.Live seq id') : id = id' := by
    obtain ⟨node, hnode, he⟩ := hp.armed id hid
    obtain ⟨node', hnode', he'⟩ := hp.armed id' hid'
    obtain rfl := Option.some.inj (hnode.symm.trans hnode')
    exact Option.some.inj (he.symm.trans he')
  refine ⟨hp.key, fun node hn id hid => (hp.issued node hn id hid).keeps hkeeps, ?_, ?_, ?_, ?_, ?_,
    fun node hnode => ?_⟩
  · intro node hnode
    obtain ⟨id, hid, hlive | hfired | htime | hmem⟩ := hp.placed node hnode
    · exact ⟨id, hid, ((hsplit id).mp hlive).imp_right .inl⟩
    · exact absurd hfired (TimerLoop.not_due_of_batch hbatch)
    · rw [htimeout] at htime
      contradiction
    · simp [hframes] at hmem
  · intro id hlive
    exact hp.armed id ((hsplit id).mpr (.inl hlive))
  · rintro (htime | ⟨id', hfired⟩) node hnode id hid hlive
    · rw [show x.timeout = some seq from htime] at htimeout
      contradiction
    · obtain rfl := hone ((hsplit id).mpr (.inl hlive)) ((hsplit id').mpr (.inr hfired))
      exact absurd hlive (htidy.not_armed_of_due hfired _)
  · intro id id' hid hid'
    exact hone ((hsplit id).mpr (.inr hid)) ((hsplit id').mpr (.inr hid'))
  · rintro (htime | ⟨n, hn⟩)
    · rw [show x.timeout = some seq from htime] at htimeout
      contradiction
    · simp at hn
  · have hpaced := (hp.paced node hnode).1
    exact ⟨Nat.le_succ_of_le hpaced, fun _ => Nat.lt_succ_of_le hpaced⟩

/-- The batch comes to its next timer. -/
theorem Matched.nextEntry (h : x.Matched b) {timers : TimerLoop Task} {now : Int}
    {es rest : List Entry} {e : Entry} (hb : x.timers.batch = some ⟨now, es, e :: rest, false⟩)
    (hstep : x.timers.step .nextEntry = some timers) (htimeout : x.timeout = none)
    (hframes : x.frames = [.timerQueue]) :
    Matched { x with
      timers
      timeout := ((x.timers.queue.runEntry e).1.map Task.functor).bind Functor.timeout? } b := by
  obtain ⟨id, cb, hrun, -, hdue, htidy, harmed, hrest, -⟩ := h.tidy.nextEntry hb hstep
  have hkeeps := TimerLoop.keeps_of_step hstep
  have htime : ((x.timers.queue.runEntry e).1.map Task.functor).bind Functor.timeout? =
      cb.functor.timeout? := by rw [hrun]; rfl
  have hseq (seq : Nat) : cb.functor.timeout? = some seq ↔ cb = .onRetransmitTimeout seq := by
    cases cb <;> simp [Task.functor, Functor.timeout?]
  rw [htime]
  refine ⟨⟨h.shaped.frames, by simp [hframes], h.shaped.begun, fun _ => hframes⟩, htidy,
    fun id hid => (h.idle_issued id hid).keeps hkeeps,
    fun id hid => h.idle_armed id ((harmed id _).mp hid), fun seq => ?_⟩
  have hp := h.paired seq
  by_cases hcb : cb = .onRetransmitTimeout seq
  · subst hcb
    refine ⟨hp.key, fun node hn id hid => (hp.issued node hn id hid).keeps hkeeps, ?_, ?_, ?_, ?_,
      ?_, fun node hnode => ?_⟩
    · intro node hnode
      obtain ⟨id', hid, hlive | hfired | ht | hmem⟩ := hp.placed node hnode
      · exact ⟨id', hid, .inl ((harmed id' _).mpr hlive)⟩
      · exact ⟨id', hid, .inr (.inr (.inl rfl))⟩
      · rw [htimeout] at ht
        contradiction
      · exact ⟨id', hid, .inr (.inr (.inr hmem))⟩
    · intro id' hlive
      exact hp.armed id' ((harmed id' _).mp hlive)
    · intro _ node hnode id' hid hlive
      exact hp.stale (.inr ⟨id, hdue⟩) node hnode id' hid ((harmed id' _).mp hlive)
    · intro i j hi hj
      exact hp.one i j ((hrest i _).mp hi).1 ((hrest j _).mp hj).1
    · intro _ i hi
      obtain ⟨hfired, hne⟩ := (hrest i _).mp hi
      exact hne (hp.one i id hfired hdue)
    · exact ⟨(hp.paced node hnode).1, fun _ => (hp.paced node hnode).2 (.inr (.inl ⟨id, hdue⟩))⟩
  · refine hp.same hkeeps rfl (fun i => harmed i _) (fun i => ?_) ?_ fun _ => Iff.rfl
    · refine (hrest i _).trans (and_iff_left_of_imp ?_)
      rintro hfired rfl
      exact hcb (TimerQueue.DueIn.callback_eq hdue hfired)
    · rw [htimeout]
      exact iff_of_false (by rwa [hseq]) (by simp)

end Held

end ClearMoon.Tcp

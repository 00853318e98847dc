import ClearMoon.Tcp.Life
import ClearMoon.Tcp.Queues

/-!
# Calls of other threads

A call of another thread loads `state_`, stores it if it is `shutdown` or `forceClose`, and queues a
functor. The loop thread may go on between any two of these, and so may the calls of other threads.
A store that comes after `handleClose` takes the connection out of its last state.
-/

namespace ClearMoon.Tcp

open ClearMoon.Net ClearMoon.Timer

/-- What a call of another thread has still to do. -/
inductive CallPart where
  /-- `shutdown` behind its test. -/
  | shutdown
  /-- `forceClose` behind its test. -/
  | forceClose
  /-- A call that has come to `runInLoop`. -/
  | runInLoop (c : ConnCall)
  deriving DecidableEq, Repr

/-- A call that does not look at the state. -/
def ConnCall.untested : ConnCall → Bool
  | sendWithRetransmit _ _ | ackReceived _ => true
  | _ => false

/-- The part may belong to a call that began before the connection was established. -/
def CallPart.early : CallPart → Bool
  | runInLoop c => c.untested
  | _ => false

/-- The part stores `kDisConnecting`. -/
def CallPart.stores : CallPart → Bool
  | shutdown | forceClose => true
  | runInLoop _ => false

/-- The step is a whole call of another thread. -/
def Action.callsElsewhere : Action → Bool
  | callElsewhere _ => true
  | _ => false

namespace TcpLoop

/-- The test with which a call begins, and what follows it. -/
def test (w : TcpLoop) (c : ConnCall) : Option (TcpLoop × CallPart) :=
  match c with
  | .send data =>
    if w.conn.state ≠ .kConnected then none
    else some (w.note (.accepted (.message data)), .runInLoop c)
  | .sendFile filePath =>
    if w.conn.state ≠ .kConnected then none
    else some (w.note (.accepted (.file filePath)), .runInLoop c)
  | .shutdown => if w.conn.state = .kConnected then some (w, .shutdown) else none
  | .forceClose =>
    if w.conn.state = .kConnected ∨ w.conn.state = .kDisConnecting then some (w, .forceClose)
    else none
  | .sendWithRetransmit _ _ | .ackReceived _ => some (w, .runInLoop c)

/-- A part of a call, and what follows it. -/
def goOn (w : TcpLoop) : CallPart → TcpLoop × Option CallPart
  | .shutdown =>
    ((w.setState .kDisConnecting).note .shutdown, some (.runInLoop .shutdown))
  | .forceClose => (w.setState .kDisConnecting, some (.runInLoop .forceClose))
  | .runInLoop c => (w.runInLoop false c.functor, none)

end TcpLoop

/-- A loop thread, and the calls of other threads in progress. -/
structure Threads where
  loop : TcpLoop
  parts : List CallPart := []

inductive ThreadAction where
  /-- A step of the loop thread, of time, or of another thread that calls nothing. -/
  | loop (a : Action)
  /-- Another thread calls the connection. -/
  | callElsewhere (c : ConnCall)
  /-- A call of another thread goes on. -/
  | goOn (k : Nat)

/-- Steps of the loop, with no other thread about. -/
def alone (as : List Action) : List ThreadAction := as.map .loop

namespace Threads

variable {x x' : Threads} {w w' : TcpLoop}

def start (fd : Nat) (callbacks : Callback → Bool) (disk : Bytes → Bytes) : Threads where
  loop := .start fd callbacks disk

def step (x : Threads) : ThreadAction → Option Threads
  | .loop a =>
    if a.callsElsewhere then none else (x.loop.step a).map fun loop => { x with loop }
  | .callElsewhere c =>
    if x.loop.aborted then none
    else match x.loop.test c with
      | none => some x
      | some (loop, part) => some { loop, parts := x.parts ++ [part] }
  | .goOn k =>
    if x.loop.aborted then none
    else (x.parts[k]?).map fun part =>
      { loop := (x.loop.goOn part).1, parts := x.parts.eraseIdx k ++ (x.loop.goOn part).2.toList }

/-- `kDisConnecting` is not stored when the connection has been closed since the test. -/
def InTime (x : Threads) : ThreadAction → Prop
  | .goOn k => ∀ part ∈ x.parts[k]?, part.stores = true → x.loop.conn.state ≠ .kDisConnected
  | _ => True

instance (x : Threads) (a : ThreadAction) : Decidable (x.InTime a) := by
  cases a with
  | goOn k =>
    exact decidable_of_iff ((x.parts[k]?).all fun part =>
      !part.stores || decide (x.loop.conn.state ≠ .kDisConnected)) (by
        simp [InTime, Option.all_eq_true, imp_iff_not_or])
  | _ => exact isTrue trivial

/-! ## What the steps do to the loop -/

/-- What a part of another thread's call does to the loop, if it is in time. -/
inductive Shares (w : TcpLoop) : TcpLoop → Prop
  | refused : Shares w w
  | accept {o} (hstate : w.conn.state = .kConnected) : Shares w (w.note (.accepted o))
  | store (hstate : w.conn.state = .kConnected ∨ w.conn.state = .kDisConnecting) :
      Shares w (w.setState .kDisConnecting)
  | shutdown (hstate : w.conn.state = .kConnected ∨ w.conn.state = .kDisConnecting) :
      Shares w ((w.setState .kDisConnecting).note .shutdown)
  | runInLoop {c : ConnCall} (hstate : w.conn.state = .kConnecting → c.untested = true) :
      Shares w (w.runInLoop false c.functor)

/-- A part of a call invokes no callback, and moves an open connection only to `kDisConnecting`. -/
theorem life_of_shares (h : Shares w w') :
    w'.life = w.life ∨ (w.conn.state = .kConnected ∨ w.conn.state = .kDisConnecting) ∧
      w'.life = { w.life with state := .kDisConnecting } := by
  cases h with
  | refused => exact .inl rfl
  | accept hstate => exact .inl (TcpLoop.life_note rfl)
  | store hstate => exact .inr ⟨hstate, rfl⟩
  | shutdown hstate => exact .inr ⟨hstate, TcpLoop.life_note rfl⟩
  | runInLoop hstate => exact .inl rfl

/-- A call in progress has found the connection established, if it looks at the state. -/
def Begun (x : Threads) : Prop :=
  x.loop.conn.state = .kConnecting → ∀ part ∈ x.parts, part.early = true

/-- No call of another thread is under way at the start. -/
theorem begun_start (fd : Nat) (callbacks : Callback → Bool) (disk : Bytes → Bytes) :
    (start fd callbacks disk).Begun := by
  intro _ part hpart
  contradiction

/-- What passes the test is in a state to be accepted. -/
theorem shares_test {c : ConnCall} {part : CallPart} (h : w.test c = some (w', part)) :
    Shares w w' ∧ w'.conn.state = w.conn.state ∧
      (w.conn.state = .kConnecting → part.early = true) := by
  have hconnected {v : TcpLoop} (hstate : w.conn.state = .kConnected) (hshares : Shares w v)
      (hsame : v.conn.state = w.conn.state) : Shares w v ∧ v.conn.state = w.conn.state ∧
        (w.conn.state = .kConnecting → part.early = true) :=
    ⟨hshares, hsame, fun hconnecting => by simp [hstate] at hconnecting⟩
  cases c with
  | send data =>
    rw [TcpLoop.test] at h
    split at h
    · contradiction
    · rename_i hstate
      obtain ⟨rfl, rfl⟩ := Prod.mk.inj (Option.some.inj h)
      exact hconnected (not_not.mp hstate) (.accept (not_not.mp hstate)) rfl
  | sendFile filePath =>
    rw [TcpLoop.test] at h
    split at h
    · contradiction
    · rename_i hstate
      obtain ⟨rfl, rfl⟩ := Prod.mk.inj (Option.some.inj h)
      exact hconnected (not_not.mp hstate) (.accept (not_not.mp hstate)) rfl
  | shutdown =>
    obtain ⟨hstate, h⟩ := Option.ite_none_right_eq_some.mp h
    obtain ⟨rfl, rfl⟩ := Prod.mk.inj (Option.some.inj h)
    exact hconnected hstate .refused rfl
  | forceClose =>
    obtain ⟨hstate, h⟩ := Option.ite_none_right_eq_some.mp h
    obtain ⟨rfl, rfl⟩ := Prod.mk.inj (Option.some.inj h)
    refine ⟨.refused, rfl, fun hconnecting => ?_⟩
    simp [hconnecting] at hstate
  | sendWithRetransmit data seq =>
    obtain ⟨rfl, rfl⟩ := Prod.mk.inj (Option.some.inj h)
    exact ⟨.refused, rfl, fun _ => rfl⟩
  | ackReceived seq =>
    obtain ⟨rfl, rfl⟩ := Prod.mk.inj (Option.some.inj h)
    exact ⟨.refused, rfl, fun _ => rfl⟩

/-- A part that is in time finds the connection open, if it stores anything. -/
theorem shares_goOn {part : CallPart}
    (hbegun : w.conn.state = .kConnecting → part.early = true)
    (hin : part.stores = true → w.conn.state ≠ .kDisConnected) : Shares w (w.goOn part).1 := by
  have hopen (hstores : part.stores = true) (hearly : part.early = false) :
      w.conn.state = .kConnected ∨ w.conn.state = .kDisConnecting := by
    have hclosed := hin hstores
    cases hstate : w.conn.state with
    | kConnecting => simp [hbegun hstate] at hearly
    | kConnected => exact .inl rfl
    | kDisConnecting => exact .inr rfl
    | kDisConnected => exact absurd hstate hclosed
  cases part with
  | shutdown => exact .shutdown (hopen rfl rfl)
  | forceClose => exact .store (hopen rfl rfl)
  | runInLoop c => exact .runInLoop hbegun

/-- A part does not take a connection back to where it was not established. -/
theorem begun_goOn {part : CallPart}
    (hstate : (w.goOn part).1.conn.state = .kConnecting) :
    w.conn.state = .kConnecting ∧ ∀ next ∈ (w.goOn part).2, next.early = true := by
  cases part with
  | shutdown => contradiction
  | forceClose => contradiction
  | runInLoop c => exact ⟨hstate, by simp [TcpLoop.goOn]⟩

/-- The steps: one of the loop, the test of a call, or a part of it behind the test. -/
inductive Stepped (x : Threads) : ThreadAction → Threads → Prop
  | loop {a : Action} {loop : TcpLoop} (hloop : x.loop.step a = some loop) :
      Stepped x (.loop a) { x with loop }
  | refused {c : ConnCall} : Stepped x (.callElsewhere c) x
  | passed {c : ConnCall} {loop : TcpLoop} {part : CallPart}
      (htest : x.loop.test c = some (loop, part)) :
      Stepped x (.callElsewhere c) { loop, parts := x.parts ++ [part] }
  | goOn {k : Nat} {part : CallPart} (hpart : x.parts[k]? = some part) :
      Stepped x (.goOn k) { loop := (x.loop.goOn part).1
                            parts := x.parts.eraseIdx k ++ (x.loop.goOn part).2.toList }

theorem stepped_of_step {a : ThreadAction} (hstep : x.step a = some x') : Stepped x a x' := by
  cases a with
  | loop b =>
    obtain ⟨-, h⟩ := Option.ite_none_left_eq_some.mp hstep
    obtain ⟨loop, hloop, rfl⟩ := Option.map_eq_some_iff.mp h
    exact .loop hloop
  | callElsewhere c =>
    obtain ⟨-, h⟩ := Option.ite_none_left_eq_some.mp hstep
    split at h
    · obtain rfl := Option.some.inj h
      exact .refused
    · rename_i loop part htest
      obtain rfl := Option.some.inj h
      exact .passed htest
  | goOn k =>
    obtain ⟨-, h⟩ := Option.ite_none_left_eq_some.mp hstep
    obtain ⟨part, hpart, rfl⟩ := Option.map_eq_some_iff.mp h
    exact .goOn hpart

/-- A step is one of the loop, or a part of a call. -/
theorem shares_of_step {a : ThreadAction} (hbegun : x.Begun) (hin : x.InTime a)
    (hstep : x.step a = some x') :
    (∃ b, a = .loop b ∧ x.loop.step b = some x'.loop) ∨
      (∀ b, a ≠ .loop b) ∧ Shares x.loop x'.loop := by
  cases stepped_of_step hstep with
  | loop hloop => exact .inl ⟨_, rfl, hloop⟩
  | refused => exact .inr ⟨by simp, .refused⟩
  | passed htest => exact .inr ⟨by simp, (shares_test htest).1⟩
  | goOn hpart =>
    refine .inr ⟨by simp, ?_⟩
    exact shares_goOn (fun hstate => hbegun hstate _ (List.mem_of_getElem? hpart)) (hin _ hpart)

/-- A call under way has found the connection established. -/
theorem Begun.step {a : ThreadAction} (h : x.Begun) (hstep : x.step a = some x') : x'.Begun := by
  intro hstate
  cases stepped_of_step hstep with
  | @loop b loop hloop =>
    refine h ?_
    by_contra hne
    exact TcpLoop.ne_kConnecting_of_rank hne (TcpLoop.moves_of_step hloop).rank_le hstate
  | refused => exact h hstate
  | passed htest =>
    obtain ⟨-, hsame, hearly⟩ := shares_test htest
    have hbefore : x.loop.conn.state = .kConnecting := hsame.symm.trans hstate
    intro p hp
    rcases List.mem_append.mp hp with hp | hp
    · exact h hbefore p hp
    · obtain rfl := List.mem_singleton.mp hp
      exact hearly hbefore
  | goOn hpart =>
    obtain ⟨hbefore, hnext⟩ := begun_goOn hstate
    intro p hp
    rcases List.mem_append.mp hp with hp | hp
    · exact h hbefore p (List.mem_of_mem_eraseIdx hp)
    · exact hnext p (Option.mem_toList.mp hp)

/-- What the steps of the loop keep, and the parts of calls that are in time, holds in every state
of a run. -/
theorem invariant_of_run {fd : Nat} {callbacks : Callback → Bool} {disk : Bytes → Bytes}
    {as : List ThreadAction} {guard : Threads → ThreadAction → Prop} {I : TcpLoop → Prop}
    (hrun : Run step guard (start fd callbacks disk) as x) (hin : ∀ x a, guard x a → x.InTime a)
    (hinit : I (.start fd callbacks disk))
    (hloop : ∀ (x : Threads) a w', I x.loop → guard x (.loop a) → x.loop.step a = some w' → I w')
    (hshares : ∀ w w', I w → Shares w w' → I w') : I x.loop := by
  refine (hrun.invariant (I := fun x => x.Begun ∧ I x.loop)
    ⟨begun_start fd callbacks disk, hinit⟩ ?_).2
  rintro y a z ⟨hbegun, hy⟩ hguard hstep
  refine ⟨hbegun.step hstep, ?_⟩
  rcases shares_of_step hbegun (hin y a hguard) hstep with ⟨b, rfl, hb⟩ | ⟨-, hs⟩
  · exact hloop y b _ hy hguard hb
  · exact hshares _ _ hy hs

/-! ## Whole calls -/

section

variable {c : ConnCall} (parts : List CallPart)

/-- A part of a call goes on in its own step. -/
theorem step_goOn (part : CallPart) (hlive : w.aborted = false) :
    step ⟨w, parts ++ [part]⟩ (.goOn parts.length) =
      some ⟨(w.goOn part).1, parts ++ (w.goOn part).2.toList⟩ := by
  simp [step, hlive, List.eraseIdx_append_of_length_le]

/-- A call whose test passes is under way. -/
theorem run_passed {v : TcpLoop} {part : CallPart} (hlive : w.aborted = false)
    (htest : w.test c = some (v, part)) :
    Run step InTime ⟨w, parts⟩ [.callElsewhere c] ⟨v, parts ++ [part]⟩ :=
  Run.nil.snoc trivial (by simp [step, hlive, htest])

/-- One whose test fails is over. -/
theorem run_refused (hlive : w.aborted = false) (htest : w.test c = none) :
    Run step InTime ⟨w, parts⟩ [.callElsewhere c] ⟨w, parts⟩ :=
  Run.nil.snoc trivial (by simp [step, hlive, htest])

/-- The last part queues the functor of the call. -/
theorem run_queued (hlive : w.aborted = false) :
    Run step InTime ⟨w, parts ++ [.runInLoop c]⟩ [.goOn parts.length]
      ⟨w.runInLoop false c.functor, parts⟩ := by
  refine Run.nil.snoc (fun part hpart => ?_) ((step_goOn parts _ hlive).trans ?_)
  · obtain rfl := Option.some.inj ((List.getElem?_concat_length).symm.trans hpart)
    simp [CallPart.stores]
  · simp [TcpLoop.goOn]

/-- The state is stored, and the functor queued behind it. -/
theorem run_stored (part : CallPart) (hlive : w.aborted = false)
    (hopen : w.conn.state ≠ .kDisConnected) (hlive' : (w.goOn part).1.aborted = false)
    (hnext : (w.goOn part).2 = some (.runInLoop c)) :
    Run step InTime ⟨w, parts ++ [part]⟩ [.goOn parts.length, .goOn parts.length]
      ⟨(w.goOn part).1.runInLoop false c.functor, parts⟩ := by
  have hfirst := step_goOn parts part hlive
  rw [hnext] at hfirst
  exact (Run.nil.snoc (fun _ _ _ => hopen) hfirst).append (run_queued parts hlive')

/-- A call that nothing comes between does what `TcpLoop.call` does. -/
theorem run_callElsewhere (hlive : w.aborted = false) (c : ConnCall) :
    ∃ as, Run step InTime ⟨w, parts⟩ as ⟨w.call false c, parts⟩ := by
  have hqueue {v : TcpLoop} (htest : w.test c = some (v, .runInLoop c))
      (hv : v.aborted = false) (hcall : w.call false c = v.runInLoop false c.functor) :
      ∃ as, Run step InTime ⟨w, parts⟩ as ⟨w.call false c, parts⟩ := by
    rw [hcall]
    exact ⟨_, (run_passed parts hlive htest).append (run_queued parts hv)⟩
  have hrefuse (htest : w.test c = none) (hcall : w.call false c = w) :
      ∃ as, Run step InTime ⟨w, parts⟩ as ⟨w.call false c, parts⟩ := by
    rw [hcall]
    exact ⟨_, run_refused parts hlive htest⟩
  cases c with
  | send data =>
    by_cases hstate : w.conn.state = .kConnected
    · exact hqueue (v := w.note _) (if_neg (not_not.mpr hstate)) hlive
        (if_neg (not_not.mpr hstate))
    · exact hrefuse (if_pos hstate) (if_pos hstate)
  | sendFile filePath =>
    by_cases hstate : w.conn.state = .kConnected
    · exact hqueue (v := w.note _) (if_neg (not_not.mpr hstate)) hlive
        (if_neg (not_not.mpr hstate))
    · exact hrefuse (if_pos hstate) (if_pos hstate)
  | shutdown =>
    by_cases hstate : w.conn.state = .kConnected
    · have htest : w.test .shutdown = some (w, .shutdown) := if_pos hstate
      have hrest := run_stored parts .shutdown hlive (by simp [hstate]) hlive rfl
      rw [TcpLoop.call, TcpLoop.shutdown, if_pos hstate]
      exact ⟨_, (run_passed parts hlive htest).append hrest⟩
    · exact hrefuse (if_neg hstate) (if_neg hstate)
  | forceClose =>
    by_cases hstate : w.conn.state = .kConnected ∨ w.conn.state = .kDisConnecting
    · have htest : w.test .forceClose = some (w, .forceClose) := if_pos hstate
      have hopen : w.conn.state ≠ .kDisConnected := by
        rcases hstate with hstate | hstate <;> simp [hstate]
      have hrest := run_stored parts .forceClose hlive hopen hlive rfl
      rw [TcpLoop.call, TcpLoop.forceClose, if_pos hstate]
      exact ⟨_, (run_passed parts hlive htest).append hrest⟩
    · exact hrefuse (if_neg hstate) (if_neg hstate)
  | sendWithRetransmit data seq => exact hqueue rfl hlive rfl
  | ackReceived seq => exact hqueue rfl hlive rfl

/-- Every run of `TcpLoop` is one in which nothing comes between the parts of a call. -/
theorem run_of_loop {as : List Action} (hrun : Run TcpLoop.step anyStep w as w') :
    ∃ bs, Run step InTime ⟨w, parts⟩ bs ⟨w', parts⟩ := by
  induction hrun with
  | nil => exact ⟨[], .nil⟩
  | @snoc as v a u _ _ hstep ih =>
    obtain ⟨bs, hbs⟩ := ih
    have hlive : v.aborted = false := by
      by_contra habort
      simp [TcpLoop.step, habort] at hstep
    cases helse : a.callsElsewhere with
    | false =>
      have hloop : step ⟨v, parts⟩ (.loop a) = some ⟨u, parts⟩ := by simp [step, helse, hstep]
      have hin : InTime ⟨v, parts⟩ (.loop a) := trivial
      exact ⟨_, hbs.snoc hin hloop⟩
    | true =>
      cases a with
      | callElsewhere c =>
        have hcall : u = v.call false c := by
          simpa [TcpLoop.step, hlive, eq_comm] using hstep
        obtain ⟨cs, hcs⟩ := run_callElsewhere parts hlive c
        exact ⟨_, hcall ▸ hbs.append hcs⟩
      | _ => contradiction

end

end Threads

end ClearMoon.Tcp

import ClearMoon.Net.NoInterest

/-!
# The acceptor

`handleRead` accepts connections until `accept4` fails with `EAGAIN`. After any other failure it
calls `accept4` again, so it returns exactly if some call fails with `EAGAIN`. What `accept4`
answers is a parameter: its `n`-th answer in this call of `handleRead`. The acceptor's channel is
written by `listen`, `close` and the destructor.
-/

namespace ClearMoon.Net

/-- `errno`, by its Linux values. -/
abbrev Errno := Nat

def EAGAIN : Errno := 11

/-- The same value on Linux. -/
def EWOULDBLOCK : Errno := 11

def EMFILE : Errno := 24

/-- What `accept4` answers: a descriptor, or -1 and `errno`. -/
abbrev AcceptResult := Except Errno Nat

/-- The members of `Acceptor` that its functions read, and what becomes of accepted sockets. -/
structure Acceptor where
  acceptChannel : Channel
  listening : Bool := false
  /-- `connCallback_` is set. -/
  connCallback : Bool := false
  /-- The sockets passed to `connCallback_`. -/
  passed : List Nat := []
  /-- The sockets that their destructor has closed because nobody took them. -/
  dropped : List Nat := []

namespace Acceptor

/-! ## The accept loop -/

/-- An accepted socket is passed on, or closed at the end of the pass. -/
def passOn (a : Acceptor) (connfd : Nat) : Acceptor :=
  if a.connCallback then { a with passed := a.passed ++ [connfd] }
  else { a with dropped := a.dropped ++ [connfd] }

/-- The loop of `Acceptor::handleRead` from its `n`-th pass on, and how often it called `accept4`;
no result if it is not over after `fuel` more passes. -/
def handleReadFrom (accept4 : Nat → AcceptResult) (a : Acceptor) (n : Nat) :
    Nat → Option (Acceptor × Nat)
  | 0 => none
  | fuel + 1 =>
    match accept4 n with
    | .ok connfd => handleReadFrom accept4 (a.passOn connfd) (n + 1) fuel
    | .error savedErrno =>
      if savedErrno = EAGAIN ∨ savedErrno = EWOULDBLOCK then some (a, n + 1)
      else handleReadFrom accept4 a (n + 1) fuel

/-- `Acceptor::handleRead`. -/
def handleRead (a : Acceptor) (accept4 : Nat → AcceptResult) (fuel : Nat) :
    Option (Acceptor × Nat) :=
  handleReadFrom accept4 a 0 fuel

/-- The error that ends the loop. -/
def WouldBlock (r : AcceptResult) : Prop := r = .error EAGAIN ∨ r = .error EWOULDBLOCK

/-- The sockets among the first `n` answers of `accept4`. -/
def accepted (accept4 : Nat → AcceptResult) (n : Nat) : List Nat :=
  (List.range n).filterMap fun i => (accept4 i).toOption

/-- The acceptor has passed on these sockets, each of them once and in this order. -/
def PassedOn (a : Acceptor) (conns : List Nat) (a' : Acceptor) : Prop :=
  if a.connCallback then a'.passed = a.passed ++ conns ∧ a'.dropped = a.dropped
  else a'.passed = a.passed ∧ a'.dropped = a.dropped ++ conns

variable {accept4 : Nat → AcceptResult} {a a' : Acceptor}

/-- One more call of `accept4` adds its connection, where it gives one. -/
theorem accepted_succ (accept4 : Nat → AcceptResult) (n : Nat) :
    accepted accept4 (n + 1) = accepted accept4 n ++ (accept4 n).toOption.toList := by
  rw [accepted, List.range_succ, List.filterMap_append, accepted]
  cases h : accept4 n <;> simp [h, Except.toOption]

@[simp] theorem connCallback_passOn (a : Acceptor) (connfd : Nat) :
    (a.passOn connfd).connCallback = a.connCallback := by
  rw [passOn]
  split <;> rfl

/-- Before the first connection nothing has been passed on. -/
theorem PassedOn.refl (a : Acceptor) : a.PassedOn [] a := by
  rw [PassedOn]
  split <;> simp

/-- A connection passed on stands behind those passed on before it. -/
theorem PassedOn.passOn {conns : List Nat} {connfd : Nat} (h : a.PassedOn conns a')
    (hcallback : a'.connCallback = a.connCallback) :
    a.PassedOn (conns ++ [connfd]) (a'.passOn connfd) := by
  rw [PassedOn] at h ⊢
  by_cases hset : a.connCallback = true
  · rw [if_pos hset] at h ⊢
    rw [Acceptor.passOn, if_pos (hcallback.trans hset), h.1, List.append_assoc]
    exact ⟨rfl, h.2⟩
  · rw [if_neg hset] at h ⊢
    rw [Acceptor.passOn, if_neg (hcallback ▸ hset), h.2, List.append_assoc]
    exact ⟨h.1, rfl⟩

/-- A loop that returns has found the error that ends it, and has passed on what was accepted up to
there. -/
theorem of_handleReadFrom {b : Acceptor} {n k fuel : Nat}
    (hpassed : a.PassedOn (accepted accept4 n) b)
    (hcallback : b.connCallback = a.connCallback)
    (h : handleReadFrom accept4 b n fuel = some (a', k)) :
    a.PassedOn (accepted accept4 k) a' ∧ ∃ m, WouldBlock (accept4 m) := by
  induction fuel generalizing b n with
  | zero => contradiction
  | succ fuel ih =>
    rw [handleReadFrom] at h
    cases hresult : accept4 n with
    | ok connfd =>
      simp only [hresult] at h
      refine ih (b := b.passOn connfd) (n := n + 1) ?_ ?_ h
      · rw [accepted_succ, hresult]
        exact hpassed.passOn hcallback
      · rw [connCallback_passOn, hcallback]
    | error savedErrno =>
      have hsucc : accepted accept4 (n + 1) = accepted accept4 n := by
        rw [accepted_succ, hresult]
        exact List.append_nil _
      simp only [hresult] at h
      split at h
      · rename_i hblock
        obtain ⟨rfl, rfl⟩ := Prod.mk.inj (Option.some.inj h)
        refine ⟨by rwa [hsucc], n, ?_⟩
        rw [hresult]
        exact hblock.imp (congrArg Except.error) (congrArg Except.error)
      · exact ih (n := n + 1) (by rwa [hsucc]) hcallback h

/-- A loop that is to meet the error that ends it returns. -/
theorem handleReadFrom_isSome {n m : Nat} (hm : WouldBlock (accept4 m)) (hle : n ≤ m)
    (a : Acceptor) :
    (handleReadFrom accept4 a n (m - n + 1)).isSome := by
  -- the induction is on the passes that are left up to the error
  generalize hk : m - n = k
  induction k generalizing a n with
  | zero =>
    obtain rfl : n = m := by omega
    rw [handleReadFrom]
    rcases hm with hm | hm
    · rw [hm]
      rfl
    · rw [hm]
      rfl
  | succ k ih =>
    rw [handleReadFrom]
    cases hresult : accept4 n with
    | ok connfd => exact ih (by omega) _ (by omega)
    | error savedErrno =>
      dsimp only
      split
      · rfl
      · exact ih (by omega) _ (by omega)

/-- Where `accept4` keeps failing with one error from some call on, `handleRead` returns, with
every accepted socket passed on exactly once, exactly if this error or an earlier one is the one
that ends the loop. -/
theorem handleRead_returns_iff (a : Acceptor) {N : Nat} {e : Errno}
    (h : ∀ n, N ≤ n → accept4 n = .error e) :
    (∃ fuel a' calls, a.handleRead accept4 fuel = some (a', calls) ∧
      a.PassedOn (accepted accept4 calls) a') ↔
    (e = EAGAIN ∨ e = EWOULDBLOCK) ∨ ∃ n < N, WouldBlock (accept4 n) := by
  constructor
  · rintro ⟨fuel, a', calls, hreturns, -⟩
    obtain ⟨-, m, hm⟩ := of_handleReadFrom (.refl a) rfl hreturns
    by_cases hlt : m < N
    · exact .inr ⟨m, hlt, hm⟩
    · rw [h m (Nat.le_of_not_lt hlt)] at hm
      exact .inl (hm.imp Except.error.inj Except.error.inj)
  · intro hblock
    obtain ⟨m, hm⟩ : ∃ m, WouldBlock (accept4 m) := by
      rcases hblock with he | ⟨n, -, hn⟩
      · refine ⟨N, ?_⟩
        rw [h N (Nat.le_refl N)]
        exact he.imp (congrArg Except.error) (congrArg Except.error)
      · exact ⟨n, hn⟩
    obtain ⟨⟨a', calls⟩, hreturns⟩ :=
      Option.isSome_iff_exists.mp (handleReadFrom_isSome hm (Nat.zero_le m) a)
    exact ⟨_, a', calls, hreturns, (of_handleReadFrom (.refl a) rfl hreturns).1⟩

/-- Three connections are pending, and a fourth that is gone before it is accepted. -/
def burst (e : Errno) : Nat → AcceptResult
  | 0 => .ok 7
  | 1 => .ok 8
  | 2 => .error 103
  | 3 => .ok 9
  | _ => .error e

/-- A burst of connections that ends in `EAGAIN` is accepted whole, and `handleRead` returns. -/
theorem handleRead_returns_iff_burst :
    (∃ fuel a' calls, ({ acceptChannel := { fd := 5 }, connCallback := true } : Acceptor).handleRead
        (burst EAGAIN) fuel = some (a', calls) ∧
      PassedOn { acceptChannel := { fd := 5 }, connCallback := true }
        (accepted (burst EAGAIN) calls) a') ↔
    (EAGAIN = EAGAIN ∨ EAGAIN = EWOULDBLOCK) ∨ ∃ n < 4, WouldBlock (burst EAGAIN n) :=
  handleRead_returns_iff _ fun n hn => by
    obtain ⟨m, rfl⟩ := Nat.exists_eq_add_of_le' hn
    rfl

/-- The process has no descriptor left: the loop does not end. -/
theorem handleRead_spins :
    ¬∃ fuel a' calls, ({ acceptChannel := { fd := 5 }, connCallback := true } : Acceptor).handleRead
        (burst EMFILE) fuel = some (a', calls) ∧
      PassedOn { acceptChannel := { fd := 5 }, connCallback := true }
        (accepted (burst EMFILE) calls) a' := by
  rintro ⟨fuel, a', calls, hreturns, -⟩
  obtain ⟨-, m, hm⟩ := of_handleReadFrom (.refl _) rfl hreturns
  rcases m with _ | _ | _ | _ | m <;>
    simp [WouldBlock, burst, EAGAIN, EWOULDBLOCK, EMFILE] at hm

/-! ## The channel of the acceptor -/

variable {κ : Type} {p : Epoller κ} {self : κ}

/-- `Acceptor::listen`. -/
def listen (a : Acceptor) (p : Epoller κ) (self : κ) : Acceptor × Epoller κ :=
  if a.listening then (a, p)
  else
    let (acceptChannel, p) := a.acceptChannel.enableReading p self
    ({ a with acceptChannel, listening := true }, p)

/-- `Acceptor::close`, in the loop thread. -/
def close (a : Acceptor) (p : Epoller κ) (self : κ) : Acceptor × Epoller κ :=
  if !a.listening then (a, p)
  else
    let (acceptChannel, p) := a.acceptChannel.disableAll p self
    ({ a with acceptChannel, listening := false }, p)

/-- The body of `Acceptor::~Acceptor`. -/
def destruct (a : Acceptor) (p : Epoller κ) (self : κ) : Acceptor × Epoller κ :=
  let (acceptChannel, p) := a.acceptChannel.disableAll p self
  ({ a with acceptChannel }, p)

/-- The destructor of an acceptor that has been closed registers the listening descriptor again,
with an empty mask, and leaves it to the channel's destructor to remove it. -/
theorem registered_in_destruct (h : a.acceptChannel.Agrees p self)
    (hlistening : a.listening = false)
    (hindex : a.acceptChannel.index ≠ .kAdded) :
    let listened := a.listen p self
    let closed := listened.1.close listened.2 self
    let destructed := closed.1.destruct closed.2 self
    closed.1.acceptChannel.Unregistered closed.2 ∧
      destructed.1.acceptChannel.events = {} ∧
      destructed.2.interest[destructed.1.acceptChannel.fd]? = some ({}, self) := by
  have hlistened : a.listen p self = ({ a with
      acceptChannel := (a.acceptChannel.enableReading p self).1, listening := true },
      (a.acceptChannel.enableReading p self).2) := if_neg (by simp [hlistening])
  have hagrees : (a.acceptChannel.enableReading p self).1.Agrees
      (a.acceptChannel.enableReading p self).2 self := (h.update _).2
  have hadded : (a.acceptChannel.enableReading p self).1.index = .kAdded := by
    rw [Channel.enableReading, Channel.index_update, if_neg (by simp [hindex])]
  rw [hlistened]
  dsimp only
  generalize (a.acceptChannel.enableReading p self).1 = c at hagrees hadded
  generalize (a.acceptChannel.enableReading p self).2 = q at hagrees
  have hclosed := (hagrees.unregistered_disableAll).mpr hadded
  have hagain : ((c.disableAll q self).1.disableAll (c.disableAll q self).2 self).1.Agrees
      ((c.disableAll q self).1.disableAll (c.disableAll q self).2 self).2 self :=
    ((hagrees.update {}).2.update {}).2
  have hevents : ((c.disableAll q self).1.disableAll (c.disableAll q self).2 self).1.events = {} :=
    Channel.events_update ..
  have hindex : ((c.disableAll q self).1.disableAll (c.disableAll q self).2 self).1.index =
      .kAdded := by
    rw [Channel.index_disableAll, Channel.index_disableAll, hadded]
    rfl
  refine ⟨hclosed, hevents, ?_⟩
  have hset := (hagain.registered hindex).2
  rw [hevents] at hset
  exact hset

end Acceptor

end ClearMoon.Net

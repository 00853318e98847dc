import ClearMoon.Core.Machine
import ClearMoon.Net.Channel

/-!
# Channels and their registration

Whether a channel is registered is recorded in `added_` and `index_`, in the poller's map and in
the kernel's interest list. `Channel.Agrees` says that these records agree for one channel. Every
operation of a channel keeps it, touches no record of another descriptor, and meets the assertions
of the poller; a loop of any channels with distinct descriptors therefore keeps all records in
agreement. The operations run in the loop thread, and `epoll_ctl` succeeds.
-/

namespace ClearMoon.Net

variable {κ : Type}

/-! ## The assertions of the poller -/

namespace Epoller

/-- `Poller::hasChannel`. -/
def hasChannel (p : Epoller κ) (self : κ) (c : Channel) : Prop := p.channelMap[c.fd]? = some self

/-- The assertions of `removeChannel`, the one about the erased node included. -/
def RemoveOk (p : Epoller κ) (c : Channel) : Prop :=
  c.index = .kAdded ∧ p.channelMap[c.fd]?.isSome

/-- The assertions of `updateChannel`, with those of the `removeChannel` it may call. -/
def UpdateOk (p : Epoller κ) (self : κ) (c : Channel) : Prop :=
  match c.index with
  | .kNew => ¬p.hasChannel self c
  | .kDeleted => p.channelMap[c.fd]? = none ∨ p.channelMap[c.fd]? = some self
  | .kAdded => p.channelMap[c.fd]?.isSome ∧ p.channelMap[c.fd]? = some self ∧
      (c.events.isNone → p.RemoveOk c)

/-- The records of all other descriptors are the same. -/
def SameBut (fd : Nat) (p q : Epoller κ) : Prop :=
  ∀ fd', fd ≠ fd' → q.channelMap[fd']? = p.channelMap[fd']? ∧ q.interest[fd']? = p.interest[fd']?

/-- A poller is its own, whatever descriptor is left out. -/
theorem SameBut.refl (fd : Nat) (p : Epoller κ) : SameBut fd p p := fun _ _ => ⟨rfl, rfl⟩

/-- A removal concerns no other descriptor. -/
theorem sameBut_removeChannel (p : Epoller κ) (c : Channel) :
    SameBut c.fd p (p.removeChannel c).2 := by
  intro fd hfd
  simp [removeChannel, ctlDel, Std.ExtTreeMap.getElem?_erase, hfd]

/-- Nor does an update. -/
theorem sameBut_updateChannel (p : Epoller κ) (self : κ) (c : Channel) :
    SameBut c.fd p (p.updateChannel self c).2 := by
  have hadd : ∀ event : Events × κ,
      SameBut c.fd p
        ({ p with channelMap := p.channelMap.insert c.fd self }.ctlAdd c.fd event) := by
    intro event fd hfd
    rw [ctlAdd]
    split <;> simp [Std.ExtTreeMap.getElem?_insert, hfd]
  rw [updateChannel]
  cases hindex : c.index with
  | kNew => exact hadd _
  | kDeleted => exact hadd _
  | kAdded =>
    dsimp only
    split
    · exact sameBut_removeChannel p c
    · intro fd hfd
      rw [ctlMod]
      split <;> simp [Std.ExtTreeMap.getElem?_insert, hfd]

end Epoller

namespace Channel

/-- The records of one channel agree. -/
structure Agrees (c : Channel) (p : Epoller κ) (k : κ) : Prop where
  registered : c.index = .kAdded →
    p.channelMap[c.fd]? = some k ∧ p.interest[c.fd]? = some (c.events, k)
  absent : c.index ≠ .kAdded → p.channelMap[c.fd]? = none ∧ p.interest[c.fd]? = none
  notAdded : c.added = false → c.index ≠ .kAdded
  added : c.added = true → c.index ≠ .kNew

variable {c : Channel} {p q : Epoller κ} {self : κ}

/-- A channel that nobody has updated yet, on a descriptor nobody watches. -/
theorem agrees_new {fd : Nat} (hmap : p.channelMap[fd]? = none) (hset : p.interest[fd]? = none) :
    ({ fd } : Channel).Agrees p self where
  registered h := by contradiction
  absent _ := ⟨hmap, hset⟩
  notAdded _ := by simp
  added h := by contradiction

/-- The records of a channel are those of its descriptor. -/
theorem Agrees.of_same (h : c.Agrees p self)
    (hsame : q.channelMap[c.fd]? = p.channelMap[c.fd]? ∧ q.interest[c.fd]? = p.interest[c.fd]?) :
    c.Agrees q self where
  registered hc := by rw [hsame.1, hsame.2]; exact h.registered hc
  absent hc := by rw [hsame.1, hsame.2]; exact h.absent hc
  notAdded := h.notAdded
  added := h.added

/-- What a poller does with one descriptor leaves the channels of all others in agreement. -/
theorem Agrees.frame {fd : Nat} (h : c.Agrees p self) (hfd : fd ≠ c.fd)
    (hsame : Epoller.SameBut fd p q) : c.Agrees q self :=
  h.of_same (hsame c.fd hfd)

/-- A channel keeps its descriptor through an update. -/
@[simp] theorem fd_update (c : Channel) (p : Epoller κ) (self : κ) :
    (c.update p self).1.fd = c.fd := by
  simp only [update, Epoller.updateChannel]
  cases c.index with
  | kDeleted => rfl
  | kNew => rfl
  | kAdded =>
    dsimp only
    split <;> rfl

/-- It keeps it through its removal. -/
@[simp] theorem fd_remove (c : Channel) (p : Epoller κ) : (c.remove p).1.fd = c.fd := by
  rw [remove]
  split
  · rfl
  · dsimp only
    split <;> rfl

/-- A channel's update concerns its own descriptor only. -/
theorem sameBut_update (c : Channel) (p : Epoller κ) (self : κ) :
    Epoller.SameBut c.fd p (c.update p self).2 :=
  p.sameBut_updateChannel self c

/-- So does its removal. -/
theorem sameBut_remove (c : Channel) (p : Epoller κ) : Epoller.SameBut c.fd p (c.remove p).2 := by
  rw [remove]
  split
  · exact .refl _ _
  · dsimp only
    split
    · exact .refl _ _
    · exact p.sameBut_removeChannel { c with added := false }

/-- An update with other events meets its assertions and leaves the records in agreement. -/
theorem Agrees.update (h : c.Agrees p self) (events : Events) :
    p.UpdateOk self { c with events } ∧
      ({ c with events }.update p self).1.Agrees ({ c with events }.update p self).2 self := by
  have hadd (hne : c.index ≠ .kAdded) :
      ({ c with events, index := .kAdded, added := true } : Channel).Agrees
        (({ p with channelMap := p.channelMap.insert c.fd self }).ctlAdd c.fd (events, self))
        self := by
    have hset := (h.absent hne).2
    refine ⟨fun _ => ?_, fun hc => absurd rfl hc, fun hc => ?_, fun _ => ?_⟩
    · simp [Epoller.ctlAdd, hset]
    · contradiction
    · simp
  rw [Channel.update, Epoller.updateChannel, Epoller.UpdateOk]
  cases hindex : c.index with
  | kNew =>
    have hne : c.index ≠ .kAdded := by simp [hindex]
    exact ⟨by simp [Epoller.hasChannel, (h.absent hne).1], hadd hne⟩
  | kDeleted =>
    have hne : c.index ≠ .kAdded := by simp [hindex]
    exact ⟨.inl (h.absent hne).1, hadd hne⟩
  | kAdded =>
    obtain ⟨hmap, hset⟩ := h.registered hindex
    refine ⟨⟨by simp [hmap], hmap, fun _ => ⟨rfl, by simp [hmap]⟩⟩, ?_⟩
    dsimp only
    split
    · -- the mask is empty: the poller removes the channel, and `added_` stays set
      refine ⟨fun hc => by contradiction, fun _ => ?_, fun hc => by contradiction, fun _ => ?_⟩
      · simp [Epoller.removeChannel, Epoller.ctlDel]
      · simp [Epoller.removeChannel]
    · refine ⟨fun _ => ?_, fun hc => absurd rfl hc, fun hc => by contradiction, fun _ => ?_⟩
      · simp [Epoller.ctlMod, hset, hmap]
      · simp

/-- Removal meets its assertions and leaves no record. -/
theorem Agrees.remove (h : c.Agrees p self) :
    (c.added = true → c.index ≠ .kDeleted → p.RemoveOk { c with added := false }) ∧
      (c.remove p).1.Agrees (c.remove p).2 self ∧ (c.remove p).1.index ≠ .kAdded := by
  constructor
  · intro hadded hindex
    have hindex : c.index = .kAdded := by
      cases hc : c.index with
      | kDeleted => exact absurd hc hindex
      | kNew => exact absurd hc (h.added hadded)
      | kAdded => rfl
    exact ⟨hindex, by simp [(h.registered hindex).1]⟩
  · rw [Channel.remove]
    by_cases hadded : c.added = true
    · rw [if_neg (by simp [hadded])]
      dsimp only
      split
      · rename_i hdeleted
        have hne : c.index ≠ .kAdded := by simp [show c.index = .kDeleted from hdeleted]
        refine ⟨⟨fun hc => absurd hc hne, fun _ => h.absent hne, fun _ => hne, fun hc => ?_⟩, hne⟩
        contradiction
      · refine ⟨⟨fun hc => by contradiction, fun _ => ?_, fun _ => ?_, fun hc => ?_⟩, ?_⟩
        · simp [Epoller.removeChannel, Epoller.ctlDel]
        · simp [Epoller.removeChannel]
        · contradiction
        · simp [Epoller.removeChannel]
    · rw [if_pos (by simpa using hadded)]
      exact ⟨h, h.notAdded (by simpa using hadded)⟩

end Channel

/-! ## A loop with many channels -/

/-- What the owner of a channel may do with it. -/
inductive ChannelOp where
  | enableReading
  | disableReading
  | enableWriting
  | disableWriting
  | disableAll
  | remove
  /-- The destructor, which removes the channel. -/
  | destroy
  deriving DecidableEq, Repr

/-- The `events_` with which an operation calls `update`; the others do not call it. -/
def ChannelOp.events? (e : Events) : ChannelOp → Option Events
  | .enableReading => some { e with epollin := true }
  | .disableReading => some { e with epollin := false }
  | .enableWriting => some { e with epollout := true }
  | .disableWriting => some { e with epollout := false }
  | .disableAll => some {}
  | .remove | .destroy => none

namespace Channel

def perform (c : Channel) (p : Epoller κ) (self : κ) : ChannelOp → Channel × Epoller κ
  | .enableReading => c.enableReading p self
  | .disableReading => c.disableReading p self
  | .enableWriting => c.enableWriting p self
  | .disableWriting => c.disableWriting p self
  | .disableAll => c.disableAll p self
  | .remove | .destroy => c.remove p

/-- The assertions that the poller makes during an operation. -/
def PerformOk (c : Channel) (p : Epoller κ) (self : κ) (op : ChannelOp) : Prop :=
  match op.events? c.events with
  | some events => p.UpdateOk self { c with events }
  | none => c.added = true → c.index ≠ .kDeleted → p.RemoveOk { c with added := false }

instance [DecidableEq κ] (c : Channel) (p : Epoller κ) (self : κ) (op : ChannelOp) :
    Decidable (c.PerformOk p self op) := by
  unfold PerformOk Epoller.UpdateOk Epoller.RemoveOk Epoller.hasChannel
  split
  · split <;> infer_instance
  · infer_instance

/-- An operation is an update with other events, or the removal. -/
theorem perform_eq (c : Channel) (p : Epoller κ) (self : κ) (op : ChannelOp) :
    c.perform p self op = match op.events? c.events with
      | some events => { c with events }.update p self
      | none => c.remove p := by
  cases op <;> rfl

variable {c : Channel} {p : Epoller κ} {self : κ}

/-- Every operation of a channel in agreement meets its assertions, and leaves an agreement behind.
-/
theorem Agrees.perform (h : c.Agrees p self) (op : ChannelOp) :
    c.PerformOk p self op ∧ (c.perform p self op).1.Agrees (c.perform p self op).2 self := by
  rw [PerformOk, perform_eq]
  cases op.events? c.events with
  | some events => exact h.update events
  | none => exact ⟨h.remove.1, h.remove.2.1⟩

/-- No operation changes the descriptor. -/
@[simp] theorem fd_perform (op : ChannelOp) : (c.perform p self op).1.fd = c.fd := by
  rw [perform_eq]
  cases op.events? c.events with
  | some events => exact fd_update _ p self
  | none => exact fd_remove c p

/-- An operation of one channel concerns its own descriptor only. -/
theorem sameBut_perform (op : ChannelOp) : Epoller.SameBut c.fd p (c.perform p self op).2 := by
  rw [perform_eq]
  cases op.events? c.events with
  | some events => exact sameBut_update { c with events } p self
  | none => exact sameBut_remove c p

end Channel

/-- The channels of a loop, named by `κ`, and their poller; a destroyed channel is `none`. -/
structure PollLoop (κ : Type) where
  channel : κ → Option Channel
  poller : Epoller κ := {}

namespace PollLoop

/-- One new channel for every name. -/
def start (fd : κ → Nat) : PollLoop κ where
  channel k := some { fd := fd k }

/-- An operation on a living channel; no step where an assertion fails. -/
def step [DecidableEq κ] (w : PollLoop κ) (a : κ × ChannelOp) : Option (PollLoop κ) :=
  match w.channel a.1 with
  | none => none
  | some c =>
    if c.PerformOk w.poller a.1 a.2 then
      let (c, poller) := c.perform w.poller a.1 a.2
      some { channel := Function.update w.channel a.1 (if a.2 = .destroy then none else some c)
             poller }
    else none

/-- The records of all living channels agree, and a destroyed channel has left none. -/
structure Agree (fd : κ → Nat) (w : PollLoop κ) : Prop where
  fd_eq : ∀ {k c}, w.channel k = some c → c.fd = fd k
  agrees : ∀ {k c}, w.channel k = some c → c.Agrees w.poller k
  gone : ∀ {k}, w.channel k = none →
    w.poller.channelMap[fd k]? = none ∧ w.poller.interest[fd k]? = none

/-- At the start nothing is registered, and everything agrees. -/
theorem agree_start (fd : κ → Nat) : Agree fd (start fd) where
  fd_eq h := by
    obtain rfl := Option.some.inj h
    rfl
  agrees h := by
    obtain rfl := Option.some.inj h
    exact Channel.agrees_new (by simp [start]) (by simp [start])
  gone h := by contradiction

variable [DecidableEq κ] {w : PollLoop κ} {fd : κ → Nat}

/-- Every operation on a living channel meets its assertions. -/
theorem Agree.step_isSome (h : Agree fd w) {a : κ × ChannelOp}
    (hlive : (w.channel a.1).isSome) : (w.step a).isSome := by
  obtain ⟨c, hc⟩ := Option.isSome_iff_exists.mp hlive
  rw [step, hc]
  dsimp only
  rw [if_pos ((h.agrees hc).perform a.2).1]
  rfl

/-- What a step does: one living channel performs the operation, and is gone if it was the last
one. -/
theorem step_cases {w' : PollLoop κ} {k : κ} {op : ChannelOp} (h : w.step (k, op) = some w') :
    ∃ c, w.channel k = some c ∧ w'.poller = (c.perform w.poller k op).2 ∧
      w'.channel k = (if op = .destroy then none else some (c.perform w.poller k op).1) ∧
      ∀ k' ≠ k, w'.channel k' = w.channel k' := by
  rw [step] at h
  cases hc : w.channel k with
  | none => simp [hc] at h
  | some c =>
    simp only [hc] at h
    obtain ⟨-, hw⟩ := Option.ite_none_right_eq_some.mp h
    obtain rfl := Option.some.inj hw
    exact ⟨c, rfl, rfl, Function.update_self .., fun k' hk => Function.update_of_ne hk ..⟩

/-- An operation keeps the records of its own channel in agreement, and does not reach those of
the others. -/
theorem Agree.step {w' : PollLoop κ} {a : κ × ChannelOp} (hfd : Function.Injective fd)
    (h : Agree fd w) (hstep : w.step a = some w') : Agree fd w' := by
  obtain ⟨k, op⟩ := a
  obtain ⟨c, hc, hpoller, hself, hothers⟩ := step_cases hstep
  have hk : c.fd = fd k := h.fd_eq hc
  have hnext := ((h.agrees hc).perform op).2
  have hsame : Epoller.SameBut (fd k) w.poller w'.poller :=
    hpoller ▸ hk ▸ Channel.sameBut_perform op
  have hother {k' : κ} (hne : k' ≠ k) : fd k ≠ fd k' := fun he => hne (hfd he).symm
  rw [← hpoller] at hnext
  constructor
  · intro k' c' hc'
    by_cases hkk : k' = k
    · subst hkk
      rw [hself, Option.ite_none_left_eq_some, Option.some.injEq] at hc'
      rw [← hc'.2, Channel.fd_perform, hk]
    · rw [hothers k' hkk] at hc'
      exact h.fd_eq hc'
  · intro k' c' hc'
    by_cases hkk : k' = k
    · subst hkk
      rw [hself, Option.ite_none_left_eq_some, Option.some.injEq] at hc'
      exact hc'.2 ▸ hnext
    · rw [hothers k' hkk] at hc'
      exact (h.agrees hc').frame (h.fd_eq hc' ▸ hother hkk) hsame
  · intro k' hc'
    by_cases hkk : k' = k
    · subst hkk
      rw [hself] at hc'
      have hdestroy : op = .destroy := by
        by_contra hne
        simp [hne] at hc'
      subst hdestroy
      have hremove := (h.agrees hc).remove.2
      have habsent := hremove.1.absent hremove.2
      rw [Channel.fd_remove, hk] at habsent
      rw [hpoller]
      exact habsent
    · rw [hothers k' hkk] at hc'
      obtain ⟨hmap, hset⟩ := h.gone hc'
      have hsame := hsame (fd k') (hother hkk)
      exact ⟨hsame.1.trans hmap, hsame.2.trans hset⟩

/-- Channels of different descriptors agree with the poller in every state of every run. -/
theorem agree_of_reachable (hfd : Function.Injective fd) {as : List (κ × ChannelOp)}
    (h : Run step anyStep (start fd) as w) : Agree fd w :=
  h.invariant (agree_start fd) fun _ _ _ hw _ hstep => hw.step hfd hstep

/-- In every run, `getIndex()` is `kAdded` exactly for the channels in the poller's map and
exactly for those the kernel watches with their own mask, and whatever is done next with a living
channel meets all assertions. -/
theorem agree_of_run (hfd : Function.Injective fd) {as : List (κ × ChannelOp)}
    (h : Run step anyStep (start fd) as w) :
    (∀ k c, w.channel k = some c →
      (c.index = .kAdded ↔ w.poller.channelMap[c.fd]? = some k) ∧
      (c.index = .kAdded ↔ w.poller.interest[c.fd]? = some (c.events, k)) ∧
      (c.index ≠ .kAdded → w.poller.interest[c.fd]? = none) ∧
      (c.added = false → c.index ≠ .kAdded)) ∧
    ∀ a : κ × ChannelOp, (w.channel a.1).isSome → (w.step a).isSome := by
  have hinv := agree_of_reachable hfd h
  refine ⟨fun k c hc => ?_, fun a ha => hinv.step_isSome ha⟩
  have hagrees := hinv.agrees hc
  refine ⟨⟨fun hi => (hagrees.registered hi).1, fun hm => ?_⟩,
    ⟨fun hi => (hagrees.registered hi).2, fun hm => ?_⟩, fun hi => (hagrees.absent hi).2,
    hagrees.notAdded⟩
  · by_contra hi
    simp [(hagrees.absent hi).1] at hm
  · by_contra hi
    simp [(hagrees.absent hi).2] at hm

/-- A channel is removed by an empty mask, removed again, enabled, disabled twice and destroyed,
while another one stays registered. -/
def enableAndDestroy : List (Bool × ChannelOp) :=
  [(true, .enableReading), (false, .enableWriting), (true, .disableAll), (true, .remove),
    (true, .enableReading), (true, .disableReading), (true, .disableReading), (true, .destroy)]

/-- Two channels, of which one is enabled and destroyed. -/
theorem agree_of_run_enableAndDestroy :
    ∃ w : PollLoop Bool, Run step anyStep (start fun b => cond b 5 6) enableAndDestroy w ∧
      (∀ k c, w.channel k = some c →
        (c.index = .kAdded ↔ w.poller.channelMap[c.fd]? = some k) ∧
        (c.index = .kAdded ↔ w.poller.interest[c.fd]? = some (c.events, k)) ∧
        (c.index ≠ .kAdded → w.poller.interest[c.fd]? = none) ∧
        (c.added = false → c.index ≠ .kAdded)) ∧
      ∀ a : Bool × ChannelOp, (w.channel a.1).isSome → (w.step a).isSome := by
  obtain ⟨w, hw⟩ := Option.isSome_iff_exists.mp
    (show (replay step anyStep (start fun b => cond b 5 6) enableAndDestroy).isSome by
      decide +kernel)
  exact ⟨w, .of_replay hw, agree_of_run (by decide) (.of_replay hw)⟩

end PollLoop

end ClearMoon.Net

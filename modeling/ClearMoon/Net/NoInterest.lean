import ClearMoon.Net.Poller

/-!
# Channels without interest

`updateChannel` looks at the mask only on its `kAdded` branch, which removes a channel whose mask
is empty. The other branch registers the channel whatever its mask is. So an update with an empty
mask leaves the channel out of the poller exactly if it found it there, and `disableAll`, called
again, registers the channel and removes it by turns.
-/

namespace ClearMoon.Net

variable {κ : Type}

namespace Channel

variable {c : Channel} {p : Epoller κ} {self : κ}

/-- The descriptor stands neither in the poller's map nor in the kernel's list. -/
def Unregistered (c : Channel) (p : Epoller κ) : Prop :=
  p.channelMap[c.fd]? = none ∧ p.interest[c.fd]? = none

instance (c : Channel) (p : Epoller κ) : Decidable (c.Unregistered p) :=
  inferInstanceAs (Decidable (p.channelMap[c.fd]? = none ∧ p.interest[c.fd]? = none))

/-- A channel that agrees with the poller is registered just where its index says `kAdded`. -/
theorem Agrees.unregistered_iff (h : c.Agrees p self) : c.Unregistered p ↔ c.index ≠ .kAdded := by
  refine ⟨fun hc hi => ?_, h.absent⟩
  rw [Unregistered, (h.registered hi).1] at hc
  exact absurd hc.1 (by simp)

/-- An update leaves the channel registered unless it finds it registered with no interest. -/
theorem index_update (c : Channel) (p : Epoller κ) (self : κ) : (c.update p self).1.index =
    if c.index = .kAdded ∧ c.events.isNone = true then .kDeleted else .kAdded := by
  rw [update, Epoller.updateChannel]
  cases hindex : c.index with
  | kNew => rfl
  | kDeleted => rfl
  | kAdded =>
    dsimp only
    cases hnone : c.events.isNone with
    | true => rfl
    | false => exact hindex

/-- `disableAll` deletes a channel that is added, and adds one that is not. -/
theorem index_disableAll (c : Channel) (p : Epoller κ) (self : κ) :
    (c.disableAll p self).1.index = if c.index = .kAdded then .kDeleted else .kAdded := by
  rw [disableAll, index_update, Events.isNone]
  simp

/-- After an update with an empty mask the channel is unregistered exactly if it was registered. -/
theorem Agrees.unregistered_disableAll (h : c.Agrees p self) :
    (c.disableAll p self).1.Unregistered (c.disableAll p self).2 ↔ c.index = .kAdded := by
  rw [(show (c.disableAll p self).1.Agrees (c.disableAll p self).2 self from
    (h.update {}).2).unregistered_iff, index_disableAll]
  split
  · rename_i hi
    simp [show c.index = .kAdded from hi]
  · rename_i hi
    simpa using hi

/-- Every operation that leaves the mask empty is `disableAll`. -/
theorem perform_of_events {op : ChannelOp} (h : op.events? c.events = some {}) :
    c.perform p self op = c.disableAll p self := by
  rw [perform_eq, h]
  rfl

/-! ## Calling `disableAll` again -/

/-- `disableAll` on a channel and its poller. -/
def disableAgain (self : κ) (s : Channel × Epoller κ) : Channel × Epoller κ :=
  s.1.disableAll s.2 self

/-- A channel without interest that has been updated and is out of the poller comes back to the
same place after two more calls. -/
theorem disableAgain_twice (h : c.Agrees p self) (hevents : c.events = {})
    (hadded : c.added = true) (hindex : c.index = .kDeleted) :
    disableAgain self (disableAgain self (c, p)) = (c, p) := by
  obtain ⟨hmap, hset⟩ := h.absent (by simp [hindex])
  have herase {β : Type} (m : Std.ExtTreeMap Nat β) (b : β) (hm : m[c.fd]? = none) :
      (m.insert c.fd b).erase c.fd = m := by
    refine Std.ExtTreeMap.ext_getElem? fun fd => ?_
    rw [Std.ExtTreeMap.getElem?_erase, Std.ExtTreeMap.getElem?_insert]
    by_cases hfd : c.fd = fd
    · subst hfd
      simp [hm]
    · simp [hfd]
  obtain ⟨fd, events, revents, added, index⟩ := c
  obtain ⟨channelMap, interest⟩ := p
  dsimp only at *
  subst hevents hadded hindex
  simp [disableAgain, disableAll, update, Epoller.updateChannel, Epoller.removeChannel,
    Epoller.ctlAdd, Epoller.ctlDel, Events.isNone, hset, herase _ _ hmap, herase _ _ hset]

/-- Called an even number of times more, `disableAll` changes nothing; called an odd number of
times more, it has registered the channel. -/
theorem iterate_disableAgain (h : c.Agrees p self) (hevents : c.events = {})
    (hadded : c.added = true) (hindex : c.index = .kDeleted) (n : Nat) :
    (disableAgain self)^[n] (c, p) = (c, p) ↔ Even n := by
  have htwo : Function.IsPeriodicPt (disableAgain self) 2 (c, p) :=
    disableAgain_twice h hevents hadded hindex
  have hone : ¬Function.IsFixedPt (disableAgain self) (c, p) := by
    intro hfixed
    have hc : (disableAgain self (c, p)).1.index = c.index := by rw [hfixed]
    rw [disableAgain, index_disableAll] at hc
    simp [hindex] at hc
  have hperiod : Function.minimalPeriod (disableAgain self) (c, p) = 2 :=
    Function.minimalPeriod_eq_prime htwo hone
  rw [even_iff_two_dvd, ← hperiod, ← Function.isPeriodicPt_iff_minimalPeriod_dvd]
  exact .rfl

end Channel

/-! ## A loop with many channels -/

namespace PollLoop

/-- A living channel without interest is never registered. -/
def Unwatched (w : PollLoop κ) : Prop :=
  ∀ k c, w.channel k = some c → c.events = {} → c.Unregistered w.poller

/-- An update with an empty mask finds its channel registered. -/
def FindsAdded (w : PollLoop κ) (a : κ × ChannelOp) : Prop :=
  ∀ c, w.channel a.1 = some c → a.2.events? c.events = some {} → c.index = .kAdded

variable [DecidableEq κ] {w w' : PollLoop κ} {fd : κ → Nat}

/-- Only the channel that performs the operation can come to be registered without interest, and
only by an update with an empty mask that did not find it registered. -/
theorem Unwatched.step_iff {a : κ × ChannelOp} (hfd : Function.Injective fd) (h : w.Unwatched)
    (hagree : Agree fd w) (hstep : w.step a = some w') : w'.Unwatched ↔ w.FindsAdded a := by
  obtain ⟨k, op⟩ := a
  have hagree' := hagree.step hfd hstep
  obtain ⟨c, hc, hpoller, hself, hothers⟩ := step_cases hstep
  have hnext := ((hagree.agrees hc).perform op).2
  rw [← hpoller] at hnext
  constructor
  · intro hw c' hc' hevents
    obtain rfl := Option.some.inj (hc.symm.trans hc')
    have hlive : op ≠ .destroy := by
      rintro rfl
      contradiction
    rw [if_neg hlive, Channel.perform_of_events hevents] at hself
    rw [Channel.perform_of_events hevents] at hpoller
    refine (hagree.agrees hc).unregistered_disableAll.mp ?_
    rw [← hpoller]
    exact hw k _ hself (Channel.events_update ..)
  · intro hadded k' c' hc' hevents
    by_cases hk : k' = k
    · subst hk
      rw [hself, Option.ite_none_left_eq_some, Option.some.injEq] at hc'
      obtain ⟨-, rfl⟩ := hc'
      rw [hnext.unregistered_iff]
      rw [Channel.perform_eq] at hevents ⊢
      cases hop : op.events? c.events with
      | none => exact (hagree.agrees hc).remove.2.2
      | some events =>
        simp only [hop, Channel.events_update] at hevents ⊢
        subst hevents
        rw [Channel.index_update, if_pos ⟨hadded c hc hop, rfl⟩]
        decide
    · have hbefore := hothers k' hk ▸ hc'
      rw [(hagree'.agrees hc').unregistered_iff, ← (hagree.agrees hbefore).unregistered_iff]
      exact h k' c' hbefore hevents

/-- In every run, no living channel without interest is registered in any state the run goes
through exactly if every update with an empty mask finds its channel registered; a further
`disableAll` is such an update too. And whatever state is reached, such an update leaves its channel
out of the poller, with `n` more calls of `disableAll` ending where they began, exactly if it finds
the channel registered and `n` is even. -/
theorem unwatched_iff_of_run (hfd : Function.Injective fd) {as : List (κ × ChannelOp)}
    (h : Run step anyStep (start fd) as w) :
    (Always step (start fd) as Unwatched ↔ Run step FindsAdded (start fd) as w) ∧
    ∀ k c op, w.channel k = some c → op.events? c.events = some {} → ∀ n,
      ((c.perform w.poller k op).1.Unregistered (c.perform w.poller k op).2 ∧
        (Channel.disableAgain k)^[n] (c.perform w.poller k op) = c.perform w.poller k op ↔
      c.index = .kAdded ∧ Even n) := by
  constructor
  · refine h.always_iff ?_ fun bs v a u hv hunwatched hstep =>
      hunwatched.step_iff hfd (agree_of_reachable hfd hv) hstep
    intro k c hc hevents
    refine ((agree_start fd).agrees hc).unregistered_iff.mpr ?_
    obtain rfl := Option.some.inj hc
    exact nofun
  · intro k c op hc hop n
    have hagrees := (agree_of_reachable hfd h).agrees hc
    rw [Channel.perform_of_events hop, hagrees.unregistered_disableAll]
    refine and_congr_right fun hindex => ?_
    have hdeleted : (c.disableAll w.poller k).1.index = .kDeleted := by
      rw [Channel.index_disableAll, if_pos hindex]
    exact Channel.iterate_disableAgain (hagrees.update {}).2 (Channel.events_update ..) rfl hdeleted
      n

/-- The channel is enabled, closed, and closed again by the destructor of its owner. -/
def closeTwice : List (Unit × ChannelOp) :=
  [((), .enableReading), ((), .disableAll), ((), .disableAll)]

/-- The run of a connection closed twice, and both sides of the equivalence on it. -/
theorem unwatched_iff_of_run_closeTwice :
    ∃ w : PollLoop Unit, Run step anyStep (start fun _ => 5) closeTwice w ∧
      (Always step (start fun _ => 5) closeTwice Unwatched ↔
        Run step FindsAdded (start fun _ => 5) closeTwice w) ∧
      ∀ k c op, w.channel k = some c → op.events? c.events = some {} → ∀ n,
        ((c.perform w.poller k op).1.Unregistered (c.perform w.poller k op).2 ∧
          (Channel.disableAgain k)^[n] (c.perform w.poller k op) = c.perform w.poller k op ↔
        c.index = .kAdded ∧ Even n) := by
  obtain ⟨w, hw⟩ := Option.isSome_iff_exists.mp
    (show (replay step anyStep (start fun _ => 5) closeTwice).isSome by decide +kernel)
  exact ⟨w, .of_replay hw, unwatched_iff_of_run (fun _ _ _ => rfl) (.of_replay hw)⟩

/-- The second call of `disableAll` registers the channel, with an empty mask. -/
theorem registered_without_interest :
    ∃ w : PollLoop Unit, Run step anyStep (start fun _ => 5) closeTwice w ∧
      (w.channel ()).map Channel.events = some ({} : Events) ∧ w.poller.channelMap[5]? = some () ∧
      w.poller.interest[5]? = some (({} : Events), ()) := by
  obtain ⟨w, hw, hregistered⟩ := (Option.any_eq_true _ _).mp
    (show (replay step anyStep (start fun _ => 5) closeTwice).any fun w =>
      (w.channel ()).map Channel.events = some ({} : Events) ∧ w.poller.channelMap[5]? = some () ∧
        w.poller.interest[5]? = some (({} : Events), ()) by decide +kernel)
  exact ⟨w, .of_replay hw, of_decide_eq_true hregistered⟩

end PollLoop

end ClearMoon.Net

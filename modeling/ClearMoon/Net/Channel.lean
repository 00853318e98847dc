import Mathlib

/-!
# Channels and the poller

A `Channel` keeps the events a descriptor is watched for and whether it stands in the poller. The
poller keeps a map from descriptors to channels beside the kernel's own interest list; both are
written only through `updateChannel` and `removeChannel`. The result of `epoll_ctl` is ignored by
the source, so a refused operation leaves the kernel's list as it is.
-/

namespace ClearMoon.Net

/-- The bits of `revents_` that `Channel::handleEvent` tests. -/
structure Revents where
  epollin : Bool := false
  epollpri : Bool := false
  epollout : Bool := false
  epollerr : Bool := false
  epollhup : Bool := false
  epollrdhup : Bool := false
  deriving DecidableEq, Repr

/-- The bits of `events_`. -/
structure Events where
  epollin : Bool := false
  epollout : Bool := false
  deriving DecidableEq, Repr

/-- `events_ == 0`. -/
def Events.isNone (e : Events) : Bool := !e.epollin && !e.epollout

/-- `ChannelState`, the values of `index_`. -/
inductive ChannelState where
  | kDeleted
  | kNew
  | kAdded
  deriving DecidableEq, Repr

/-- `net/Channel.h`, less the callbacks, which belong to the channel's owner. -/
structure Channel where
  fd : Nat
  events : Events := {}
  revents : Revents := {}
  added : Bool := false
  index : ChannelState := .kNew
  deriving DecidableEq, Repr

/-- `net/Poller/Epoller.h`: `κ` names the channels, as pointers do in the source. -/
structure Epoller (κ : Type) where
  /-- `ChannelMap_`. -/
  channelMap : Std.ExtTreeMap Nat κ := ∅
  /-- The interest list of the epoll descriptor, with `event.data.ptr`. -/
  interest : Std.ExtTreeMap Nat (Events × κ) := ∅

variable {κ : Type}

namespace Epoller

/-- `EPOLL_CTL_ADD`; refused for a descriptor that is there already. -/
def ctlAdd (p : Epoller κ) (fd : Nat) (event : Events × κ) : Epoller κ :=
  if p.interest[fd]?.isSome then p else { p with interest := p.interest.insert fd event }

/-- `EPOLL_CTL_MOD`; refused for a descriptor that is not there. -/
def ctlMod (p : Epoller κ) (fd : Nat) (event : Events × κ) : Epoller κ :=
  if p.interest[fd]?.isSome then { p with interest := p.interest.insert fd event } else p

/-- `EPOLL_CTL_DEL`. -/
def ctlDel (p : Epoller κ) (fd : Nat) : Epoller κ :=
  { p with interest := p.interest.erase fd }

/-- `Epoller::removeChannel`. -/
def removeChannel (p : Epoller κ) (c : Channel) : Channel × Epoller κ :=
  let p := p.ctlDel c.fd
  ({ c with index := .kDeleted }, { p with channelMap := p.channelMap.erase c.fd })

/-- `Epoller::updateChannel`. -/
def updateChannel (p : Epoller κ) (self : κ) (c : Channel) : Channel × Epoller κ :=
  match c.index with
  | .kNew | .kDeleted =>
    let p := { p with channelMap := p.channelMap.insert c.fd self }
    ({ c with index := .kAdded }, p.ctlAdd c.fd (c.events, self))
  | .kAdded =>
    if c.events.isNone then p.removeChannel c else (c, p.ctlMod c.fd (c.events, self))

end Epoller

namespace Channel

def isWriting (c : Channel) : Bool := c.events.epollout

/-- `Channel::update`. -/
def update (c : Channel) (p : Epoller κ) (self : κ) : Channel × Epoller κ :=
  let (c, p) := p.updateChannel self c
  ({ c with added := true }, p)

def enableReading (c : Channel) : Epoller κ → κ → Channel × Epoller κ :=
  { c with events.epollin := true }.update

def disableReading (c : Channel) : Epoller κ → κ → Channel × Epoller κ :=
  { c with events.epollin := false }.update

def enableWriting (c : Channel) : Epoller κ → κ → Channel × Epoller κ :=
  { c with events.epollout := true }.update

def disableWriting (c : Channel) : Epoller κ → κ → Channel × Epoller κ :=
  { c with events.epollout := false }.update

def disableAll (c : Channel) : Epoller κ → κ → Channel × Epoller κ :=
  { c with events := {} }.update

/-- `Channel::remove`. -/
def remove (c : Channel) (p : Epoller κ) : Channel × Epoller κ :=
  if !c.added then (c, p)
  else
    let c := { c with added := false }
    if c.index = .kDeleted then (c, p) else p.removeChannel c

/-! ## The events a channel is left with -/

/-- An update tells the poller of the events and leaves them alone. -/
@[simp] theorem events_update (c : Channel) (p : Epoller κ) (self : κ) :
    (c.update p self).1.events = c.events := by
  simp only [update, Epoller.updateChannel]
  cases c.index with
  | kDeleted => rfl
  | kNew => rfl
  | kAdded =>
    dsimp only
    split <;> rfl

/-- A watch for reading does not touch the watch for writing. -/
@[simp] theorem isWriting_enableReading (c : Channel) (p : Epoller κ) (self : κ) :
    (c.enableReading p self).1.isWriting = c.isWriting := by
  rw [isWriting, enableReading, events_update]
  rfl

/-- Behind `enableWriting` the channel is watched for writing. -/
@[simp] theorem isWriting_enableWriting (c : Channel) (p : Epoller κ) (self : κ) :
    (c.enableWriting p self).1.isWriting = true := by
  rw [isWriting, enableWriting, events_update]

/-- Behind `disableWriting` it is not. -/
@[simp] theorem isWriting_disableWriting (c : Channel) (p : Epoller κ) (self : κ) :
    (c.disableWriting p self).1.isWriting = false := by
  rw [isWriting, disableWriting, events_update]

/-- A removed channel keeps its `events_`. -/
@[simp] theorem events_remove (c : Channel) (p : Epoller κ) :
    (c.remove p).1.events = c.events := by
  rw [remove]
  split
  · rfl
  · dsimp only
    split <;> rfl

end Channel

end ClearMoon.Net

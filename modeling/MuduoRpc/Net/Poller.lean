import Mathlib.Logic.Function.Basic
import MuduoRpc.Net.Channel

/-!
`Poller` over an epoll set. Channels are named by identifiers that stand for
their addresses. A failed assertion, or an `epoll_ctl` whose failure is fatal,
is `none`; the loop-thread guard is taken as passing.
-/

namespace MuduoRpc

namespace Kstate

def KNew : Int := -1

def KAdded : Int := 1

def KDeleted : Int := 2

end Kstate

/-- `epoll` maps a descriptor in the epoll set to the event registered for
it: the mask and the channel in `data.ptr`. -/
structure Poller (ι : Type*) where
  channels_ : Nat → Option ι
  epoll : Nat → Option (BitVec 32 × ι)

namespace Poller

inductive Operation
  | EPOLL_CTL_ADD
  | EPOLL_CTL_MOD
  | EPOLL_CTL_DEL
deriving DecidableEq, Repr

variable {ι : Type*}

def new : Poller ι where
  channels_ _ := none
  epoll _ := none

def setEntry (p : Poller ι) (fd : Nat) (event : Option (BitVec 32 × ι)) : Poller ι :=
  { p with epoll := Function.update p.epoll fd event }

/-- The system call: adding a descriptor that is there and changing or
deleting one that is not there fail. -/
def epoll_ctl (p : Poller ι) (operation : Operation) (fd : Nat)
    (event : BitVec 32 × ι) : Option (Poller ι) :=
  match operation, p.epoll fd with
  | .EPOLL_CTL_ADD, none | .EPOLL_CTL_MOD, some _ =>
      some (p.setEntry fd (some event))
  | .EPOLL_CTL_DEL, some _ => some (p.setEntry fd none)
  | _, _ => none

def update (p : Poller ι) (operation : Operation) (self : ι) (channel : Channel) :
    Option (Poller ι) :=
  match p.epoll_ctl operation channel.fd_ (channel.events_, self) with
  | some p' => some p'
  | none => if operation = .EPOLL_CTL_DEL then some p else none

theorem update_add {p : Poller ι} {self : ι} {channel : Channel}
    (h : p.epoll channel.fd_ = none) : p.update .EPOLL_CTL_ADD self channel =
      some (p.setEntry channel.fd_ (some (channel.events_, self))) := by
  simp only [update, epoll_ctl, h]

theorem update_mod {p : Poller ι} {self : ι} {channel : Channel} {event : BitVec 32 × ι}
    (h : p.epoll channel.fd_ = some event) : p.update .EPOLL_CTL_MOD self channel =
      some (p.setEntry channel.fd_ (some (channel.events_, self))) := by
  simp only [update, epoll_ctl, h]

theorem update_del {p : Poller ι} {self : ι} {channel : Channel} {event : BitVec 32 × ι}
    (h : p.epoll channel.fd_ = some event) : p.update .EPOLL_CTL_DEL self channel =
      some (p.setEntry channel.fd_ none) := by
  simp only [update, epoll_ctl, h]

/-- Only the entry of the channel's own descriptor changes. -/
theorem update_frame {p p' : Poller ι} {operation : Operation} {self : ι} {channel : Channel}
    (h : p.update operation self channel = some p') :
    p'.channels_ = p.channels_ ∧ ∀ fd, fd ≠ channel.fd_ → p'.epoll fd = p.epoll fd := by
  have hset (event : Option (BitVec 32 × ι)) :
      (p.setEntry channel.fd_ event).channels_ = p.channels_ ∧
        ∀ fd, fd ≠ channel.fd_ → (p.setEntry channel.fd_ event).epoll fd = p.epoll fd :=
    ⟨rfl, fun fd hfd => Function.update_of_ne hfd _ _⟩
  cases hentry : p.epoll channel.fd_ with
  | none =>
      cases operation <;> simp only [update, epoll_ctl, hentry] at h <;> cases h
      · exact hset _
      · exact ⟨rfl, fun _ _ => rfl⟩
  | some event =>
      cases operation <;> simp only [update, epoll_ctl, hentry] at h <;> cases h
      · exact hset _
      · exact hset _

/-- Where the channel stands with the poller: its index, its entry in
`channels_` and its descriptor in the epoll set agree. `mask` is what the
kernel has for it. -/
inductive Registration (p : Poller ι) (self : ι) (channel : Channel) :
    Option (BitVec 32) → Prop
  | fresh : channel.index_ = Kstate.KNew → p.channels_ channel.fd_ = none →
      p.epoll channel.fd_ = none → Registration p self channel none
  | added {mask : BitVec 32} : channel.index_ = Kstate.KAdded →
      p.channels_ channel.fd_ = some self → p.epoll channel.fd_ = some (mask, self) →
      Registration p self channel (some mask)
  | deleted : channel.index_ = Kstate.KDeleted → p.channels_ channel.fd_ = some self →
      p.epoll channel.fd_ = none → Registration p self channel none

/-- Only the descriptor and the index of the channel count. -/
theorem Registration.congr {p : Poller ι} {self : ι} {channel channel' : Channel}
    {mask : Option (BitVec 32)} (h : p.Registration self channel mask)
    (hfd : channel'.fd_ = channel.fd_) (hindex : channel'.index_ = channel.index_) :
    p.Registration self channel' mask := by
  cases h with
  | fresh hnew hchannel hepoll => exact .fresh (hindex ▸ hnew) (hfd ▸ hchannel) (hfd ▸ hepoll)
  | added hadded hchannel hepoll =>
      exact .added (hindex ▸ hadded) (hfd ▸ hchannel) (hfd ▸ hepoll)
  | deleted hdeleted hchannel hepoll =>
      exact .deleted (hindex ▸ hdeleted) (hfd ▸ hchannel) (hfd ▸ hepoll)

/-- Only the entries of the channel's descriptor count. -/
theorem Registration.frame {p p' : Poller ι} {self : ι} {channel : Channel}
    {mask : Option (BitVec 32)} (h : p.Registration self channel mask)
    (hsame : p'.channels_ channel.fd_ = p.channels_ channel.fd_ ∧
      p'.epoll channel.fd_ = p.epoll channel.fd_) : p'.Registration self channel mask := by
  obtain ⟨hchannels, hepoll⟩ := hsame
  cases h with
  | fresh hnew hchannel hentry => exact .fresh hnew (hchannels ▸ hchannel) (hepoll ▸ hentry)
  | added hadded hchannel hentry => exact .added hadded (hchannels ▸ hchannel) (hepoll ▸ hentry)
  | deleted hdeleted hchannel hentry =>
      exact .deleted hdeleted (hchannels ▸ hchannel) (hepoll ▸ hentry)

theorem Registration.listed_self {p : Poller ι} {self other : ι} {channel : Channel}
    {mask : Option (BitVec 32)} (h : p.Registration self channel mask)
    (hother : p.channels_ channel.fd_ = some other) : other = self := by
  cases h with
  | fresh _ hchannel _ =>
      rw [hchannel] at hother
      cases hother
  | added _ hchannel _ => exact Option.some.inj (hother.symm.trans hchannel)
  | deleted _ hchannel _ => exact Option.some.inj (hother.symm.trans hchannel)

theorem Registration.new_iff {p : Poller ι} {self : ι} {channel : Channel}
    {mask : Option (BitVec 32)} (h : p.Registration self channel mask) :
    channel.index_ = Kstate.KNew ↔ p.channels_ channel.fd_ ≠ some self := by
  cases h with
  | fresh hnew hchannel _ => simp [hnew, hchannel]
  | added hadded hchannel _ => simp [hadded, hchannel, Kstate.KAdded, Kstate.KNew]
  | deleted hdeleted hchannel _ => simp [hdeleted, hchannel, Kstate.KDeleted, Kstate.KNew]

theorem Registration.added_iff {p : Poller ι} {self : ι} {channel : Channel}
    {mask : Option (BitVec 32)} (h : p.Registration self channel mask) :
    channel.index_ = Kstate.KAdded ↔ p.channels_ channel.fd_ = some self ∧
      ∃ events, mask = some events ∧ p.epoll channel.fd_ = some (events, self) := by
  cases h with
  | fresh hnew hchannel _ => simp [hnew, hchannel, Kstate.KAdded, Kstate.KNew]
  | added hadded hchannel hentry => simp [hadded, hchannel, hentry]
  | deleted hdeleted hchannel _ => simp [hdeleted, hchannel, Kstate.KAdded, Kstate.KDeleted]

theorem Registration.deleted_iff {p : Poller ι} {self : ι} {channel : Channel}
    {mask : Option (BitVec 32)} (h : p.Registration self channel mask) :
    channel.index_ = Kstate.KDeleted ↔
      p.channels_ channel.fd_ = some self ∧ p.epoll channel.fd_ = none := by
  cases h with
  | fresh hnew hchannel _ => simp [hnew, hchannel, Kstate.KDeleted, Kstate.KNew]
  | added hadded hchannel hentry =>
      simp [hadded, hentry, Kstate.KAdded, Kstate.KDeleted]
  | deleted hdeleted hchannel hentry => simp [hdeleted, hchannel, hentry]

/-- The one `epoll_ctl` call of `updateChannel`. -/
def updateOperation (channel : Channel) : Operation :=
  if channel.index_ = Kstate.KNew ∨ channel.index_ = Kstate.KDeleted then .EPOLL_CTL_ADD
  else if channel.isNoneEvent then .EPOLL_CTL_DEL
  else .EPOLL_CTL_MOD

/-- The `epoll_ctl` call of `removeChannel`, if there is one. -/
def removeOperation (channel : Channel) : Option Operation :=
  if channel.index_ = Kstate.KAdded then some .EPOLL_CTL_DEL else none

/-- The kernel accepts the call that `updateChannel` makes. -/
theorem Registration.accepts_update {p : Poller ι} {self : ι} {channel : Channel}
    {mask : Option (BitVec 32)} (h : p.Registration self channel mask) (event : BitVec 32 × ι) :
    (p.epoll_ctl (updateOperation channel) channel.fd_ event).isSome = true := by
  have hnew : Kstate.KAdded ≠ Kstate.KNew := by decide
  have hdeleted : Kstate.KAdded ≠ Kstate.KDeleted := by decide
  cases h with
  | fresh hindex _ hepoll => simp [updateOperation, hindex, epoll_ctl, hepoll]
  | deleted hindex _ hepoll => simp [updateOperation, hindex, epoll_ctl, hepoll]
  | added hindex _ hepoll =>
      simp only [updateOperation, hindex, hnew, hdeleted, or_self, if_false]
      cases channel.isNoneEvent <;> simp [epoll_ctl, hepoll]

theorem Registration.accepts_remove {p : Poller ι} {self : ι} {channel : Channel}
    {mask : Option (BitVec 32)} (h : p.Registration self channel mask) (event : BitVec 32 × ι) :
    ∀ operation ∈ removeOperation channel,
      (p.epoll_ctl operation channel.fd_ event).isSome = true := by
  intro operation hoperation
  have hindex : channel.index_ = Kstate.KAdded ∧ operation = .EPOLL_CTL_DEL := by
    rw [removeOperation] at hoperation
    split_ifs at hoperation with hadded
    · exact ⟨hadded, (Option.some.inj hoperation).symm⟩
    · cases hoperation
  obtain ⟨hadded, rfl⟩ := hindex
  cases h with
  | fresh hnew =>
      rw [hnew] at hadded
      cases hadded
  | deleted hdeleted =>
      rw [hdeleted] at hadded
      cases hadded
  | added _ _ hepoll => simp [epoll_ctl, hepoll]

def listed (p : Poller ι) (self : ι) (channel : Channel) : Poller ι :=
  { p with channels_ := Function.update p.channels_ channel.fd_ (some self) }

theorem listed_eq {p : Poller ι} {self : ι} {channel : Channel}
    (h : p.channels_ channel.fd_ = some self) : p.listed self channel = p := by
  rw [listed, ← h, Function.update_eq_self]

variable [DecidableEq ι]

def updateChannel (p : Poller ι) (self : ι) (channel : Channel) :
    Option (Poller ι × Channel) :=
  let fd := channel.fd_
  if channel.index_ = Kstate.KNew ∨ channel.index_ = Kstate.KDeleted then do
    let p ←
      if channel.index_ = Kstate.KNew then
        if p.channels_ fd = none then
          some { p with channels_ := Function.update p.channels_ fd (some self) }
        else none
      else if p.channels_ fd = some self then some p
      else none
    let channel := channel.setIndex Kstate.KAdded
    let p ← p.update .EPOLL_CTL_ADD self channel
    some (p, channel)
  else if channel.index_ = Kstate.KAdded ∧ p.channels_ fd = some self then
    if channel.isNoneEvent then do
      let p ← p.update .EPOLL_CTL_DEL self channel
      some (p, channel.setIndex Kstate.KDeleted)
    else do
      let p ← p.update .EPOLL_CTL_MOD self channel
      some (p, channel)
  else none

/-- The entry in `channels_` is erased before the descriptor is deleted from the
epoll set. -/
def removeChannel (p : Poller ι) (self : ι) (channel : Channel) :
    Option (Poller ι × Channel) :=
  let fd := channel.fd_
  if p.channels_ fd = some self ∧ channel.isNoneEvent ∧
      (channel.index_ = Kstate.KAdded ∨ channel.index_ = Kstate.KDeleted) then do
    let p := { p with channels_ := Function.update p.channels_ fd none }
    let p ←
      if channel.index_ = Kstate.KAdded then p.update .EPOLL_CTL_DEL self channel
      else some p
    some (p, channel.setIndex Kstate.KNew)
  else none

/-- `Channel::update()` for one of the operations on its interest, with
`EventLoop::updateChannel` forwarding to the poller. -/
def setInterest (p : Poller ι) (self : ι) (channel : Channel) (interest : Channel.Interest) :
    Option (Poller ι × Channel) :=
  p.updateChannel self { channel.setInterest interest with addedToLoop_ := true }

open Poll in
/-- What the kernel reports for a registered descriptor: the ready events in
the mask, and errors and hang-ups whatever the mask. -/
def reported (mask ready : BitVec 32) : BitVec 32 := ready &&& (mask ||| POLLERR ||| POLLHUP)

/-- One round of `poll` and `handleEvent` for a single descriptor: the channel
with the events it was given, and the callbacks that run. -/
def round (p : Poller ι) (self : ι) (channel : Channel) (ready : BitVec 32) :
    Option (Channel × List Channel.Callback) :=
  match p.epoll channel.fd_ with
  | none => some (channel, [])
  | some (mask, found) =>
      if reported mask ready = 0 then some (channel, [])
      else if p.channels_ channel.fd_ = some found ∧ found = self then
        let channel := channel.setRevent (reported mask ready)
        some (channel, channel.handleEvent)
      else none

/-- A round changes nothing of the channel but the reported events. -/
theorem round_channel {p : Poller ι} {self : ι} {channel channel' : Channel}
    {ready : BitVec 32} {callbacks : List Channel.Callback}
    (h : p.round self channel ready = some (channel', callbacks)) :
    ∃ revents, channel' = { channel with revents_ := revents } := by
  rw [round] at h
  split at h
  · cases h
    exact ⟨_, rfl⟩
  · split_ifs at h <;> cases h <;> exact ⟨_, rfl⟩

/-- What a successful `updateChannel` did: it listed the channel, made its one call
and gave the channel an index. -/
theorem updateChannel_cases {p p' : Poller ι} {self : ι} {channel channel' : Channel}
    (h : p.updateChannel self channel = some (p', channel')) :
    (p.listed self channel).update (updateOperation channel) self channel = some p' ∧
      ∃ index, index ≠ Kstate.KNew ∧ channel' = channel.setIndex index := by
  have hnew : Kstate.KAdded ≠ Kstate.KNew := by decide
  have hdeleted : Kstate.KDeleted ≠ Kstate.KNew := by decide
  simp only [updateChannel] at h
  split_ifs at h with hstart hfresh habsent hold hadded hnone
  · obtain ⟨q, hlisted, hrest⟩ := Option.bind_eq_some_iff.mp h
    cases hlisted
    obtain ⟨q', hadd, heq⟩ := Option.bind_eq_some_iff.mp hrest
    cases heq
    rw [updateOperation, if_pos hstart]
    exact ⟨hadd, _, hnew, rfl⟩
  · cases h
  · obtain ⟨q, hlisted, hrest⟩ := Option.bind_eq_some_iff.mp h
    cases hlisted
    obtain ⟨q', hadd, heq⟩ := Option.bind_eq_some_iff.mp hrest
    cases heq
    rw [updateOperation, if_pos hstart, listed_eq hold]
    exact ⟨hadd, _, hnew, rfl⟩
  · cases h
  · obtain ⟨q, hdel, heq⟩ := Option.bind_eq_some_iff.mp h
    cases heq
    rw [updateOperation, if_neg hstart, if_pos hnone, listed_eq hadded.2]
    exact ⟨hdel, _, hdeleted, rfl⟩
  · obtain ⟨q, hmod, heq⟩ := Option.bind_eq_some_iff.mp h
    cases heq
    rw [updateOperation, if_neg hstart, if_neg hnone, listed_eq hadded.2]
    exact ⟨hmod, channel.index_, hadded.1 ▸ hnew, rfl⟩

/-- What a successful `updateChannel` asserted. -/
theorem updateChannel_asserted {p p' : Poller ι} {self : ι} {channel channel' : Channel}
    (h : p.updateChannel self channel = some (p', channel')) :
    p.channels_ channel.fd_ = if channel.index_ = Kstate.KNew then none else some self := by
  simp only [updateChannel] at h
  split_ifs at h with hstart hfresh habsent hold hadded
  · rw [if_pos hfresh, habsent]
  · cases h
  · rw [if_neg hfresh, hold]
  · cases h
  all_goals
    rw [if_neg fun hnew => hstart (.inl hnew), hadded.2]

/-- What a successful `removeChannel` did. -/
theorem removeChannel_cases {p p' : Poller ι} {self : ι} {channel channel' : Channel}
    (h : p.removeChannel self channel = some (p', channel')) :
    channel' = channel.setIndex Kstate.KNew ∧ p.channels_ channel.fd_ = some self ∧
      let erased := { p with channels_ := Function.update p.channels_ channel.fd_ none }
      (p' = erased ∨ erased.update .EPOLL_CTL_DEL self channel = some p') := by
  simp only [removeChannel] at h
  split_ifs at h with hasserted
  all_goals
    obtain ⟨q, hq, heq⟩ := Option.bind_eq_some_iff.mp h
    cases heq
  · exact ⟨rfl, hasserted.1, .inr hq⟩
  · cases hq
    exact ⟨rfl, hasserted.1, .inl rfl⟩

/-- The poller does not look at the events reported for a channel. -/
theorem updateChannel_revents (p : Poller ι) (self : ι) (channel : Channel)
    (revents : BitVec 32) : p.updateChannel self { channel with revents_ := revents } =
      (p.updateChannel self channel).map
        fun out => (out.1, { out.2 with revents_ := revents }) := by
  have hnone : ({ channel with revents_ := revents } : Channel).isNoneEvent =
      channel.isNoneEvent := rfl
  simp only [updateChannel, hnone]
  split_ifs <;> simp [update, Option.map_bind, Channel.setIndex]

theorem setInterest_revents (p : Poller ι) (self : ι) (channel : Channel)
    (interest : Channel.Interest) (revents : BitVec 32) :
    p.setInterest self { channel with revents_ := revents } interest =
      (p.setInterest self channel interest).map
        fun out => (out.1, { out.2 with revents_ := revents }) := by
  rw [setInterest, setInterest, ← updateChannel_revents]
  cases interest <;> rfl

theorem removeChannel_revents (p : Poller ι) (self : ι) (channel : Channel)
    (revents : BitVec 32) : p.removeChannel self { channel with revents_ := revents } =
      (p.removeChannel self channel).map
        fun out => (out.1, { out.2 with revents_ := revents }) := by
  have hnone : ({ channel with revents_ := revents } : Channel).isNoneEvent =
      channel.isNoneEvent := rfl
  simp only [removeChannel, hnone]
  split_ifs <;> simp [update, Option.map_bind, Channel.setIndex]

/-- `updateChannel` succeeds on a channel that stands well with the poller.
The kernel gets the channel's events, unless the channel was registered and
has none: then it is deleted from the epoll set. -/
theorem updateChannel_spec {p : Poller ι} {self : ι} {channel : Channel}
    {mask : Option (BitVec 32)} (h : p.Registration self channel mask) :
    ∃ p' index, p.updateChannel self channel = some (p', channel.setIndex index) ∧
      p'.Registration self (channel.setIndex index)
        (if mask.isSome ∧ channel.isNoneEvent then none else some channel.events_) := by
  have hnew : Kstate.KAdded ≠ Kstate.KNew := by decide
  have hdeleted : Kstate.KAdded ≠ Kstate.KDeleted := by decide
  have hapart : Kstate.KDeleted ≠ Kstate.KNew := by decide
  cases h with
  | fresh hindex hchannel hepoll =>
      let listed : Poller ι :=
        { p with channels_ := Function.update p.channels_ channel.fd_ (some self) }
      have hadd : listed.update .EPOLL_CTL_ADD self (channel.setIndex Kstate.KAdded) = _ :=
        update_add hepoll
      refine ⟨listed.setEntry channel.fd_ (some (channel.events_, self)), Kstate.KAdded, ?_, ?_⟩
      · simp only [updateChannel, hindex, hchannel, true_or, if_true, Option.bind_eq_bind,
          Option.bind_some]
        exact Option.bind_eq_some_iff.mpr ⟨_, hadd, rfl⟩
      · rw [if_neg (by simp)]
        exact .added rfl (Function.update_self ..) (Function.update_self ..)
  | deleted hindex hchannel hepoll =>
      have hadd : p.update .EPOLL_CTL_ADD self (channel.setIndex Kstate.KAdded) = _ :=
        update_add hepoll
      refine ⟨p.setEntry channel.fd_ (some (channel.events_, self)), Kstate.KAdded, ?_, ?_⟩
      · simp only [updateChannel, hindex, hchannel, or_true, if_true, hapart, if_false,
          Option.bind_eq_bind, Option.bind_some]
        exact Option.bind_eq_some_iff.mpr ⟨_, hadd, rfl⟩
      · rw [if_neg (by simp)]
        exact .added rfl hchannel (Function.update_self ..)
  | added hindex hchannel hepoll =>
      by_cases hnone : channel.isNoneEvent = true
      · refine ⟨p.setEntry channel.fd_ none, Kstate.KDeleted, ?_, ?_⟩
        · simp only [updateChannel, hindex, hchannel, hnew, hdeleted, or_self, if_false,
            and_self, if_true, hnone, update_del hepoll, Option.bind_eq_bind, Option.bind_some]
        · rw [if_pos ⟨rfl, hnone⟩]
          exact .deleted rfl hchannel (Function.update_self ..)
      · refine ⟨p.setEntry channel.fd_ (some (channel.events_, self)), channel.index_, ?_, ?_⟩
        · simp only [updateChannel, hindex, hchannel, hnew, hdeleted, or_self, if_false,
            and_self, if_true, hnone, update_mod hepoll, Option.bind_eq_bind, Option.bind_some]
          rw [← hindex]
          rfl
        · rw [if_neg (fun h => hnone h.2)]
          exact .added hindex hchannel (Function.update_self ..)

/-- A call on the interest puts the channel's own events in place, and takes the descriptor
out of the epoll set if it was there and no event is left. -/
theorem setInterest_spec {p : Poller ι} {self : ι} {channel : Channel}
    {mask : Option (BitVec 32)} (h : p.Registration self channel mask)
    (interest : Channel.Interest) :
    let channel' := { channel.setInterest interest with addedToLoop_ := true }
    ∃ p' index, p.setInterest self channel interest = some (p', channel'.setIndex index) ∧
      p'.Registration self (channel'.setIndex index)
        (if mask.isSome ∧ (channel.setInterest interest).isNoneEvent then none
          else some (channel.setInterest interest).events_) := by
  have hchanged : p.Registration self
      { channel.setInterest interest with addedToLoop_ := true } mask := by
    cases interest <;> exact h.congr rfl rfl
  exact updateChannel_spec hchanged

theorem updateChannel_listed {p p' : Poller ι} {self : ι} {channel channel' : Channel}
    (h : p.updateChannel self channel = some (p', channel')) :
    p'.channels_ channel.fd_ = some self := by
  rw [(update_frame (updateChannel_cases h).1).1]
  exact Function.update_self ..

/-- The entries of other descriptors stay as they are. -/
theorem updateChannel_frame {p p' : Poller ι} {self : ι} {channel channel' : Channel}
    (h : p.updateChannel self channel = some (p', channel')) {fd : Nat}
    (hfd : fd ≠ channel.fd_) :
    p'.channels_ fd = p.channels_ fd ∧ p'.epoll fd = p.epoll fd := by
  obtain ⟨hchannels, hepoll⟩ := update_frame (updateChannel_cases h).1
  rw [hchannels]
  exact ⟨Function.update_of_ne hfd _ _, hepoll fd hfd⟩

theorem removeChannel_frame {p p' : Poller ι} {self : ι} {channel channel' : Channel}
    (h : p.removeChannel self channel = some (p', channel')) {fd : Nat}
    (hfd : fd ≠ channel.fd_) :
    p'.channels_ fd = p.channels_ fd ∧ p'.epoll fd = p.epoll fd := by
  rcases (removeChannel_cases h).2.2 with rfl | hdel
  · exact ⟨Function.update_of_ne hfd _ _, rfl⟩
  · obtain ⟨hchannels, hepoll⟩ := update_frame hdel
    rw [hchannels]
    exact ⟨Function.update_of_ne hfd _ _, hepoll fd hfd⟩

/-- What an operation on the interest asserts and does to the entries of
`channels_`. -/
theorem setInterest_listed {p p' : Poller ι} {self : ι} {channel channel' : Channel}
    {interest : Channel.Interest}
    (h : p.setInterest self channel interest = some (p', channel')) :
    (channel'.fd_ = channel.fd_ ∧ channel'.addedToLoop_ = true ∧
      channel'.index_ ≠ Kstate.KNew) ∧
    p.channels_ channel.fd_ = (if channel.index_ = Kstate.KNew then none else some self) ∧
    p'.channels_ channel.fd_ = some self ∧
    ∀ fd, fd ≠ channel.fd_ → p'.channels_ fd = p.channels_ fd := by
  have hfd : (channel.setInterest interest).fd_ = channel.fd_ := by cases interest <;> rfl
  have hindex : (channel.setInterest interest).index_ = channel.index_ := by
    cases interest <;> rfl
  have hasserted := updateChannel_asserted h
  have hlisted := updateChannel_listed h
  obtain ⟨_, index, hnew, rfl⟩ := updateChannel_cases h
  refine ⟨⟨hfd, rfl, hnew⟩, hfd ▸ hindex ▸ hasserted, hfd ▸ hlisted, fun fd hne => ?_⟩
  exact (updateChannel_frame h (hfd.symm ▸ hne)).1

/-- A channel that stands well with the poller, was updated and has no events is
removed. -/
theorem removeChannel_spec {p : Poller ι} {self : ι} {channel : Channel}
    {mask : Option (BitVec 32)} (h : p.Registration self channel mask)
    (hindex : channel.index_ ≠ Kstate.KNew) (hnone : channel.isNoneEvent = true) :
    ∃ p', p.removeChannel self channel = some (p', channel.setIndex Kstate.KNew) ∧
      p'.Registration self (channel.setIndex Kstate.KNew) none := by
  have hapart : Kstate.KDeleted ≠ Kstate.KAdded := by decide
  let erased : Poller ι :=
    { p with channels_ := Function.update p.channels_ channel.fd_ none }
  cases h with
  | fresh hnew => exact absurd hnew hindex
  | added hadded hchannel hepoll =>
      have hdel : erased.update .EPOLL_CTL_DEL self channel = _ := update_del hepoll
      refine ⟨erased.setEntry channel.fd_ none, ?_, ?_⟩
      · simp only [removeChannel, hadded, hchannel, hnone, true_or, and_self, if_true]
        exact Option.bind_eq_some_iff.mpr ⟨_, hdel, rfl⟩
      · exact .fresh rfl (Function.update_self ..) (Function.update_self ..)
  | deleted hdeleted hchannel hepoll =>
      refine ⟨erased, ?_, ?_⟩
      · simp only [removeChannel, hdeleted, hchannel, hnone, or_true, and_self, if_true, hapart,
          if_false]
        rfl
      · exact .fresh rfl (Function.update_self ..) hepoll

end Poller

end MuduoRpc

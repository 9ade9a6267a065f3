import MuduoRpc.Net.Poller

/-!
All the channels of a loop, with its poller. `ι` names the channels; what a
callback does to the channels is a step of its own between two rounds.
-/

namespace MuduoRpc

structure ChannelSet (ι : Type) where
  poller : Poller ι
  channels : ι → Channel

namespace ChannelSet

variable {ι : Type}

def new (fd : ι → Nat) : ChannelSet ι where
  poller := .new
  channels self := .new (fd self)

variable [DecidableEq ι]

def setChannel (s : ChannelSet ι) (self : ι) (channel : Channel) : ChannelSet ι :=
  { s with channels := Function.update s.channels self channel }

def removeChannel (s : ChannelSet ι) (self : ι) : Option (ChannelSet ι) := do
  let (poller, channel) ← s.poller.removeChannel self (s.channels self)
  some { poller, channels := Function.update s.channels self channel }

def setInterest (s : ChannelSet ι) (self : ι) (interest : Channel.Interest) :
    Option (ChannelSet ι) := do
  let (poller, channel) ← s.poller.setInterest self (s.channels self) interest
  some { poller, channels := Function.update s.channels self channel }

/-- The events `epoll_wait` returned, each with the channel in its `data.ptr`. -/
def fillActiveChannels (s : ChannelSet ι) :
    List (BitVec 32 × ι) → Option (ChannelSet ι × List ι)
  | [] => some (s, [])
  | (revents, self) :: rest =>
      let channel := s.channels self
      if s.poller.channels_ channel.fd_ = some self then do
        let (s, activeChannels) ←
          fillActiveChannels (s.setChannel self (channel.setRevent revents)) rest
        some (s, self :: activeChannels)
      else none

/-- One round of the loop: `poll`, then `handleEvent` on every active channel. The
second part of the result is what each of them runs. -/
def round (s : ChannelSet ι) (events : List (BitVec 32 × ι)) :
    Option (ChannelSet ι × List (ι × List Channel.Callback)) := do
  let (s, activeChannels) ← s.fillActiveChannels events
  some (s, activeChannels.map fun self => (self, (s.channels self).handleEvent))

/-- The events reported for a channel in a round. -/
def reportFor (self : ι) (events : List (BitVec 32 × ι)) : BitVec 32 :=
  events.foldr (fun event flags => if event.2 = self then event.1 ||| flags else flags) 0

/-- The flags of a round are added to those already there. -/
theorem fillActiveChannels_spec {s s' : ChannelSet ι} {events : List (BitVec 32 × ι)}
    {activeChannels : List ι} (h : s.fillActiveChannels events = some (s', activeChannels)) :
    s'.poller = s.poller ∧ activeChannels = events.map Prod.snd ∧ ∀ self,
      s'.channels self = (s.channels self).setRevent (reportFor self events) := by
  induction events generalizing s activeChannels with
  | nil =>
      cases h
      refine ⟨rfl, rfl, fun self => ?_⟩
      simp [Channel.setRevent, reportFor]
  | cons event rest ih =>
      obtain ⟨revents, self⟩ := event
      simp only [fillActiveChannels] at h
      split_ifs at h with hfound
      obtain ⟨⟨t, active⟩, hrest, heq⟩ := Option.bind_eq_some_iff.mp h
      cases heq
      obtain ⟨hpoller, hactive, hchannels⟩ := ih hrest
      refine ⟨hpoller, congrArg (self :: ·) hactive, fun other => ?_⟩
      rw [hchannels other]
      by_cases hself : other = self
      · subst hself
        simp [setChannel, Channel.setRevent, reportFor, BitVec.or_assoc]
      · simp [setChannel, Channel.setRevent, reportFor, hself, Ne.symm hself]

/-- What `fillActiveChannels` asserts of a reported channel. -/
def Found (s : ChannelSet ι) (self : ι) : Prop :=
  s.poller.channels_ (s.channels self).fd_ = some self

theorem found_setRevent {s : ChannelSet ι} {self other : ι} {revents : BitVec 32} :
    (s.setChannel self ((s.channels self).setRevent revents)).Found other ↔ s.Found other := by
  by_cases hsame : other = self
  · subst hsame
    simp [Found, setChannel, Channel.setRevent]
  · simp [Found, setChannel, Function.update_of_ne hsame]

theorem fillActiveChannels_isSome {s : ChannelSet ι} {events : List (BitVec 32 × ι)} :
    (s.fillActiveChannels events).isSome = true ↔ ∀ event ∈ events, s.Found event.2 := by
  induction events generalizing s with
  | nil => simp [fillActiveChannels]
  | cons event rest ih =>
      rw [List.forall_mem_cons]
      by_cases hfound : s.Found event.2
      · simp only [fillActiveChannels, if_pos (show _ = _ from hfound), hfound, true_and]
        have hrest := ih (s := s.setChannel event.2 ((s.channels event.2).setRevent event.1))
        simp only [found_setRevent] at hrest
        rw [← hrest]
        cases fillActiveChannels _ rest <;> simp
      · simp only [fillActiveChannels, if_neg (show ¬(_ = _) from hfound), hfound]
        simp

theorem round_isSome {s : ChannelSet ι} {events : List (BitVec 32 × ι)} :
    (s.round events).isSome = true ↔ ∀ event ∈ events, s.Found event.2 := by
  rw [← fillActiveChannels_isSome, round]
  cases s.fillActiveChannels events <;> simp

theorem round_spec {s s' : ChannelSet ι} {events : List (BitVec 32 × ι)}
    {log : List (ι × List Channel.Callback)} (h : s.round events = some (s', log)) :
    s'.poller = s.poller ∧
      (∀ self, s'.channels self = (s.channels self).setRevent (reportFor self events)) ∧
      log = events.map fun event =>
        (event.2, ((s.channels event.2).setRevent (reportFor event.2 events)).handleEvent) := by
  obtain ⟨⟨t, activeChannels⟩, hfill, heq⟩ := Option.bind_eq_some_iff.mp h
  cases heq
  obtain ⟨hpoller, rfl, hchannels⟩ := fillActiveChannels_spec hfill
  refine ⟨hpoller, hchannels, ?_⟩
  simp [hchannels, Function.comp_def]

end ChannelSet

end MuduoRpc

import MuduoRpc.Lib.Transition
import MuduoRpc.Net.ChannelSet

/-!
Channels from construction to destruction, with the loop forwarding to its
poller. Up to its destruction a channel is removed once for every time it was
registered. The destructor, on the loop thread, removes it again.
-/

namespace MuduoRpc

/-- `log` records the registrations, the calls of `Poller::removeChannel`, and
whose entry each of them erased; `aborted` means that an assertion has failed. -/
inductive Removal.Event (ι : Type)
  | registered (self : ι)
  | removeChannel (self : ι)
  | erased (self owner : ι)
deriving DecidableEq, Repr

structure Removal (ι : Type) extends ChannelSet ι where
  destroyed : ι → Bool
  aborted : Bool
  log : List (Removal.Event ι)

namespace Removal

variable {ι : Type}

inductive Action (ι : Type)
  | setInterest (self : ι) (interest : Channel.Interest)
  | remove (self : ι)
  | destroy (self : ι)
deriving DecidableEq, Repr

def Action.channel : Action ι → ι
  | .setInterest self _ | .remove self | .destroy self => self

/-- Channels that have been constructed; two of them may have one descriptor. -/
def new (fd : ι → Nat) : Removal ι :=
  { ChannelSet.new fd with
    destroyed := fun _ => false
    aborted := false
    log := [] }

def abort (s : Removal ι) : Removal ι := { s with aborted := true }

variable [DecidableEq ι]

/-- `Channel::update()` for one of the operations on the interest. -/
def update (s : Removal ι) (self : ι) (interest : Channel.Interest) : Removal ι :=
  match s.poller.setInterest self (s.channels self) interest with
  | some (poller, channel) =>
      { s with
        poller := poller
        channels := Function.update s.channels self channel
        log :=
          if (s.channels self).index_ = Kstate.KNew then s.log ++ [.registered self]
          else s.log }
  | none => s.abort

/-- The call of `Poller::removeChannel`. -/
def removeChannel (s : Removal ι) (self : ι) (channel : Channel) : Removal ι :=
  let s := { s with log := s.log ++ [Event.removeChannel self] }
  match s.poller.removeChannel self channel with
  | some (poller, channel') =>
      { s with
        poller := poller
        channels := Function.update s.channels self channel'
        log := s.log ++ ((s.poller.channels_ channel.fd_).map (Event.erased self)).toList }
  | none => s.abort

def remove (s : Removal ι) (self : ι) : Removal ι :=
  let channel := s.channels self
  if channel.isNoneEvent then s.removeChannel self { channel with addedToLoop_ := false }
  else s.abort

/-- `~Channel` on the loop thread. -/
def destroy (s : Removal ι) (self : ι) : Removal ι :=
  let s := { s with destroyed := Function.update s.destroyed self true }
  let channel := s.channels self
  if channel.addedToLoop_ then s.abort
  else s.removeChannel self channel

def next (s : Removal ι) (action : Action ι) : Option (Removal ι) :=
  if s.aborted ∨ s.destroyed action.channel then none
  else match action with
    | .setInterest self interest => some (s.update self interest)
    | .remove self => some (s.remove self)
    | .destroy self => some (s.destroy self)

def system : Transition.System (Removal ι) (Action ι) where
  init s := ∃ fd, s = new fd
  next := next

/-- What the removals of a channel should look like. -/
structure RemovedOnce (s : Removal ι) (c : ι) : Prop where
  once : s.log.count (.removeChannel c) = s.log.count (.registered c)
  asserted : s.aborted = false
  own : ∀ owner, .erased c owner ∈ s.log → owner = c

/-- As long as no assertion has failed, a channel is marked as added, has an index
and is listed all at once, and its removals are one behind its registrations
exactly while it is. -/
structure Invariant (s : Removal ι) : Prop where
  marked : ∀ c, (s.channels c).addedToLoop_ = true ↔ (s.channels c).index_ ≠ Kstate.KNew
  listed : ∀ fd c, s.poller.channels_ fd = some c ↔
    (s.channels c).fd_ = fd ∧ (s.channels c).index_ ≠ Kstate.KNew
  counted : ∀ c, s.log.count (.registered c) = s.log.count (.removeChannel c) +
    if (s.channels c).index_ = Kstate.KNew then 0 else 1
  own : ∀ c owner, .erased c owner ∈ s.log → owner = c

theorem invariant_new (fd : ι → Nat) : Invariant (new fd) := by
  constructor
  · intro c
    simp [new, ChannelSet.new, Channel.new, Kstate.KNew]
  · intro fd' c
    simp [new, ChannelSet.new, Channel.new, Poller.new, Kstate.KNew]
  · intro c
    simp [new, ChannelSet.new, Channel.new, Kstate.KNew]
  · intro c owner herased
    cases herased

/-- A step on one channel keeps the invariant if, before and after it, no other
channel is listed under the descriptor. -/
theorem Invariant.put {s : Removal ι} (h : Invariant s) {self : ι} {poller : Poller ι}
    {channel : Channel} {log : List (Event ι)}
    (hfd : channel.fd_ = (s.channels self).fd_)
    (hmarked : channel.addedToLoop_ = true ↔ channel.index_ ≠ Kstate.KNew)
    (hframe : ∀ fd, fd ≠ (s.channels self).fd_ →
      poller.channels_ fd = s.poller.channels_ fd)
    (hbefore : ∀ c, s.poller.channels_ (s.channels self).fd_ = some c → c = self)
    (hlisted : poller.channels_ (s.channels self).fd_ =
      if channel.index_ = Kstate.KNew then none else some self)
    (hself : log.count (.registered self) = log.count (.removeChannel self) +
      if channel.index_ = Kstate.KNew then 0 else 1)
    (hothers : ∀ c, c ≠ self → log.count (.registered c) = s.log.count (.registered c) ∧
      log.count (.removeChannel c) = s.log.count (.removeChannel c))
    (hown : ∀ c owner, .erased c owner ∈ log → owner = c) :
    Invariant { s with
      poller := poller
      channels := Function.update s.channels self channel
      log := log } := by
  constructor
  · intro c
    by_cases hc : c = self
    · subst hc
      simpa only [Function.update_self] using hmarked
    · simpa only [Function.update_of_ne hc] using h.marked c
  · intro fd c
    by_cases hc : c = self
    · subst hc
      simp only [Function.update_self, hfd]
      by_cases hsame : fd = (s.channels c).fd_
      · subst hsame
        rw [hlisted]
        split_ifs with hnew <;> simp [hnew]
      · rw [hframe fd hsame, h.listed fd c]
        simp [Ne.symm hsame]
    · simp only [Function.update_of_ne hc]
      by_cases hsame : fd = (s.channels self).fd_
      · subst hsame
        rw [hlisted, ← h.listed]
        constructor
        · intro hself'
          split_ifs at hself'
          exact absurd (Option.some.inj hself').symm hc
        · intro hc'
          exact absurd (hbefore c hc') hc
      · rw [hframe fd hsame, h.listed fd c]
  · intro c
    by_cases hc : c = self
    · subst hc
      simpa only [Function.update_self] using hself
    · simp only [Function.update_of_ne hc]
      rw [(hothers c hc).1, (hothers c hc).2]
      exact h.counted c
  · exact hown

theorem update_invariant {s : Removal ι} (h : Invariant s) (self : ι)
    (interest : Channel.Interest) (haborted : (s.update self interest).aborted = false) :
    Invariant (s.update self interest) := by
  rw [update] at haborted ⊢
  cases hset : s.poller.setInterest self (s.channels self) interest with
  | none =>
      rw [hset] at haborted
      cases haborted
  | some out =>
      obtain ⟨poller, channel⟩ := out
      obtain ⟨⟨hfd, hadded, hindex⟩, hasserted, hlisted, hframe⟩ :=
        Poller.setInterest_listed hset
      apply h.put hfd
      · simp [hadded, hindex]
      · exact hframe
      · intro c hc
        rw [hasserted] at hc
        split_ifs at hc
        exact (Option.some.inj hc).symm
      · rw [hlisted, if_neg hindex]
      · have hcounted := h.counted self
        rw [if_neg hindex]
        split_ifs at hcounted ⊢
        · simp [hcounted]
        · exact hcounted
      · intro c hc
        split_ifs
        · simp [Ne.symm hc]
        · exact ⟨rfl, rfl⟩
      · intro c owner herased
        split_ifs at herased
        · exact h.own c owner (by simpa using herased)
        · exact h.own c owner herased

/-- A call of `removeChannel` either fails an assertion or removes the channel, which
was the one listed. -/
theorem removeChannel_invariant {s : Removal ι} (h : Invariant s) (self : ι)
    {channel : Channel} (hfd : channel.fd_ = (s.channels self).fd_)
    (hmarked : channel.addedToLoop_ = false)
    (haborted : (s.removeChannel self channel).aborted = false) :
    Invariant (s.removeChannel self channel) := by
  rw [removeChannel] at haborted ⊢
  cases hremove : s.poller.removeChannel self channel with
  | none =>
      simp only [hremove] at haborted
      cases haborted
  | some out =>
      obtain ⟨poller, channel'⟩ := out
      have hframe (fd : Nat) (hne : fd ≠ channel.fd_) :=
        (Poller.removeChannel_frame hremove hne).1
      obtain ⟨rfl, hlisted, hpoller⟩ := Poller.removeChannel_cases hremove
      have hnone : poller.channels_ channel.fd_ = none := by
        rcases hpoller with rfl | hdel
        · exact Function.update_self ..
        · rw [(Poller.update_frame hdel).1]
          exact Function.update_self ..
      have hregistered : (s.channels self).index_ ≠ Kstate.KNew :=
        ((h.listed _ self).mp (hfd ▸ hlisted)).2
      rw [hlisted, Option.map_some, Option.toList_some]
      apply h.put (by exact hfd)
      · simp [Channel.setIndex, hmarked]
      · rwa [← hfd]
      · intro c hc
        rw [← hfd, hlisted] at hc
        exact (Option.some.inj hc).symm
      · rw [← hfd, hnone]
        rfl
      · have hcounted := h.counted self
        rw [if_neg hregistered] at hcounted
        simp [hcounted, Channel.setIndex]
      · intro c hc
        simp [Ne.symm hc]
      · intro c owner herased
        simp only [List.mem_append, List.mem_singleton, reduceCtorEq, or_false,
          Event.erased.injEq] at herased
        rcases herased with herased | ⟨rfl, rfl⟩
        · exact h.own c owner herased
        · rfl

theorem remove_invariant {s : Removal ι} (h : Invariant s) (self : ι)
    (haborted : (s.remove self).aborted = false) : Invariant (s.remove self) := by
  simp only [remove] at haborted ⊢
  split_ifs at haborted ⊢
  · exact removeChannel_invariant h self rfl rfl haborted
  · cases haborted

theorem update_destroyed (s : Removal ι) (self : ι) (interest : Channel.Interest) :
    (s.update self interest).destroyed = s.destroyed := by
  rw [update]
  split <;> rfl

theorem remove_destroyed (s : Removal ι) (self : ι) :
    (s.remove self).destroyed = s.destroyed := by
  simp only [remove, removeChannel]
  split_ifs
  · split <;> rfl
  · rfl

/-- The destructor finds a channel that is marked as added, or one that is not
listed any more. -/
theorem destroy_aborted {s : Removal ι} (h : Invariant s) (self : ι) :
    (s.destroy self).aborted = true := by
  simp only [destroy]
  split_ifs with hadded
  · rfl
  · have hunlisted : s.poller.channels_ (s.channels self).fd_ ≠ some self := by
      intro hlisted
      exact hadded ((h.marked self).mpr ((h.listed _ self).mp hlisted).2)
    have hfail : s.poller.removeChannel self (s.channels self) = none := by
      simp only [Poller.removeChannel, hunlisted, false_and, if_false]
    simp only [removeChannel, hfail]
    rfl

theorem invariant {s : Removal ι} (h : system.Reachable s) :
    (s.aborted = false → Invariant s) ∧ ∀ c, s.destroyed c = true → s.aborted = true := by
  apply h.invariant (I := fun s =>
    (s.aborted = false → Invariant s) ∧ ∀ c, s.destroyed c = true → s.aborted = true)
  · rintro _ ⟨fd, rfl⟩
    exact ⟨fun _ => invariant_new fd, fun c hdestroyed => by cases hdestroyed⟩
  · rintro s action s' ⟨hi, hdestroyed⟩ _ hnext
    simp only [system, next] at hnext
    split_ifs at hnext with hended
    rw [not_or] at hended
    have halive := Bool.eq_false_of_not_eq_true hended.1
    have hnone (c : ι) (hc : s.destroyed c = true) : False := hended.1 (hdestroyed c hc)
    cases action with
    | setInterest self interest =>
        cases hnext
        refine ⟨update_invariant (hi halive) self interest, fun c hc => ?_⟩
        rw [update_destroyed] at hc
        exact (hnone c hc).elim
    | remove self =>
        cases hnext
        refine ⟨remove_invariant (hi halive) self, fun c hc => ?_⟩
        rw [remove_destroyed] at hc
        exact (hnone c hc).elim
    | destroy self =>
        cases hnext
        have haborted := destroy_aborted (hi halive) self
        refine ⟨fun hfalse => ?_, fun _ _ => haborted⟩
        rw [haborted] at hfalse
        cases hfalse

/-- A channel that is not registered now was removed once for each registration. -/
theorem removedOnce_of_unregistered {s : Removal ι} (h : system.Reachable s)
    (haborted : s.aborted = false) {c : ι} (hindex : (s.channels c).index_ = Kstate.KNew) :
    s.RemovedOnce c := by
  have hi := (invariant h).1 haborted
  have hcounted := hi.counted c
  rw [if_pos hindex, Nat.add_zero] at hcounted
  exact ⟨hcounted.symm, haborted, hi.own c⟩

/-- No channel that was destroyed was removed once for each registration. -/
theorem not_removedOnce_of_destroyed {s : Removal ι} (h : system.Reachable s) {c : ι}
    (hdestroyed : s.destroyed c = true) : ¬s.RemovedOnce c := by
  intro honce
  have haborted := (invariant h).2 c hdestroyed
  rw [honce.asserted] at haborted
  cases haborted

/-- A channel that was registered and removed. -/
theorem not_removedOnce_of_destroyed_removed :
    ∃ s : Removal Unit, system.Reachable s ∧ s.destroyed () = true ∧ ¬s.RemovedOnce () := by
  obtain ⟨s, hreach, hdestroyed⟩ : ∃ s : Removal Unit, system.Reachable s ∧
      s.destroyed () = true :=
    Transition.System.exists_of_exec _ (new fun _ => 5)
      [.setInterest () .enableReading, .setInterest () .disableall, .remove (), .destroy ()]
      ⟨_, rfl⟩ (by decide)
  exact ⟨s, hreach, hdestroyed, not_removedOnce_of_destroyed hreach hdestroyed⟩

/-- The descriptor is handed over to a second channel between the removal and the
destruction: the second call for the first channel finds the entry of the other. -/
theorem destroyed_after_hand_over :
    ∃ s : Removal Bool, system.Reachable s ∧ s.destroyed true = true ∧ s.aborted = true ∧
      s.poller.channels_ 5 = some false ∧ s.log.count (.registered true) = 1 ∧
      s.log.count (.removeChannel true) = 2 ∧ ¬s.RemovedOnce true := by
  obtain ⟨s, hreach, hdestroyed, haborted, hlisted, hregistered, hremoved⟩ :
      ∃ s : Removal Bool, system.Reachable s ∧ s.destroyed true = true ∧ s.aborted = true ∧
        s.poller.channels_ 5 = some false ∧ s.log.count (.registered true) = 1 ∧
        s.log.count (.removeChannel true) = 2 :=
    Transition.System.exists_of_exec _ (new fun _ => 5)
      [.setInterest true .enableWriting, .setInterest true .disableall, .remove true,
        .setInterest false .enableReading, .destroy true]
      ⟨_, rfl⟩ (by decide)
  refine ⟨s, hreach, hdestroyed, haborted, hlisted, hregistered, hremoved, fun honce => ?_⟩
  have hcounts := honce.once
  rw [hregistered, hremoved] at hcounts
  cases hcounts

end Removal

end MuduoRpc

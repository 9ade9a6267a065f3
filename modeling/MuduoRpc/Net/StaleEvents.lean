import MuduoRpc.Net.ChannelSet

/-!
Whether a round of `poll` and `handleEvent` depends on earlier rounds.
`setRevent` adds the reported flags to `revents_` and nothing clears them, so
`handleEvent` tests every flag reported since the channel was made.
-/

namespace MuduoRpc

open Flags Poll

namespace Channel

/-- The events of a callback's kind. -/
def kind : Callback → BitVec 32
  | .closeCallback_ => POLLHUP
  | .readCallback_ => POLLIN ||| POLLPRI ||| POLLRDHUP
  | .errorCallback_ => POLLERR ||| POLLNVAL
  | .writeCallback_ => POLLOUT

theorem has_kind_of_wants {revents : BitVec 32} {callback : Callback}
    (h : wants revents callback = true) : has revents (kind callback) = true := by
  cases callback with
  | closeCallback_ => exact (Bool.and_eq_true_iff.mp h).1
  | readCallback_ => exact h
  | errorCallback_ => exact h
  | writeCallback_ => exact h

/-- The flags of earlier rounds do not change the test for the callback. A
hang-up is the case of its own: an old `POLLIN` hides it, an old `POLLHUP`
repeats it. -/
def Harmless (earlier now : BitVec 32) : Callback → Prop
  | .closeCallback_ => has now POLLIN = true ∨
      if has now POLLHUP = true then has earlier POLLIN = false
      else wants earlier .closeCallback_ = false
  | callback => wants earlier callback = true → wants now callback = true

theorem harmless_iff {earlier now : BitVec 32} {callback : Callback} :
    Harmless earlier now callback ↔ wants (earlier ||| now) callback = wants now callback := by
  cases callback with
  | closeCallback_ =>
      simp only [Harmless, wants, has_or]
      cases has earlier POLLIN <;> cases has earlier POLLHUP <;> cases has now POLLIN <;>
        cases has now POLLHUP <;> decide
  | readCallback_ =>
      simp only [Harmless, wants, has_or]
      cases has earlier _ <;> cases has now _ <;> decide
  | errorCallback_ =>
      simp only [Harmless, wants, has_or]
      cases has earlier _ <;> cases has now _ <;> decide
  | writeCallback_ =>
      simp only [Harmless, wants, has_or]
      cases has earlier _ <;> cases has now _ <;> decide

instance (earlier now : BitVec 32) (callback : Callback) :
    Decidable (Harmless earlier now callback) :=
  decidable_of_iff _ harmless_iff.symm

theorem handleEvent_congr {c c' : Channel} (hcallbacks : c'.callbacks = c.callbacks) :
    c'.handleEvent = c.handleEvent ↔
      ∀ callback ∈ c.callbacks, wants c'.revents_ callback = wants c.revents_ callback := by
  constructor
  · intro hsame callback hset
    have hmem := congrArg (callback ∈ ·) hsame
    simp only [mem_handleEvent, hcallbacks, hset, and_true, eq_iff_iff] at hmem
    exact Bool.eq_iff_iff.mpr hmem
  · intro hsame
    simp only [handleEvent, hcallbacks]
    refine List.filter_congr fun callback _ => ?_
    by_cases hset : callback ∈ c.callbacks
    · rw [hsame callback hset]
    · simp [hset]

theorem handleEvent_setRevent {c : Channel} {revents : BitVec 32} :
    (c.setRevent revents).handleEvent = { c with revents_ := revents }.handleEvent ↔
      ∀ callback ∈ c.callbacks, Harmless c.revents_ revents callback := by
  simp only [harmless_iff]
  exact handleEvent_congr rfl

end Channel

namespace ChannelSet

open Channel

variable {ι : Type}

inductive Action (ι : Type)
  | setCallback (self : ι) (callback : Callback)
  | setInterest (self : ι) (interest : Interest)
  | removeChannel (self : ι)
  | round (events : List (BitVec 32 × ι))
deriving DecidableEq, Repr

/-- The same action with nothing reported. -/
def Action.unreported : Action ι → Action ι
  | .round _ => .round []
  | action => action

/-- Two histories that differ only in the events reported. -/
def DifferInReports (history history' : List (Action ι)) : Prop :=
  history.map Action.unreported = history'.map Action.unreported

/-- The channel as it would be had nothing ever been reported for it. -/
def forget (s : ChannelSet ι) : ChannelSet ι :=
  { s with channels self := { s.channels self with revents_ := 0 } }

variable [DecidableEq ι]

def next (s : ChannelSet ι) : Action ι → Option (ChannelSet ι)
  | .setCallback self callback =>
      some (s.setChannel self ((s.channels self).setCallback callback))
  | .setInterest self interest => s.setInterest self interest
  | .removeChannel self => s.removeChannel self
  | .round events => (s.round events).map Prod.fst

def run (s : ChannelSet ι) : List (Action ι) → Option (ChannelSet ι)
  | [] => some s
  | action :: rest => do
      let s ← s.next action
      s.run rest

/-- What a channel runs in the round that follows a history: one list for each
time `handleEvent` is called on it. -/
def runs (fd : ι → Nat) (history : List (Action ι)) (events : List (BitVec 32 × ι)) (self : ι) :
    Option (List (List Callback)) := do
  let s ← (new fd).run history
  let (_, log) ← s.round events
  some ((log.filter fun entry => entry.1 = self).map Prod.snd)

/-- The flags reported for a channel by an action. -/
def Action.report (self : ι) : Action ι → BitVec 32
  | .round events => reportFor self events
  | _ => 0

/-- The flags reported for a channel in all the rounds of a history. -/
def earlier (self : ι) (history : List (Action ι)) : BitVec 32 :=
  history.foldl (fun flags action => flags ||| action.report self) 0

/-- The callbacks of the round depend on the events that this round reports for
the channel and on nothing reported earlier, and each of them was run for an event
of its kind. -/
structure NoStaleEvents (fd : ι → Nat) (history : List (Action ι))
    (events : List (BitVec 32 × ι)) (channel : ι) : Prop where
  determined : runs fd history events channel =
    runs fd (history.map Action.unreported) (events.filter fun event => event.2 = channel) channel
  kinds : ∀ callbacks, runs fd history events channel = some callbacks →
    ∀ called ∈ callbacks, ∀ callback ∈ called,
      has (reportFor channel events) (kind callback) = true

theorem next_revents {s s' : ChannelSet ι} {action : Action ι} (h : s.next action = some s')
    (self : ι) :
    (s'.channels self).revents_ = (s.channels self).revents_ ||| action.report self := by
  have hupdate (changed : ι) (channel : Channel)
      (hsame : channel.revents_ = (s.channels changed).revents_) :
      (Function.update s.channels changed channel self).revents_ =
        (s.channels self).revents_ ||| 0 := by
    rw [show (s.channels self).revents_ ||| 0 = _ from BitVec.or_zero]
    by_cases hself : self = changed
    · subst hself
      rw [Function.update_self, hsame]
    · rw [Function.update_of_ne hself]
  cases action with
  | setCallback changed callback =>
      cases h
      exact hupdate changed _ rfl
  | setInterest changed interest =>
      obtain ⟨⟨poller, channel⟩, hset, heq⟩ := Option.bind_eq_some_iff.mp h
      cases heq
      obtain ⟨_, index, _, rfl⟩ := Poller.updateChannel_cases hset
      refine hupdate changed _ ?_
      cases interest <;> rfl
  | removeChannel changed =>
      obtain ⟨⟨poller, channel⟩, hremove, heq⟩ := Option.bind_eq_some_iff.mp h
      cases heq
      obtain ⟨rfl, _⟩ := Poller.removeChannel_cases hremove
      exact hupdate changed _ rfl
  | round events =>
      obtain ⟨⟨t, log⟩, hround, rfl⟩ := Option.map_eq_some_iff.mp h
      obtain ⟨_, hchannels, _⟩ := round_spec hround
      rw [hchannels self]
      rfl

theorem forget_update (poller : Poller ι) (channels : ι → Channel) (changed : ι)
    (channel : Channel) :
    forget ⟨poller, Function.update channels changed channel⟩ =
      ⟨poller, Function.update (forget ⟨poller, channels⟩).channels changed
        { channel with revents_ := 0 }⟩ := by
  simp only [forget, mk.injEq, true_and]
  funext self
  by_cases hself : self = changed
  · subst hself
    rw [Function.update_self, Function.update_self]
  · rw [Function.update_of_ne hself, Function.update_of_ne hself]

/-- Without the reports every step but a round is the same, and a round has
nothing to assert. -/
theorem next_forget {s s' : ChannelSet ι} {action : Action ι} (h : s.next action = some s') :
    s.forget.next action.unreported = some s'.forget := by
  cases action with
  | setCallback changed callback =>
      cases h
      rw [setChannel, forget_update]
      rfl
  | setInterest changed interest =>
      obtain ⟨⟨poller, channel⟩, hset, heq⟩ := Option.bind_eq_some_iff.mp h
      cases heq
      have hforget : s.poller.setInterest changed (s.forget.channels changed) interest =
          some (poller, { channel with revents_ := 0 }) := by
        simp only [forget, Poller.setInterest_revents, hset, Option.map_some]
      rw [forget_update]
      exact Option.bind_eq_some_iff.mpr ⟨_, hforget, rfl⟩
  | removeChannel changed =>
      obtain ⟨⟨poller, channel⟩, hremove, heq⟩ := Option.bind_eq_some_iff.mp h
      cases heq
      have hforget : s.poller.removeChannel changed (s.forget.channels changed) =
          some (poller, { channel with revents_ := 0 }) := by
        simp only [forget, Poller.removeChannel_revents, hremove, Option.map_some]
      rw [forget_update]
      exact Option.bind_eq_some_iff.mpr ⟨_, hforget, rfl⟩
  | round events =>
      obtain ⟨⟨t, log⟩, hround, rfl⟩ := Option.map_eq_some_iff.mp h
      obtain ⟨hpoller, hchannels, _⟩ := round_spec hround
      have hsame : t.forget = s.forget := by
        simp only [forget, hpoller, hchannels, Channel.setRevent]
      rw [hsame]
      rfl

theorem run_revents {s s' : ChannelSet ι} {history : List (Action ι)}
    (h : s.run history = some s') (self : ι) :
    (s'.channels self).revents_ = history.foldl
      (fun flags action => flags ||| action.report self) (s.channels self).revents_ := by
  induction history generalizing s with
  | nil =>
      cases h
      rfl
  | cons action rest ih =>
      obtain ⟨t, hnext, hrest⟩ := Option.bind_eq_some_iff.mp h
      rw [ih hrest, next_revents hnext]
      rfl

theorem run_forget {s s' : ChannelSet ι} {history : List (Action ι)}
    (h : s.run history = some s') :
    s.forget.run (history.map Action.unreported) = some s'.forget := by
  induction history generalizing s with
  | nil =>
      cases h
      rfl
  | cons action rest ih =>
      obtain ⟨t, hnext, hrest⟩ := Option.bind_eq_some_iff.mp h
      exact Option.bind_eq_some_iff.mpr ⟨t.forget, next_forget hnext, ih hrest⟩

/-- What the round runs for a channel: as often as the channel was reported, the
callbacks for the earlier flags and those of the round. -/
theorem runs_eq {fd : ι → Nat} {history : List (Action ι)} {events : List (BitVec 32 × ι)}
    {s : ChannelSet ι} (hrun : (new fd).run history = some s)
    (hround : (s.round events).isSome = true) (self : ι) :
    runs fd history events self = some (List.replicate (events.countP fun event => event.2 = self)
      ((s.channels self).setRevent (reportFor self events)).handleEvent) := by
  obtain ⟨⟨t, log⟩, hs⟩ := Option.isSome_iff_exists.mp hround
  obtain ⟨_, _, rfl⟩ := round_spec hs
  have hruns : runs fd history events self = some _ :=
    Option.bind_eq_some_iff.mpr ⟨s, hrun, Option.bind_eq_some_iff.mpr ⟨_, hs, rfl⟩⟩
  rw [hruns, Option.some.injEq]
  rw [List.eq_replicate_iff]
  constructor
  · rw [List.length_map, ← List.countP_eq_length_filter, List.countP_map]
    rfl
  · intro called hcalled
    obtain ⟨entry, hentry, rfl⟩ := List.mem_map.mp hcalled
    obtain ⟨hlogged, hself⟩ := List.mem_filter.mp hentry
    obtain ⟨event, _, rfl⟩ := List.mem_map.mp hlogged
    rw [← of_decide_eq_true hself]

theorem reportFor_filter (self : ι) (events : List (BitVec 32 × ι)) :
    reportFor self (events.filter fun event => event.2 = self) = reportFor self events := by
  induction events with
  | nil => rfl
  | cons event rest ih =>
      by_cases hself : event.2 = self
      · rw [List.filter_cons_of_pos (by simpa using hself)]
        simp only [reportFor, List.foldr_cons, if_pos hself]
        exact congrArg (event.1 ||| ·) ih
      · rw [List.filter_cons_of_neg (by simpa using hself), ih]
        simp only [reportFor, List.foldr_cons, if_neg hself]

/-- Had nothing been reported earlier, the channel would run the callbacks for the
flags of this round. -/
theorem runs_unreported {fd : ι → Nat} {history : List (Action ι)}
    {events : List (BitVec 32 × ι)} {s : ChannelSet ι} (hrun : (new fd).run history = some s)
    (hround : (s.round events).isSome = true) (self : ι) :
    runs fd (history.map Action.unreported) (events.filter fun event => event.2 = self) self =
      some (List.replicate (events.countP fun event => event.2 = self)
        ({ s.channels self with revents_ := reportFor self events } : Channel).handleEvent) := by
  have hforget : (new fd).run (history.map Action.unreported) = some s.forget := run_forget hrun
  have hfound : (s.forget.round (events.filter fun event => event.2 = self)).isSome = true := by
    rw [round_isSome] at hround ⊢
    intro event hevent
    exact hround event (List.mem_of_mem_filter hevent)
  rw [runs_eq hforget hfound, reportFor_filter]
  simp [forget, Channel.setRevent, List.countP_filter]

/-- The round is free of stale events exactly when, for a channel that it reports, the
flags reported earlier change none of the tests. Any two histories of which that is
true run the same callbacks. -/
theorem noStaleEvents_iff {fd : ι → Nat} {history : List (Action ι)}
    {events : List (BitVec 32 × ι)} {s : ChannelSet ι} {self : ι}
    (hrun : (new fd).run history = some s) (hround : (s.round events).isSome = true) :
    (NoStaleEvents fd history events self ↔
        (self ∈ events.map Prod.snd → ∀ callback ∈ (s.channels self).callbacks,
          Harmless (earlier self history) (reportFor self events) callback)) ∧
      ∀ history', DifferInReports history history' → NoStaleEvents fd history events self →
        NoStaleEvents fd history' events self →
        runs fd history events self = runs fd history' events self := by
  have hrevents : (s.channels self).revents_ = earlier self history := run_revents hrun self
  have hnow := runs_eq hrun hround self
  have hclean := runs_unreported hrun hround self
  have hcount : events.countP (fun event => event.2 = self) = 0 ↔
      self ∉ events.map Prod.snd := by
    rw [List.countP_eq_zero, List.mem_map, not_exists]
    simp only [decide_eq_true_eq, not_and]
  rw [← hrevents, ← handleEvent_setRevent]
  constructor
  · constructor
    · intro h hself
      have heq := h.determined
      rw [hnow, hclean, Option.some.injEq, List.replicate_inj] at heq
      exact heq.2.resolve_left fun hzero => hcount.mp hzero hself
    · intro h
      constructor
      · rw [hnow, hclean, Option.some.injEq, List.replicate_inj]
        refine ⟨rfl, ?_⟩
        by_cases hself : self ∈ events.map Prod.snd
        · exact .inr (h hself)
        · exact .inl (hcount.mpr hself)
      · intro callbacks hcallbacks called hcalled callback hcallback
        cases hnow.symm.trans hcallbacks
        have hself : self ∈ events.map Prod.snd := by
          by_contra hnot
          rw [hcount.mpr hnot] at hcalled
          cases hcalled
        obtain rfl := List.eq_of_mem_replicate hcalled
        rw [h hself] at hcallback
        exact has_kind_of_wants (mem_handleEvent.mp hcallback).1
  · intro history' hdiffer h h'
    rw [h.determined, h'.determined, hdiffer]

/-- Read, then read again. -/
theorem noStaleEvents_iff_readable_twice :
    NoStaleEvents (fun _ : Unit => 7) [.setCallback () .readCallback_,
      .setInterest () .enableReading, .round [(POLLIN, ())]] [(POLLIN, ())] () := by
  obtain ⟨s, hrun, hround, hharmless⟩ : ∃ s, (new fun _ : Unit => 7).run
      [.setCallback () .readCallback_, .setInterest () .enableReading, .round [(POLLIN, ())]] =
        some s ∧ (s.round [(POLLIN, ())]).isSome = true ∧
      ∀ callback ∈ (s.channels ()).callbacks, Harmless POLLIN POLLIN callback :=
    ⟨_, rfl, by decide, by decide⟩
  exact (noStaleEvents_iff hrun hround).1.mpr fun _ => hharmless

/-- A hang-up after a readable round: the read callback runs in place of the close
callback. -/
theorem stale_readable :
    ¬NoStaleEvents (fun _ : Unit => 7) [.setCallback () .readCallback_,
      .setCallback () .closeCallback_, .setInterest () .enableReading, .round [(POLLIN, ())]]
      [(POLLHUP, ())] () ∧
    runs (fun _ : Unit => 7) [.setCallback () .readCallback_,
      .setCallback () .closeCallback_, .setInterest () .enableReading, .round [(POLLIN, ())]]
      [(POLLHUP, ())] () = some [[.readCallback_]] ∧
    runs (fun _ : Unit => 7) [.setCallback () .readCallback_,
      .setCallback () .closeCallback_, .setInterest () .enableReading, .round []]
      [(POLLHUP, ())] () = some [[.closeCallback_]] := by
  refine ⟨fun h => ?_, by decide, by decide⟩
  have hdetermined := h.determined
  revert hdetermined
  decide

end ChannelSet

end MuduoRpc

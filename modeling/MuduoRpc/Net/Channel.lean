import MuduoRpc.Lib.Flags

/-!
`Channel`: the events a descriptor is registered for, the events reported for
it, and the dispatch to the callbacks. The masks are `int`s, here words of 32
bits.
-/

namespace MuduoRpc

open Flags

namespace Poll

/-- The `poll(2)` bits, which the poller asserts to be those of `epoll(7)`. -/
def POLLIN : BitVec 32 := 0x1

def POLLPRI : BitVec 32 := 0x2

def POLLOUT : BitVec 32 := 0x4

def POLLERR : BitVec 32 := 0x8

def POLLHUP : BitVec 32 := 0x10

def POLLNVAL : BitVec 32 := 0x20

def POLLRDHUP : BitVec 32 := 0x2000

end Poll

namespace Channel

/-- The values of `Channel::EventTypes`. -/
def NoneEvent : BitVec 32 := 0

def ReadEvent : BitVec 32 := 1

def WriteEvernt : BitVec 32 := 2

inductive Callback
  | closeCallback_
  | readCallback_
  | errorCallback_
  | writeCallback_
deriving DecidableEq, Repr

end Channel

/-- `callbacks` are the callbacks that have been set. -/
structure Channel where
  fd_ : Nat
  events_ : BitVec 32
  revents_ : BitVec 32
  index_ : Int
  addedToLoop_ : Bool
  callbacks : List Channel.Callback
deriving DecidableEq, Repr

namespace Channel

open Poll

def new (fd : Nat) : Channel where
  fd_ := fd
  events_ := 0
  revents_ := 0
  index_ := -1
  addedToLoop_ := false
  callbacks := []

def setCallback (c : Channel) (callback : Callback) : Channel :=
  { c with callbacks := callback :: c.callbacks }

def setRevent (c : Channel) (revent : BitVec 32) : Channel :=
  { c with revents_ := c.revents_ ||| revent }

def setIndex (c : Channel) (index : Int) : Channel := { c with index_ := index }

def isNoneEvent (c : Channel) : Bool := c.events_ = NoneEvent

def isReading (c : Channel) : Bool := has c.events_ ReadEvent

def isWriting (c : Channel) : Bool := has c.events_ WriteEvernt

/-- The five operations that change `events_`. Each of them ends in
`update()`, which is the poller's part. -/
inductive Interest
  | enableReading
  | disenableReading
  | enableWriting
  | disableWriting
  | disableall
deriving DecidableEq, Repr

def setInterest (c : Channel) : Interest → Channel
  | .enableReading => { c with events_ := c.events_ ||| ReadEvent }
  | .disenableReading => { c with events_ := c.events_ &&& ~~~ReadEvent }
  | .enableWriting => { c with events_ := c.events_ ||| WriteEvernt }
  | .disableWriting => { c with events_ := c.events_ &&& ~~~WriteEvernt }
  | .disableall => { c with events_ := NoneEvent }

/-- The tests of `handleEvent`, in its order, on the reported events. -/
def wants (revents : BitVec 32) : Callback → Bool
  | .closeCallback_ => has revents POLLHUP && !has revents POLLIN
  | .readCallback_ => has revents (POLLIN ||| POLLPRI ||| POLLRDHUP)
  | .errorCallback_ => has revents (POLLERR ||| POLLNVAL)
  | .writeCallback_ => has revents POLLOUT

/-- The callbacks that `handleEvent` runs, in order. -/
def handleEvent (c : Channel) : List Callback :=
  [.closeCallback_, .readCallback_, .errorCallback_, .writeCallback_].filter
    fun callback => wants c.revents_ callback && c.callbacks.contains callback

theorem mem_handleEvent {c : Channel} {callback : Callback} :
    callback ∈ c.handleEvent ↔ wants c.revents_ callback = true ∧ callback ∈ c.callbacks := by
  simp only [handleEvent, List.mem_filter, Bool.and_eq_true, List.contains_iff_mem,
    and_iff_right_iff_imp]
  cases callback <;> simp

/-- Only the two low bits of `events_` are ever set. -/
def LowBits (events : BitVec 32) : Prop :=
  events = 0 ∨ events = 1 ∨ events = 2 ∨ events = 3

theorem lowBits_setInterest {c : Channel} (h : LowBits c.events_) (interest : Interest) :
    LowBits (c.setInterest interest).events_ := by
  obtain hevents | hevents | hevents | hevents := h <;> cases interest <;>
    simp [setInterest, hevents, LowBits, ReadEvent, WriteEvernt, NoneEvent]

end Channel

end MuduoRpc

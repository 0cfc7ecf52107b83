import TwoWayRadio.Client
import Mathlib.Data.List.AList

/-! The floor controller of a channel. Every function below is one critical section
of the channel's mutex. -/
namespace TwoWayRadio

/-- A timer started by `time.AfterFunc`. `fired` means that its duration has elapsed and
its handler may run at any later moment; `Stop` has no effect on such a timer. -/
structure Timer where
  fired : Bool := false
  stopped : Bool := false
  ran : Bool := false
deriving DecidableEq

/-- Armed, not stopped, and its handler has not run. -/
def Timer.live (t : Timer) : Bool := !t.stopped && !t.ran

def Timer.armed : Timer where
  fired := false

def Timer.stop (t : Timer) : Timer := { t with stopped := true }
def Timer.fire (t : Timer) : Timer := { t with fired := true }
def Timer.run (t : Timer) : Timer := { t with ran := true }

/-- `timers` lists every timer the channel has started; `totTimer` is a position in it. -/
structure Channel where
  definition : ChannelDef
  subscribers : AList (fun _ : ClientRef => Bool)
  activeSpeaker : Option ClientRef
  isBusy : Bool
  totDuration : ℤ
  totTimer : Option ℕ
  timers : List Timer

def newChannel (definition : ChannelDef) (tot : ℤ) : Channel where
  definition := definition
  subscribers := ∅
  activeSpeaker := none
  isBusy := false
  totDuration := tot
  totTimer := none
  timers := []

/-- What `RequestFloor` returns. -/
structure FloorReply where
  granted : Bool
  reason : String
  speaker : String
  preempted : Option ClientRef
deriving DecidableEq

namespace Channel

def addSubscriber (client : ClientRef) (c : Channel) : Channel :=
  { c with subscribers := c.subscribers.insert client true }

def cancelTOT (c : Channel) : Channel :=
  match c.totTimer with
  | some t => { c with timers := c.timers.modify t Timer.stop, totTimer := none }
  | none => c

/-- The guarded `time.AfterFunc` call of both grants. -/
def armTOT (c : Channel) : Channel :=
  if 0 < c.totDuration then
    { c with timers := c.timers ++ [Timer.armed], totTimer := some c.timers.length }
  else c

def removeSubscriber (client : ClientRef) (c : Channel) : Bool × Channel :=
  let c := { c with subscribers := c.subscribers.erase client }
  if c.activeSpeaker = some client then
    (true, { c.cancelTOT with activeSpeaker := none, isBusy := false })
  else (false, c)

def requestFloor (clients : Clients) (client : ClientRef) (c : Channel) : FloorReply × Channel :=
  match c.isBusy, c.activeSpeaker with
  | true, some speaker =>
    if speaker = client then (⟨true, "", "", none⟩, c)
    else if getPriority (clients client) > getPriority (clients speaker) then
      (⟨true, "preempted", (clients speaker).callsign, some speaker⟩,
        { c.cancelTOT with activeSpeaker := some client }.armTOT)
    else (⟨false, "channel_busy", (clients speaker).callsign, none⟩, c)
  | _, _ =>
    (⟨true, "", "", none⟩, { c with isBusy := true, activeSpeaker := some client }.cancelTOT.armTOT)

def releaseFloor (client : ClientRef) (c : Channel) : Bool × Channel :=
  if c.activeSpeaker = some client then
    (true, { c.cancelTOT with activeSpeaker := none, isBusy := false })
  else (false, c)

def forceReleaseFloor (c : Channel) : Option ClientRef × Channel :=
  (c.activeSpeaker, { c.cancelTOT with activeSpeaker := none, isBusy := false })

def isFloorHolder (client : ClientRef) (c : Channel) : Bool :=
  c.isBusy && c.activeSpeaker == some client

def getState (clients : Clients) (c : Channel) : Bool × String :=
  match c.isBusy, c.activeSpeaker with
  | true, some speaker => (true, (clients speaker).callsign)
  | _, _ => (false, "")

/-- The critical section of `handleTOT`; the speaker it returns goes to `onTOTExpire`. -/
def handleTOT (c : Channel) : Option ClientRef × Channel :=
  (c.activeSpeaker, { c with activeSpeaker := none, isBusy := false, totTimer := none })

/-- The runtime's part of a timer: its duration elapses unless it was stopped before. -/
def fireTimer (t : ℕ) (c : Channel) : Option Channel :=
  match c.timers[t]? with
  | some τ => if τ.fired || τ.stopped then none else
      some { c with timers := c.timers.modify t Timer.fire }
  | none => none

/-- The handler of timer `t` gets the mutex: any moment after the timer has fired, once. -/
def runTimer (t : ℕ) (c : Channel) : Option (Option ClientRef × Channel) :=
  match c.timers[t]? with
  | some τ => if τ.fired && !τ.ran then
      some { c with timers := c.timers.modify t Timer.run }.handleTOT else none
  | none => none

def subscriberCount (c : Channel) : ℕ := c.subscribers.entries.length

def getUserCallsigns (clients : Clients) (c : Channel) : List String :=
  c.subscribers.keys.map fun sub => (clients sub).callsign

def getSubscribersInfo (clients : Clients) (c : Channel) : List ChannelUserInfo :=
  c.subscribers.keys.map fun sub =>
    { id := (clients sub).id, callsign := (clients sub).callsign, role := (clients sub).role,
      location := (clients sub).location }

end Channel

end TwoWayRadio

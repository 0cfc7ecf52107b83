import TwoWayRadio.Channel
import TwoWayRadio.Recorder
import TwoWayRadio.Interleaving

/-! The hub's shared state and the mutex-protected calls its handlers are made of. -/
namespace TwoWayRadio

inductive QueueKind
  | highPri | send
deriving DecidableEq

inductive Frame
  | json (msg : Signal) (timestamp : ℤ)
  | binary (data : Bytes)
deriving DecidableEq

/-- What leaves the hub: a frame enqueued to a client, or a packet given to the RoIP relay. -/
inductive Delivery
  | enqueue (client : ClientRef) (queue : QueueKind) (frame : Frame)
  | relay (channelID : ChannelID) (data : Bytes)
deriving DecidableEq

abbrev ChannelMap := AList fun _ : ChannelID => Channel

/-- `heap` is what the client pointers point to, `now` the clock in nanoseconds, and `outbox`
everything delivered so far, oldest first. -/
structure Hub where
  config : Config
  channels : ChannelMap
  clients : AList fun _ : ClientRef => Bool
  clientsByID : String → Option ClientRef
  chatHistory : ChannelID → List (ChatMessagePayload Bytes)
  activeVideoByChannel : ChannelID → Option VideoSignalingPayload
  roipRelay : Bool
  recorder : Option AudioRecorder
  totalAudioBytes : UInt64
  totalTransmissions : UInt64
  totalPreemptions : UInt64
  heap : Clients
  now : ℤ
  outbox : List Delivery

def defaultChannelMap (cfg : Config) : ChannelMap :=
  cfg.defaultChannels.foldl (fun m d => m.insert d.id (newChannel d cfg.totDuration)) ∅

def newHub (cfg : Config) (recorder : Option AudioRecorder) (roipRelay : Bool) (heap : Clients)
    (now : ℤ) : Hub where
  config := cfg
  channels := defaultChannelMap cfg
  clients := ∅
  clientsByID := fun _ => none
  chatHistory := fun _ => []
  activeVideoByChannel := fun _ => none
  roipRelay := roipRelay
  recorder := recorder
  totalAudioBytes := 0
  totalTransmissions := 0
  totalPreemptions := 0
  heap := heap
  now := now
  outbox := []

/-- The calls of the hub's handlers. Each is one critical section of `h.mu`, of a channel's,
client's or recorder's mutex, one atomic counter update, or one access to the fields of the
handler's own client. The `nil` check of `h.recorder` is part of the recorder calls. -/
inductive HubOp
  -- h.mu
  | register (client : ClientRef) (first : ℕ)
  | unregister (client : ClientRef)
  | currentChannel (client : ClientRef)
  | lookupSwitch (client : ClientRef) (newChannelID : ChannelID)
  | lookupChannel (ch : ChannelID)
  | createChannel (p : CreateChannelPayload)
  | getChannelList
  | history (ch : ChannelID)
  | appendChat (client : ClientRef) (p : ChatMessagePayload Bytes)
  | appendVoice (ch : ChannelID) (p : ChatMessagePayload Bytes)
  | activeVideo (ch : ChannelID)
  | deleteVideo (ch : ChannelID)
  | startVideo (client : ClientRef) (p : VideoSignalingPayload)
  | endVideo (client : ClientRef)
  | clientByID (id : String)
  | broadcastAll (msg : Signal)
  | allCallAudio (sender : ClientRef) (data : Bytes)
  | getRelay
  -- channel mutex
  | addSubscriber (ch : ChannelID) (client : ClientRef)
  | removeSubscriber (ch : ChannelID) (client : ClientRef)
  | requestFloor (ch : ChannelID) (client : ClientRef)
  | releaseFloor (ch : ChannelID) (client : ClientRef)
  | isFloorHolder (ch : ChannelID) (client : ClientRef)
  | getState (ch : ChannelID)
  | getUserCallsigns (ch : ChannelID)
  | getSubscribersInfo (ch : ChannelID)
  | broadcastSignal (ch : ChannelID) (msg : Signal)
  | broadcastAudio (ch : ChannelID) (sender : Option ClientRef) (data : Bytes)
  | handleTOT (ch : ChannelID) (timer : ℕ)
  -- recorder mutex
  | onTransmissionStart (ch : ChannelID) (speaker : ClientRef)
  | appendAudio (ch : ChannelID) (payload : Bytes)
  | onTransmissionEnd (ch : ChannelID)
  -- client queues and fields
  | sendJSON (client : ClientRef) (msg : Signal)
  | sendPriorityJSON (client : ClientRef) (msg : Signal)
  | fields (client : ClientRef)
  | setCallsign (client : ClientRef) (callsign : String)
  | setRole (client : ClientRef) (role : String)
  | setLocation (client : ClientRef) (location : LocationPayload)
  | setCurrentChannel (client : ClientRef) (ch : ChannelID)
  -- counters, clock and relay
  | addTransmission
  | addPreemption
  | addAudioBytes (n : ℕ)
  | clock
  | relay (ch : ChannelID) (data : Bytes)

/-- What each call returns. -/
@[reducible] def HubOp.Res : HubOp → Type
  | register .. | unregister .. | currentChannel .. | appendChat .. | startVideo .. =>
    Option ChannelID
  | lookupSwitch .. => Option ChannelDef × Option ChannelID
  | lookupChannel .. => Bool
  | createChannel .. => ChannelID
  | getChannelList => List ChannelInfo
  | history .. => List (ChatMessagePayload Bytes) × Option VideoSignalingPayload
  | activeVideo .. => Option VideoSignalingPayload
  | endVideo .. => Option ChannelID × Option VideoSignalingPayload
  | clientByID .. => Option ClientRef
  | getRelay | removeSubscriber .. | releaseFloor .. | isFloorHolder .. => Bool
  | requestFloor .. => FloorReply
  | getState .. => Bool × String
  | getUserCallsigns .. => List String
  | getSubscribersInfo .. => List ChannelUserInfo
  | handleTOT .. => Option ClientRef
  | onTransmissionEnd .. => Option VoiceRecording
  | fields .. => Client
  | clock => ℤ
  | _ => Unit

namespace Hub

/-- `time.Now().UnixMilli()`. -/
def unixMilli (h : Hub) : ℤ := h.now / 1000000

def enqueueAll (clients : List ClientRef) (frame : Frame) (h : Hub) : Hub :=
  { h with outbox := h.outbox ++ clients.map fun c => .enqueue c .send frame }

def enqueue (client : ClientRef) (queue : QueueKind) (msg : Signal) (h : Hub) : Hub :=
  { h with outbox := h.outbox ++ [.enqueue client queue (.json msg h.unixMilli)] }

/-- A critical section of the mutex of channel `ch`, which exists once a handler has seen it. -/
def onChannel {α : Type} (ch : ChannelID) (absent : α) (f : Channel → α × Channel) (h : Hub) :
    α × Hub :=
  match h.channels.lookup ch with
  | none => (absent, h)
  | some c => ((f c).1, { h with channels := h.channels.insert ch (f c).2 })

def readChannel {α : Type} (ch : ChannelID) (absent : α) (f : Channel → α) (h : Hub) : α :=
  match h.channels.lookup ch with
  | none => absent
  | some c => f c

def subscribersOf (ch : ChannelID) (h : Hub) : List ClientRef :=
  h.readChannel ch [] fun c => c.subscribers.keys

def setClient (client : ClientRef) (c : Client) (h : Hub) : Hub :=
  { h with heap := Function.update h.heap client c }

def onRecorder {α : Type} (absent : α) (f : AudioRecorder → α × AudioRecorder) (h : Hub) :
    α × Hub :=
  match h.recorder with
  | none => (absent, h)
  | some r => ((f r).1, { h with recorder := some (f r).2 })

/-- `CurrentChannelID` of a client, if that channel exists. -/
def channelOf (client : ClientRef) (h : Hub) : Option ChannelID :=
  if (h.channels.lookup (h.heap client).currentChannelID).isSome then
    some (h.heap client).currentChannelID
  else none

/-- The last thirty entries of a channel's history. -/
def trimHistory (hist : List (ChatMessagePayload Bytes)) : List (ChatMessagePayload Bytes) :=
  if 30 < hist.length then hist.drop (hist.length - 30) else hist

def pushHistory (ch : ChannelID) (p : ChatMessagePayload Bytes) (h : Hub) : Hub :=
  { h with chatHistory :=
      Function.update h.chatHistory ch (trimHistory (h.chatHistory ch ++ [p])) }

/-- The loop that skips occupied IDs; `fuel` bounds it by the number of channels. -/
def nextFreeID (channels : ChannelMap) : ℕ → ChannelID → ChannelID
  | 0, id => id
  | fuel + 1, id =>
    if (channels.lookup id).isSome then nextFreeID channels fuel (id + 1) else id

def newChannelID (h : Hub) : ChannelID :=
  nextFreeID h.channels h.channels.entries.length (h.channels.entries.length + 1)

def newChannelDef (newID : ChannelID) (p : CreateChannelPayload) : ChannelDef where
  id := newID
  name := p.name
  frequency := 446 + newID * 0.0125
  ctcss := 100
  color := "#ffffff"
  isPrivate := p.isPrivate
  password := p.password

def channelInfo (h : Hub) (ch : Channel) : ChannelInfo where
  id := ch.definition.id
  name := ch.definition.name
  frequency := ch.definition.frequency
  ctcss := ch.definition.ctcss
  color := ch.definition.color
  latitude := ch.definition.latitude
  longitude := ch.definition.longitude
  coverageKm := ch.definition.coverageKm
  region := ch.definition.region
  userCount := ch.subscriberCount
  isBusy := (ch.getState h.heap).1
  isPrivate := ch.definition.isPrivate
  currentSpeaker := (ch.getState h.heap).2
  users := ch.getUserCallsigns h.heap

/-- The loop over the IDs 1 to `len(h.channels)`. -/
def getChannelList (h : Hub) : List ChannelInfo :=
  (List.range h.channels.entries.length).filterMap fun n =>
    (h.channels.lookup ((n : ℤ) + 1 : ChannelID)).map h.channelInfo

/-- The channel a new client is put on: its own, or any channel (`first` stands for the
order in which the map iteration happens to visit them). -/
def registrationChannel (client : ClientRef) (first : ℕ) (h : Hub) : Option ChannelID :=
  match h.channelOf client with
  | some ch => some ch
  | none => h.channels.keys[first % h.channels.keys.length]?

def register (client : ClientRef) (first : ℕ) (h : Hub) : Option ChannelID × Hub :=
  let ch := h.registrationChannel client first
  let h := { h with
    clients := h.clients.insert client true,
    clientsByID := Function.update h.clientsByID (h.heap client).id (some client) }
  match ch with
  | some id => (ch, h.setClient client { h.heap client with currentChannelID := id })
  | none => (ch, h)

def unregister (client : ClientRef) (h : Hub) : Option ChannelID × Hub :=
  (h.channelOf client, { h with
    clients := h.clients.erase client,
    clientsByID := Function.update h.clientsByID (h.heap client).id none })

end Hub

open Hub in
/-- The effect of each call on the shared state. -/
def HubOp.run : (op : HubOp) → Hub → op.Res × Hub
  | register client first, h => h.register client first
  | unregister client, h => h.unregister client
  | currentChannel client, h => (h.channelOf client, h)
  | lookupSwitch client newChannelID, h =>
    (((h.channels.lookup newChannelID).map fun c => c.definition, h.channelOf client), h)
  | lookupChannel ch, h => ((h.channels.lookup ch).isSome, h)
  | createChannel p, h =>
    (h.newChannelID, { h with
      channels := h.channels.insert h.newChannelID
        (newChannel (newChannelDef h.newChannelID p) h.config.totDuration) })
  | getChannelList, h => (h.getChannelList, h)
  | history ch, h => ((h.chatHistory ch, h.activeVideoByChannel ch), h)
  | appendChat client p, h =>
    (h.channelOf client, h.pushHistory (h.heap client).currentChannelID p)
  | appendVoice ch p, h => ((), h.pushHistory ch p)
  | activeVideo ch, h => (h.activeVideoByChannel ch, h)
  | deleteVideo ch, h =>
    ((), { h with activeVideoByChannel := Function.update h.activeVideoByChannel ch none })
  | startVideo client p, h =>
    (h.channelOf client, { h with
      activeVideoByChannel :=
        Function.update h.activeVideoByChannel (h.heap client).currentChannelID (some p) })
  | endVideo client, h =>
    let ch := (h.heap client).currentChannelID
    let video := h.activeVideoByChannel ch
    ((h.channelOf client, video),
      if video.any (fun v => v.senderID == (h.heap client).id) then
        { h with activeVideoByChannel := Function.update h.activeVideoByChannel ch none }
      else h)
  | clientByID id, h => (h.clientsByID id, h)
  | broadcastAll msg, h => ((), h.enqueueAll h.clients.keys (.json msg h.unixMilli))
  | allCallAudio sender data, h =>
    ((), h.enqueueAll (h.channels.entries.flatMap fun e =>
      e.2.subscribers.keys.filter (· ≠ sender)) (.binary data))
  | getRelay, h => (h.roipRelay, h)
  | addSubscriber ch client, h => h.onChannel ch () fun c => ((), c.addSubscriber client)
  | removeSubscriber ch client, h => h.onChannel ch false fun c => c.removeSubscriber client
  | requestFloor ch client, h =>
    h.onChannel ch ⟨false, "", "", none⟩ fun c => c.requestFloor h.heap client
  | releaseFloor ch client, h => h.onChannel ch false fun c => c.releaseFloor client
  | isFloorHolder ch client, h => (h.readChannel ch false fun c => c.isFloorHolder client, h)
  | getState ch, h => (h.readChannel ch (false, "") fun c => c.getState h.heap, h)
  | getUserCallsigns ch, h => (h.readChannel ch [] fun c => c.getUserCallsigns h.heap, h)
  | getSubscribersInfo ch, h => (h.readChannel ch [] fun c => c.getSubscribersInfo h.heap, h)
  | broadcastSignal ch msg, h =>
    ((), h.enqueueAll (h.subscribersOf ch) (.json msg h.unixMilli))
  | broadcastAudio ch sender data, h =>
    ((), h.enqueueAll ((h.subscribersOf ch).filter (some · ≠ sender)) (.binary data))
  | handleTOT ch timer, h =>
    h.onChannel ch none fun c => (c.runTimer timer).getD (none, c)
  | onTransmissionStart ch speaker, h =>
    h.onRecorder () fun r => ((), r.onTransmissionStart ch (h.heap speaker) h.now)
  | appendAudio ch payload, h => h.onRecorder () fun r => ((), r.appendAudio ch payload)
  | onTransmissionEnd ch, h => h.onRecorder none fun r => r.onTransmissionEnd ch h.now
  | sendJSON client msg, h => ((), h.enqueue client .send msg)
  | sendPriorityJSON client msg, h => ((), h.enqueue client .highPri msg)
  | fields client, h => (h.heap client, h)
  | setCallsign client callsign, h =>
    ((), h.setClient client { h.heap client with callsign := callsign })
  | setRole client role, h => ((), h.setClient client { h.heap client with role := role })
  | setLocation client location, h =>
    ((), h.setClient client { h.heap client with location := some location })
  | setCurrentChannel client ch, h =>
    ((), h.setClient client { h.heap client with currentChannelID := ch })
  | addTransmission, h => ((), { h with totalTransmissions := h.totalTransmissions + 1 })
  | addPreemption, h => ((), { h with totalPreemptions := h.totalPreemptions + 1 })
  | addAudioBytes n, h =>
    ((), { h with totalAudioBytes := h.totalAudioBytes + UInt64.ofNat n })
  | clock, h => (h.unixMilli, h)
  | relay ch data, h => ((), { h with outbox := h.outbox ++ [.relay ch data] })

end TwoWayRadio

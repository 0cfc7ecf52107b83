import TwoWayRadio.Hub

/-! The hub's handlers, call by call in the source's order. A handler reads its own client's
fields once where nothing in between can change them. -/
namespace TwoWayRadio

open Interleaving

abbrev HubProg := Prog HubOp.Res

abbrev HubOp.call (op : HubOp) : HubProg op.Res := Prog.perform op

/-- What the hub takes from outside: the map iteration order behind the registration
fallback, and `rand.Intn(10000)`. -/
structure Choices where
  first : ℕ := 0
  rand : ℕ := 0
deriving DecidableEq

namespace Hub

open HubOp

def broadcastUserList (ch : ChannelID) : HubProg Unit := do
  let users ← (getUserCallsigns ch).call
  let subscribers ← (getSubscribersInfo ch).call
  (broadcastSignal ch (.userList ch users subscribers users.length)).call

def floorIdle (ch : ChannelID) : Signal := .floorStatus { channelID := ch, status := .idle }

def floorGranted (ch : ChannelID) (speaker : Client) : Signal := .floorStatus {
  channelID := ch, status := .granted, currentSpeaker := speaker.callsign,
  speakerID := speaker.id }

def floorPreempted (ch : ChannelID) (speaker : Client) : Signal := .floorStatus {
  channelID := ch, status := .denied, reason := "preempted_by_dispatcher",
  currentSpeaker := speaker.callsign, speakerID := speaker.id }

def floorDenied (ch : ChannelID) (reason speaker : String) : Signal := .floorStatus {
  channelID := ch, status := .denied, reason := reason, currentSpeaker := speaker }

def floorTimeout (ch : ChannelID) : Signal := .floorStatus {
  channelID := ch, status := .timeout, reason := "time_out_timer_exceeded" }

/-- The state of a channel as a client that switches to it is told. -/
def floorShown (ch : ChannelID) (isBusy : Bool) (speaker : String) : Signal := .floorStatus {
  channelID := ch, status := if isBusy then .busy else .idle, currentSpeaker := speaker }

def keyedUp (ch : ChannelID) (speaker : Client) : Signal :=
  .userTalking ⟨ch, speaker.id, speaker.callsign⟩

def unkeyed (ch : ChannelID) (speaker : Client) : Signal :=
  .userStopped ⟨ch, speaker.id, speaker.callsign⟩

def channelBusy (ch : ChannelID) (speaker : Client) : Signal :=
  .channelActivity ch true speaker.callsign

/-- `channel_activity` with `is_busy` false carries no speaker. -/
def channelIdle (ch : ChannelID) : Signal := .channelActivity ch false ""

/-- The three announcements of a released floor. -/
def announceIdle (ch : ChannelID) (speaker : Client) : HubProg Unit := do
  (broadcastSignal ch (floorIdle ch)).call
  (broadcastSignal ch (unkeyed ch speaker)).call
  (broadcastAll (channelIdle ch)).call

/-- The end of a video call whose sender leaves its channel. -/
def endVideoOf (ch : ChannelID) (client : ClientRef) : HubProg Unit := do
  let video ← (activeVideo ch).call
  let c ← (fields client).call
  Prog.when (video.any fun v => v.senderID == c.id) do
    (deleteVideo ch).call
    (broadcastSignal ch (.videoCallEnd
      { channelID := ch, senderID := c.id, callsign := c.callsign })).call

/-- Finalising a recording and telling the channel about it. -/
def finishRecording (ch : ChannelID) : HubProg (Option VoiceRecording) := do
  let saved ← (onTransmissionEnd ch).call
  Prog.ifSome saved fun r => (broadcastSignal ch (.transmissionRecorded r)).call
  pure saved

/-- What a newly registered client is sent. -/
def welcomeClient (client : ClientRef) : HubProg Unit := do
  let c ← (fields client).call
  (sendJSON client (.clientWelcome c.id c.callsign c.currentChannelID)).call
  let channels ← HubOp.getChannelList.call
  (sendJSON client (.channelList channels)).call
  let (hist, video) ← (history c.currentChannelID).call
  Prog.when (0 < hist.length) (sendJSON client (.chatHistory c.currentChannelID hist)).call
  Prog.ifSome video fun v => (sendJSON client (.videoCallStart v)).call

def registerClient (client : ClientRef) (first : ℕ) : HubProg Unit := do
  let ch ← (HubOp.register client first).call
  Prog.ifSome ch fun ch => do
    (addSubscriber ch client).call
    broadcastUserList ch
  welcomeClient client

def unregisterClient (client : ClientRef) : HubProg Unit := do
  let ch ← (HubOp.unregister client).call
  Prog.ifSome ch fun ch => do
    let floorReleased ← (removeSubscriber ch client).call
    broadcastUserList ch
    endVideoOf ch client
    Prog.when floorReleased do
      let c ← (fields client).call
      announceIdle ch c

/-- The first half of a switch: leaving the old channel. -/
def leaveChannel (client : ClientRef) (c : Client) (oldCh : ChannelID) : HubProg Unit := do
  let floorReleased ← (removeSubscriber oldCh client).call
  broadcastUserList oldCh
  Prog.when floorReleased (announceIdle oldCh c)
  endVideoOf oldCh client

/-- What a client that has switched is sent. -/
def showChannel (client : ClientRef) (newChannelID : ChannelID) : HubProg Unit := do
  let state ← (getState newChannelID).call
  (sendJSON client (floorShown newChannelID state.1 state.2)).call
  let (hist, video) ← (history newChannelID).call
  (sendJSON client (.chatHistory newChannelID hist)).call
  Prog.ifSome video fun v => (sendJSON client (.videoCallStart v)).call

/-- The second half: entering the new one. -/
def enterChannel (client : ClientRef) (newChannelID : ChannelID) : HubProg Unit := do
  (setCurrentChannel client newChannelID).call
  (addSubscriber newChannelID client).call
  broadcastUserList newChannelID
  showChannel client newChannelID

def switchChannel (client : ClientRef) (newChannelID : ChannelID) (password : String) :
    HubProg Unit := do
  let (targetCh, oldCh) ← (lookupSwitch client newChannelID).call
  match targetCh with
  | none => (sendJSON client (.error "channel does not exist")).call
  | some definition =>
    let c ← (fields client).call
    if c.currentChannelID = newChannelID then pure ()
    else if definition.isPrivate ∧ definition.password ≠ password then
      (sendJSON client (.error "incorrect password for private channel")).call
    else
      Prog.ifSome oldCh (leaveChannel client c)
      enterChannel client newChannelID

/-- The part of `handlePTTDown` that a preempting grant adds. -/
def finalizePreempted (ch : ChannelID) (client preempted : ClientRef) : HubProg Unit := do
  addPreemption.call
  let _ ← finishRecording ch
  let c ← (fields client).call
  (sendPriorityJSON preempted (floorPreempted ch c)).call

/-- What `handlePTTDown` does once the channel has answered. -/
def answerRequest (client : ClientRef) (ch : ChannelID) (reply : FloorReply) : HubProg Unit :=
  if reply.granted then do
    addTransmission.call
    Prog.ifSome reply.preempted (finalizePreempted ch client)
    (onTransmissionStart ch client).call
    let c ← (fields client).call
    (sendPriorityJSON client (floorGranted ch c)).call
    (broadcastSignal ch (keyedUp ch c)).call
    (broadcastAll (channelBusy ch c)).call
  else
    (sendPriorityJSON client (floorDenied ch reply.reason reply.speaker)).call

def handlePTTDown (client : ClientRef) : HubProg Unit := do
  let ch ← (currentChannel client).call
  match ch with
  | none => (sendJSON client (.error "channel not found")).call
  | some ch =>
    let reply ← (requestFloor ch client).call
    answerRequest client ch reply

/-- `"🎙️ Voice Transmission (%.1fs)"` in UTF-8. -/
def voiceText (durationTenths : ℕ) : Bytes :=
  ("🎙️ Voice Transmission (" ++ toString (durationTenths / 10) ++ "." ++
    toString (durationTenths % 10) ++ "s)").toUTF8.toList

def voiceEntry (ch : ChannelID) (c : Client) (r : VoiceRecording) : ChatMessagePayload Bytes where
  id := r.id
  channelID := ch
  senderID := c.id
  callsign := c.callsign
  text := voiceText r.durationTenths
  fileUrl := r.fileURL
  fileName := Filepath.base r.fileURL
  fileType := "audio/wav"
  timestamp := r.timestamp

/-- What `handlePTTUp` does once the floor is released. -/
def finishRelease (client : ClientRef) (ch : ChannelID) : HubProg Unit := do
  let saved ← finishRecording ch
  let c ← (fields client).call
  Prog.ifSome saved fun r => (appendVoice ch (voiceEntry ch c r)).call
  announceIdle ch c

def handlePTTUp (client : ClientRef) : HubProg Unit := do
  let ch ← (currentChannel client).call
  Prog.ifSome ch fun ch => do
    let released ← (releaseFloor ch client).call
    Prog.when released (finishRelease client ch)

def handleAlertTone (client : ClientRef) (toneType : String) : HubProg Unit := do
  let ch ← (currentChannel client).call
  Prog.ifSome ch fun ch => do
    let c ← (fields client).call
    (broadcastSignal ch (.alertTone ch toneType c.callsign)).call

def handleTOTExpired (ch : ChannelID) (speaker : ClientRef) : HubProg Unit := do
  let _ ← finishRecording ch
  (sendJSON speaker (floorTimeout ch)).call
  let c ← (fields speaker).call
  announceIdle ch c

/-- The goroutine of a fired timer: `handleTOT` and what it calls outside the mutex. -/
def totGoroutine (ch : ChannelID) (timer : ℕ) : HubProg Unit := do
  let speaker ← (handleTOT ch timer).call
  Prog.ifSome speaker (handleTOTExpired ch)

/-- All-Call packets go to every channel, the others to the listeners of their own. -/
def fanOut (client : ClientRef) (targetChID : ChannelID) (flags : UInt8) (data : Bytes) :
    HubProg Unit :=
  if flags &&& flagAudioAllCall ≠ 0 then (allCallAudio client data).call
  else (broadcastAudio targetChID (some client) data).call

/-- What `HandleBinaryAudio` does with a packet of the floor holder. -/
def dispatchAudio (client : ClientRef) (targetChID : ChannelID) (flags : UInt8) (data : Bytes) :
    HubProg Unit := do
  (addAudioBytes data.length).call
  Prog.when (audioHeaderSize < data.length)
    (appendAudio targetChID (data.drop audioHeaderSize)).call
  fanOut client targetChID flags data
  let relays ← getRelay.call
  Prog.when relays (relay targetChID data).call

def handleBinaryAudio (client : ClientRef) (data : Bytes) : HubProg Unit :=
  match parseAudioHeaderQuick data with
  | .error _ => pure ()
  | .ok packet => do
    let targetChID : ChannelID := packet.channelID.toNat
    let found ← (lookupChannel targetChID).call
    Prog.when found do
      let c ← (fields client).call
      Prog.when (c.currentChannelID = targetChID) do
        let holder ← (isFloorHolder targetChID client).call
        Prog.when holder (dispatchAudio client targetChID packet.flags data)

def handleRoIPAudio (channelID : ChannelID) (data : Bytes) : HubProg Unit := do
  let found ← (lookupChannel channelID).call
  Prog.when found (broadcastAudio channelID none data).call

/-- The body of `listenLoop` for one datagram, which is read into a buffer of 4096 bytes. -/
def roipDatagram (datagram : Bytes) : HubProg Unit :=
  let packet := datagram.take 4096
  match parseAudioHeaderQuick packet with
  | .error _ => pure ()
  | .ok hdr => handleRoIPAudio hdr.channelID.toNat packet

def identifySignal (client : ClientRef) (p : Decoded IdentifyPayload) : HubProg Unit :=
  Prog.when (p.ok ∧ p.value.callsign ≠ "") do
    (setCallsign client p.value.callsign).call
    Prog.when (p.value.role ≠ "") (setRole client p.value.role).call
    let ch ← (currentChannel client).call
    Prog.ifSome ch broadcastUserList

def createSignal (client : ClientRef) (p : Decoded CreateChannelPayload) : HubProg Unit :=
  Prog.when (p.ok ∧ p.value.name ≠ "") do
    let newID ← (createChannel p.value).call
    let channels ← HubOp.getChannelList.call
    (broadcastAll (.channelList channels)).call
    switchChannel client newID p.value.password

def allCallSignal (client : ClientRef) (p : Decoded AllCallPayload) : HubProg Unit :=
  Prog.when p.ok do
    let c ← (fields client).call
    let now ← clock.call
    (broadcastAll (.allCall { p.value with
      senderID := c.id, callsign := c.callsign, role := c.role, timestamp := now })).call

def locationSignal (client : ClientRef) (p : Decoded LocationPayload) : HubProg Unit :=
  Prog.when p.ok do
    let c ← (fields client).call
    let location := { p.value with userID := c.id, callsign := c.callsign }
    (setLocation client location).call
    let ch ← (currentChannel client).call
    Prog.ifSome ch fun ch => (broadcastSignal ch (.location location)).call

def chatSignal (client : ClientRef) (p : Decoded (ChatMessagePayload String)) (choices : Choices) :
    HubProg Unit :=
  let text := ((trimSpace p.value.text).toUTF8.toList).take 500
  Prog.when (p.ok ∧ (text ≠ [] ∨ p.value.fileUrl ≠ "")) do
    let now ← clock.call
    let c ← (fields client).call
    let stamp ← clock.call
    let message : ChatMessagePayload Bytes := {
      id := "msg-" ++ toString now ++ "-" ++ toString (choices.rand % 10000),
      channelID := c.currentChannelID, senderID := c.id, callsign := c.callsign, text := text,
      fileUrl := p.value.fileUrl, fileName := p.value.fileName, fileType := p.value.fileType,
      timestamp := stamp }
    let ch ← (appendChat client message).call
    Prog.ifSome ch fun ch => (broadcastSignal ch (.chatMessage message)).call

/-- The fields of a video payload that the hub fills in from the sender. -/
def stampVideo (c : Client) (p : VideoSignalingPayload) : VideoSignalingPayload :=
  { p with senderID := c.id, callsign := c.callsign, channelID := c.currentChannelID }

def videoStartSignal (client : ClientRef) (p : Decoded VideoSignalingPayload) : HubProg Unit := do
  let c ← (fields client).call
  let video := stampVideo c p.value
  let ch ← (startVideo client video).call
  Prog.ifSome ch fun ch => (broadcastSignal ch (.videoCallStart video)).call

def videoEndSignal (client : ClientRef) : HubProg Unit := do
  let (ch, video) ← (endVideo client).call
  let c ← (fields client).call
  Prog.when (video.any fun v => v.senderID == c.id) <| Prog.ifSome ch fun ch =>
    (broadcastSignal ch (.videoCallEnd
      { channelID := ch, senderID := c.id, callsign := c.callsign })).call

def videoJoinSignal (client : ClientRef) (p : Decoded VideoSignalingPayload) : HubProg Unit := do
  let c ← (fields client).call
  let ch ← (currentChannel client).call
  Prog.ifSome ch fun ch => (broadcastSignal ch (.videoJoin (stampVideo c p.value))).call

def videoRelaySignal (client : ClientRef) (kind : VideoRelay) (p : Decoded VideoSignalingPayload) :
    HubProg Unit :=
  Prog.when p.ok do
    let c ← (fields client).call
    let video := stampVideo c p.value
    if p.value.targetID ≠ "" then
      let targetClient ← (clientByID p.value.targetID).call
      Prog.ifSome targetClient fun target => (sendPriorityJSON target (.videoRelay kind video)).call
    else
      let ch ← (currentChannel client).call
      Prog.ifSome ch fun ch => (broadcastSignal ch (.videoRelay kind video)).call

def handleSignal (client : ClientRef) (msg : ClientSignal) (choices : Choices) : HubProg Unit :=
  match msg with
  | .identify p => identifySignal client p
  | .joinChannel p =>
    Prog.when p.ok (switchChannel client p.value.channelID p.value.password)
  | .createChannel p => createSignal client p
  | .pttDown => handlePTTDown client
  | .pttUp => handlePTTUp client
  | .alertTone p => handleAlertTone client p.value.toneType
  | .allCall p => allCallSignal client p
  | .location p => locationSignal client p
  | .ping payload => (sendPriorityJSON client (.pong payload)).call
  | .chatMessage p => chatSignal client p choices
  | .videoCallStart p => videoStartSignal client p
  | .videoCallEnd => videoEndSignal client
  | .videoJoin p => videoJoinSignal client p
  | .videoRelay kind p => videoRelaySignal client kind p
  | .other _ => pure ()

end Hub

end TwoWayRadio

import TwoWayRadio.Client

/-! The video calls of `radio.js`: one connection at a time, set up and answered over the hub.
An asynchronous function runs up to an `await`; what it does afterwards is what the client does
when the awaited operation is resolved or rejected. Media and display are left out. -/
namespace TwoWayRadio

inductive SignalingState
  | stable | haveLocalOffer | haveRemoteOffer
deriving DecidableEq

inductive ConnectionState
  | new | connecting | connected | disconnected | failed
deriving DecidableEq

/-- The connections that a client makes are numbered. -/
structure ConnectionID where
  client : String
  inst : ℕ
deriving DecidableEq

/-- A session description: an offer of connection `source`, or its answer to the offer of
another. -/
inductive Description
  | offer (source : ConnectionID)
  | answer (source offered : ConnectionID)
deriving DecidableEq

def Description.source : Description → ConnectionID
  | offer source | answer source _ => source

/-- `remote` is the connection whose description the gathering connection has, if it has one. -/
structure IceCandidate where
  source : ConnectionID
  remote : Option ConnectionID
deriving DecidableEq

structure RTCPeerConnection where
  target : String
  inst : ℕ
  signalingState : SignalingState := .stable
  connectionState : ConnectionState := .new
  remoteDescription : Option Description := none
  candidates : List IceCandidate := []
deriving DecidableEq

/-- A remote description is set, with the state that it leads to. -/
def RTCPeerConnection.describe (state : SignalingState) (description : Description)
    (pc : RTCPeerConnection) : RTCPeerConnection :=
  { pc with signalingState := state, remoteDescription := some description }

/-- What is given to `ws.send`. For the text of a description or a candidate stand the number of
the sender's connection that made it and what it refers to. -/
inductive VideoMessage
  | callStart (isScreen : Bool)
  | callEnd
  | join (targetID : String)
  | offer (targetID : String) (inst : ℕ)
  | answer (targetID : String) (inst : ℕ) (offered : ConnectionID)
  | ice (targetID : String) (inst : ℕ) (remote : Option ConnectionID)
deriving DecidableEq

/-- What the hub makes of it. -/
structure VideoPacket where
  channelID : ChannelID
  senderID : String
  callsign : String
  message : VideoMessage
deriving DecidableEq

/-- What a change of the local stream is part of. -/
inductive StreamChange
  | videoCall | screenShare | otherwise
deriving DecidableEq

/-- An operation that a suspended function waits for, with what the function needs afterwards. The
number is that of the connection the operation is on; an offer without a target is a
renegotiation. -/
inductive Await
  | getUserMedia (change : StreamChange)
  | replaceTrack (change : StreamChange)
  | createOffer (inst : ℕ) (targetID : Option String) (change : StreamChange)
  | setLocalOffer (inst : ℕ) (targetID : Option String) (change : StreamChange)
  | rollback (inst : ℕ) (senderID : String) (offered : ℕ)
  | setRemoteOffer (inst : ℕ) (senderID : String) (offered : ℕ)
  | addQueuedCandidate (inst : ℕ) (offerer : Option String)
  | createAnswer (inst : ℕ) (senderID : String)
  | setLocalAnswer (inst : ℕ) (senderID : String)
  | setRemoteAnswer (inst : ℕ) (answer : Description)
deriving DecidableEq

/-- What is applied to a connection, as the connection is at the call. -/
inductive RTCCall
  | setRemoteAnswer (pc : RTCPeerConnection) (answer : Description)
  | addIceCandidate (pc : RTCPeerConnection) (candidate : IceCandidate)
deriving DecidableEq

/-- `created` counts the connections made so far; `sent` and `calls` are all that has been given to
`ws.send` and applied to connections, oldest first. -/
structure VideoClient where
  myClientID : String
  myCallsign : String
  currentChannelID : ChannelID
  isVideoCallActive : Bool := false
  isScreenSharing : Bool := false
  peerConnection : Option RTCPeerConnection := none
  currentVideoPeerID : Option String := none
  pendingIceCandidates : List IceCandidate := []
  created : ℕ := 0
  awaiting : List Await := []
  sent : List VideoMessage := []
  calls : List RTCCall := []

namespace VideoClient

def send (messages : List VideoMessage) (s : VideoClient) : VideoClient :=
  { s with sent := s.sent ++ messages }

def await (operation : Await) (s : VideoClient) : VideoClient :=
  { s with awaiting := s.awaiting ++ [operation] }

/-- A method of the current connection; none is called on `null`. -/
def onConnection (f : RTCPeerConnection → VideoClient) (s : VideoClient) : VideoClient :=
  match s.peerConnection with
  | none => s
  | some pc => f pc

def setupPeerConnection (targetID : String) (isInitiator : Bool) (s : VideoClient) : VideoClient :=
  let s' := { s with
    currentVideoPeerID := some targetID
    pendingIceCandidates := []
    peerConnection := some { target := targetID, inst := s.created }
    created := s.created + 1 }
  if isInitiator then s'.await (.createOffer s.created (some targetID) .otherwise) else s'

/-- What follows a `switchStream` in the function that has called it. -/
def afterSwitch (change : StreamChange) (s : VideoClient) : VideoClient :=
  match change with
  | .videoCall => { s with isVideoCallActive := true }.send [.callStart false, .join ""]
  | .screenShare => { s with isVideoCallActive := true }.send [.callStart true, .join ""]
  | .otherwise => s

/-- `switchStream` replaces the track of an existing connection before it goes on. -/
def switchStream (change : StreamChange) (s : VideoClient) : VideoClient :=
  match s.peerConnection with
  | none => s.afterSwitch change
  | some _ => s.await (.replaceTrack change)

/-- The second half of `switchStream`: a connection with a peer is renegotiated. -/
def renegotiate (change : StreamChange) (s : VideoClient) : VideoClient :=
  match s.peerConnection with
  | none => s.afterSwitch change
  | some pc =>
    if s.currentVideoPeerID.isSome ∧
        (pc.connectionState = .connected ∨ pc.signalingState = .stable) then
      s.await (.createOffer pc.inst none change)
    else s.afterSwitch change

def startVideoCall (s : VideoClient) : VideoClient :=
  if s.isVideoCallActive ∧ ¬ s.isScreenSharing then s else s.await (.getUserMedia .videoCall)

def startScreenShare (s : VideoClient) : VideoClient := s.await (.getUserMedia .screenShare)

def stopScreenShare (s : VideoClient) : VideoClient :=
  if s.isScreenSharing then
    { s with isScreenSharing := false }.await (.getUserMedia .otherwise)
  else s

def flipCamera (s : VideoClient) : VideoClient :=
  if ¬ s.isVideoCallActive ∨ s.isScreenSharing then s else s.await (.getUserMedia .otherwise)

/-- The modal dialog is open exactly while the call is active. -/
def endVideoCall (s : VideoClient) : VideoClient :=
  if s.isVideoCallActive then
    { s with isVideoCallActive := false, isScreenSharing := false, peerConnection := none,
             currentVideoPeerID := none }.send [.callEnd]
  else s

def changeChannel (newID : ChannelID) (s : VideoClient) : VideoClient :=
  { s.endVideoCall with currentChannelID := newID }

def handleVideoCallStart (payload : VideoPacket) (s : VideoClient) : VideoClient :=
  let caller := if payload.callsign = "" then "Peer" else payload.callsign
  if payload.channelID ≠ s.currentChannelID then s
  else if payload.senderID ≠ s.myClientID ∧ caller ≠ s.myCallsign ∧
      s.isVideoCallActive ∧ s.peerConnection.all fun pc =>
        pc.connectionState = .disconnected || pc.connectionState = .failed then
    s.setupPeerConnection payload.senderID (payload.senderID < s.myClientID)
  else s

def handleVideoJoin (payload : VideoPacket) (requestedTarget : String) (s : VideoClient) :
    VideoClient :=
  if payload.senderID = "" ∨ payload.senderID = s.myClientID then s
  else if requestedTarget ≠ "" ∧ requestedTarget ≠ s.myClientID then s
  else if ¬ s.isVideoCallActive then s
  else if (s.peerConnection.any fun pc => pc.connectionState = .connected) ∧
      s.currentVideoPeerID = some payload.senderID then s
  else s.setupPeerConnection payload.senderID
    (requestedTarget = s.myClientID || payload.senderID < s.myClientID)

/-- The call of `setRemoteDescription` with an offer. -/
def applyOffer (senderID : String) (offered : ℕ) (s : VideoClient) : VideoClient :=
  s.onConnection fun pc => s.await (.setRemoteOffer pc.inst senderID offered)

def handleVideoOffer (payload : VideoPacket) (offered : ℕ) (s : VideoClient) : VideoClient :=
  let senderID := payload.senderID
  if senderID = "" ∨ senderID = s.myClientID then s
  else
    let s := { s with isVideoCallActive := true }
    match s.peerConnection with
    | none => (s.setupPeerConnection senderID false).applyOffer senderID offered
    | some pc =>
      if pc.signalingState = .haveLocalOffer then
        -- the impolite peer ignores a conflicting offer
        if ¬ s.myClientID < senderID then s
        else s.await (.rollback pc.inst senderID offered)
      else if s.currentVideoPeerID ≠ some senderID then
        (s.setupPeerConnection senderID false).applyOffer senderID offered
      else s.applyOffer senderID offered

/-- The guard looks at the state of the connection, and not at the sender. -/
def handleVideoAnswer (answer : Description) (s : VideoClient) : VideoClient :=
  s.onConnection fun pc =>
    if pc.signalingState ≠ .haveLocalOffer then s
    else
      { s with calls := s.calls ++ [RTCCall.setRemoteAnswer pc answer] }.await
        (.setRemoteAnswer pc.inst answer)

/-- `addIceCandidate` on a connection that has a remote description. -/
def addIceCandidate (pc : RTCPeerConnection) (candidate : IceCandidate) (s : VideoClient) :
    VideoClient :=
  { s with
    peerConnection := some { pc with candidates := pc.candidates ++ [candidate] }
    calls := s.calls ++ [.addIceCandidate pc candidate] }

def handleVideoICE (candidate : IceCandidate) (s : VideoClient) : VideoClient :=
  match s.peerConnection with
  | none => { s with pendingIceCandidates := s.pendingIceCandidates ++ [candidate] }
  | some pc =>
    if pc.remoteDescription = none then
      { s with pendingIceCandidates := s.pendingIceCandidates ++ [candidate] }
    else s.addIceCandidate pc candidate

def handleVideoCallEnd (payload : VideoPacket) (s : VideoClient) : VideoClient :=
  if payload.channelID ≠ s.currentChannelID then s
  else if payload.senderID ≠ "" ∧ payload.senderID = s.myClientID then s
  else if s.currentVideoPeerID.isSome ∧ payload.senderID ≠ "" ∧
      s.currentVideoPeerID ≠ some payload.senderID then s
  else { s with peerConnection := none, currentVideoPeerID := none, pendingIceCandidates := [] }

def handleSignalingMessage (payload : VideoPacket) (s : VideoClient) : VideoClient :=
  match payload.message with
  | .callStart _ => s.handleVideoCallStart payload
  | .callEnd => s.handleVideoCallEnd payload
  | .join targetID => s.handleVideoJoin payload targetID
  | .offer _ inst => s.handleVideoOffer payload inst
  | .answer _ inst offered => s.handleVideoAnswer (.answer ⟨payload.senderID, inst⟩ offered)
  | .ice _ inst remote => s.handleVideoICE ⟨⟨payload.senderID, inst⟩, remote⟩

/-- What `handleVideoOffer` does once the candidates are flushed. -/
def afterFlush (offerer : Option String) (s : VideoClient) : VideoClient :=
  match offerer with
  | none => s
  | some senderID => s.onConnection fun pc => s.await (.createAnswer pc.inst senderID)

/-- The loop of `flushPendingIceCandidates` up to its next `await`. On `null` the calls throw, and
the loop goes on. -/
def flushLoop (offerer : Option String) (s : VideoClient) : VideoClient :=
  match s.pendingIceCandidates, s.peerConnection with
  | [], _ => s.afterFlush offerer
  | _ :: _, none => { s with pendingIceCandidates := [] }.afterFlush offerer
  | candidate :: rest, some pc =>
    let s := { s with pendingIceCandidates := rest }
    let s := if pc.remoteDescription = none then s else s.addIceCandidate pc candidate
    s.await (.addQueuedCandidate pc.inst offerer)

def setConnection (pc : RTCPeerConnection) (s : VideoClient) : VideoClient :=
  { s with peerConnection := some pc }

/-- Operations that can be resolved: those on a connection that is still open, in a signalling
state that allows them. -/
def Resolvable (operation : Await) (s : VideoClient) : Bool :=
  match operation with
  | .getUserMedia _ | .replaceTrack _ => true
  | .createOffer inst .. | .setRemoteOffer inst .. | .addQueuedCandidate inst _ =>
    s.peerConnection.any fun pc => pc.inst = inst
  | .setLocalOffer inst .. => s.peerConnection.any fun pc =>
    pc.inst = inst && (pc.signalingState = .stable || pc.signalingState = .haveLocalOffer)
  | .rollback inst .. | .setRemoteAnswer inst _ => s.peerConnection.any fun pc =>
    pc.inst = inst && pc.signalingState = .haveLocalOffer
  | .createAnswer inst _ | .setLocalAnswer inst _ => s.peerConnection.any fun pc =>
    pc.inst = inst && pc.signalingState = .haveRemoteOffer

/-- What a function does when its operation is resolved; `stream` is whether there is one. -/
def resume (operation : Await) (stream : Bool) (s : VideoClient) : VideoClient :=
  match operation with
  | .getUserMedia .videoCall =>
    if stream then s.switchStream .videoCall else s.afterSwitch .videoCall
  | .getUserMedia .screenShare =>
    { s with isScreenSharing := true }.switchStream .screenShare
  | .getUserMedia .otherwise => if stream then s.switchStream .otherwise else s
  | .replaceTrack change => s.renegotiate change
  | .createOffer inst targetID change => s.await (.setLocalOffer inst targetID change)
  | .setLocalOffer inst targetID change => s.onConnection fun pc =>
    (s.setConnection { pc with signalingState := .haveLocalOffer }).send
      [.offer ((targetID.or s.currentVideoPeerID).getD "") inst] |>.afterSwitch change
  | .rollback _ senderID offered => s.onConnection fun pc =>
    (s.setConnection { pc with signalingState := .stable }).applyOffer senderID offered
  | .setRemoteOffer _ senderID offered => s.onConnection fun pc =>
    (s.setConnection (pc.describe .haveRemoteOffer (.offer ⟨senderID, offered⟩))).flushLoop
      (some senderID)
  | .addQueuedCandidate _ offerer => s.flushLoop offerer
  | .createAnswer inst senderID => s.await (.setLocalAnswer inst senderID)
  | .setLocalAnswer inst senderID => s.onConnection fun pc =>
    (s.setConnection { pc with signalingState := .stable }).send
      ((pc.remoteDescription.map fun d => .answer senderID inst d.source).toList)
  | .setRemoteAnswer _ answer => s.onConnection fun pc =>
    (s.setConnection (pc.describe .stable answer)).flushLoop none

/-- What a function does when its operation is rejected: its `catch` branch. -/
def fail (operation : Await) (s : VideoClient) : VideoClient :=
  match operation with
  | .getUserMedia .videoCall => s.afterSwitch .videoCall
  | .replaceTrack change => s.renegotiate change
  | .createOffer _ _ change | .setLocalOffer _ _ change => s.afterSwitch change
  | .rollback _ senderID offered =>
    (s.setupPeerConnection senderID false).applyOffer senderID offered
  | .addQueuedCandidate _ offerer => s.flushLoop offerer
  | _ => s

/-- `onconnectionstatechange` of the current connection. -/
def changeState (state : ConnectionState) (s : VideoClient) : VideoClient :=
  s.onConnection fun pc =>
    let s := s.setConnection { pc with connectionState := state }
    if (state = .disconnected ∨ state = .failed) ∧ s.currentVideoPeerID = some pc.target then
      { s with currentVideoPeerID := none }
    else s

/-- `onicecandidate` of the current connection. -/
def gather (s : VideoClient) : VideoClient :=
  s.onConnection fun pc =>
    s.send [.ice pc.target pc.inst (pc.remoteDescription.map Description.source)]

end VideoClient

inductive VideoEvent
  | startVideoCall | startScreenShare | stopScreenShare | flipCamera | endVideoCall
  | changeChannel (newID : ChannelID)
  | receive (payload : VideoPacket)
  | resolve (n : ℕ) (stream : Bool)
  | reject (n : ℕ)
  | connectionStateChange (state : ConnectionState)
  | iceCandidate
deriving DecidableEq

/-- The numbers of `resolve` and `reject` are places in `awaiting`. -/
def videoStep (s : VideoClient) : VideoEvent → Option VideoClient
  | .startVideoCall => some s.startVideoCall
  | .startScreenShare => some s.startScreenShare
  | .stopScreenShare => some s.stopScreenShare
  | .flipCamera => some s.flipCamera
  | .endVideoCall => some s.endVideoCall
  | .changeChannel newID => some (s.changeChannel newID)
  | .receive payload => some (s.handleSignalingMessage payload)
  | .resolve n stream => s.awaiting[n]?.bind fun operation =>
    if s.Resolvable operation then
      some ({ s with awaiting := s.awaiting.eraseIdx n }.resume operation stream)
    else none
  | .reject n => s.awaiting[n]?.map fun operation =>
    { s with awaiting := s.awaiting.eraseIdx n }.fail operation
  | .connectionStateChange state => some (s.changeState state)
  | .iceCandidate => some s.gather

end TwoWayRadio

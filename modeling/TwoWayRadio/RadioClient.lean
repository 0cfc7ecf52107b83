import TwoWayRadio.AudioEngine
import TwoWayRadio.Runs

/-! The browser client of `radio.js`: socket, tuning and the push-to-talk state machine.
Display, sound and haptic effects are left out. -/
namespace TwoWayRadio

inductive PttMode
  | hold | toggle
deriving DecidableEq

/-- What the client hands to `ws.send`. -/
inductive ClientFrame
  | text (msg : ClientSignal)
  | binary (data : Bytes)
deriving DecidableEq

/-- `uplink` holds the frames given to an open socket and not yet received by the server. -/
structure RadioState where
  wsOpen : Bool := false
  uplink : List ClientFrame := []
  myCallsign : String := ""
  currentChannelID : ChannelID := 1
  channels : List ChannelInfo := []
  isPTTDown : Bool := false
  isTransmitting : Bool := false
  isReceiving : Bool := false
  pttMode : PttMode := .hold
  isScanning : Bool := false
  isVideoCallActive : Bool := false
  engine : AudioEngine := {}

namespace RadioState

/-- `ws.send` behind the `readyState` check that guards every use of it. -/
def wsSend (frames : List ClientFrame) (s : RadioState) : RadioState :=
  if s.wsOpen then { s with uplink := s.uplink ++ frames } else s

/-- Runs a method of the engine and sends the packets it produces. -/
def onEngine (f : AudioEngine → List Bytes × AudioEngine) (s : RadioState) : RadioState :=
  { s with engine := (f s.engine).2 }.wsSend ((f s.engine).1.map .binary)

def requestFloor (s : RadioState) : RadioState :=
  if s.isPTTDown || s.isTransmitting then s
  else
    { s with
      isScanning := false, isPTTDown := true,
      engine := s.engine.startPreBuffering s.currentChannelID }.wsSend [.text .pttDown]

def releaseFloor (s : RadioState) : RadioState :=
  if !s.isPTTDown && !s.isTransmitting then s
  else
    let wasTransmitting := s.isTransmitting
    let s := { s with isPTTDown := false }
    let s :=
      if wasTransmitting then
        { s with isTransmitting := false }.onEngine AudioEngine.stopTransmission
      else s.onEngine AudioEngine.stopTransmission
    s.wsSend [.text .pttUp]

/-- `endVideoCall(false)`, as far as the hub sees it. -/
def endVideoCall (s : RadioState) : RadioState :=
  { s with isVideoCallActive := false }.wsSend [.text .videoCallEnd]

/-- `answer` is what the password prompt of a private channel returns, `none` for Cancel. -/
def changeChannel (newID : ChannelID) (answer : Option String) (s : RadioState) : RadioState :=
  match s.channels.find? (fun c => c.id == newID) with
  | none => s
  | some targetCh =>
    match if targetCh.isPrivate then answer else some "" with
    | none => s
    | some password =>
      let s := if s.isTransmitting then s.releaseFloor else s
      let s := if s.isVideoCallActive then s.endVideoCall else s
      { s with currentChannelID := newID }.wsSend
        [.text (.joinChannel { value := { channelID := newID, password := password } })]

def handleFloorStatus (payload : FloorStatusPayload) (s : RadioState) : RadioState :=
  if payload.channelID ≠ s.currentChannelID then s
  else
    match payload.status with
    | .granted =>
      if s.pttMode = .hold ∧ s.isPTTDown = false then
        -- user already released the button before the server granted the floor
        s.releaseFloor
      else { s with isTransmitting := true }.onEngine AudioEngine.confirmTransmission
    | .denied | .busy => { s with isTransmitting := false, isPTTDown := false }
    | .timeout =>
      { s with isTransmitting := false, isPTTDown := false }.onEngine
        AudioEngine.stopTransmission
    | .idle => { s with isReceiving := false }

def handleUserTalking (payload : TransmissionEventPayload) (s : RadioState) : RadioState :=
  if payload.channelID ≠ s.currentChannelID ∨ payload.callsign = s.myCallsign then s
  else { s with isReceiving := true }

def handleUserStopped (payload : TransmissionEventPayload) (s : RadioState) : RadioState :=
  if payload.channelID ≠ s.currentChannelID then s else { s with isReceiving := false }

/-- The first entry with the given ID, as `channels.find` sees it, is updated in place. -/
def markActivity (chID : ChannelID) (isBusy : Bool) (speaker : String) :
    List ChannelInfo → List ChannelInfo
  | [] => []
  | ch :: rest =>
    if ch.id = chID then { ch with isBusy := isBusy, currentSpeaker := speaker } :: rest
    else ch :: markActivity chID isBusy speaker rest

/-- A running scanner locks onto a carrier of the channel it is on. -/
def handleChannelActivity (chID : ChannelID) (isBusy : Bool) (speaker : String)
    (s : RadioState) : RadioState :=
  let s := { s with channels := markActivity chID isBusy speaker s.channels }
  if isBusy ∧ speaker ≠ "" ∧ speaker ≠ s.myCallsign ∧ s.isScanning ∧ s.currentChannelID = chID then
    { s with isScanning := false }
  else s

/-- The cases of the message switch that reach this state; the others only draw. -/
def handleSignalingMessage (msg : Signal) (s : RadioState) : RadioState :=
  match msg with
  | .channelList channels => { s with channels := channels }
  | .floorStatus payload => s.handleFloorStatus payload
  | .userTalking payload => s.handleUserTalking payload
  | .userStopped payload => s.handleUserStopped payload
  | .channelActivity chID isBusy speaker => s.handleChannelActivity chID isBusy speaker
  | _ => s

/-- `mousedown` and `touchstart` on the button, and the space bar. -/
def pttPress (s : RadioState) : RadioState :=
  match s.pttMode with
  | .toggle => if s.isTransmitting then s.releaseFloor else s.requestFloor
  | .hold => s.requestFloor

/-- `mouseup`, `blur` and the space bar's `keyup`. -/
def pttRelease (s : RadioState) : RadioState :=
  if s.pttMode = .hold ∧ (s.isPTTDown ∨ s.isTransmitting) then s.releaseFloor else s

@[simp] theorem wsSend_isPTTDown (frames : List ClientFrame) (s : RadioState) :
    (s.wsSend frames).isPTTDown = s.isPTTDown := by
  unfold wsSend
  split <;> rfl

@[simp] theorem wsSend_isTransmitting (frames : List ClientFrame) (s : RadioState) :
    (s.wsSend frames).isTransmitting = s.isTransmitting := by
  unfold wsSend
  split <;> rfl

@[simp] theorem wsSend_engine (frames : List ClientFrame) (s : RadioState) :
    (s.wsSend frames).engine = s.engine := by
  unfold wsSend
  split <;> rfl

@[simp] theorem wsSend_currentChannelID (frames : List ClientFrame) (s : RadioState) :
    (s.wsSend frames).currentChannelID = s.currentChannelID := by
  unfold wsSend
  split <;> rfl

@[simp] theorem wsSend_pttMode (frames : List ClientFrame) (s : RadioState) :
    (s.wsSend frames).pttMode = s.pttMode := by
  unfold wsSend
  split <;> rfl

@[simp] theorem wsSend_wsOpen (frames : List ClientFrame) (s : RadioState) :
    (s.wsSend frames).wsOpen = s.wsOpen := by
  unfold wsSend
  split <;> rfl

end RadioState

end TwoWayRadio

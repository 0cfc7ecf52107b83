import TwoWayRadio.Config

/-! Signalling payloads and the binary audio header. The envelope's `type` string
selects a constructor; every other text is the source's own. -/
namespace TwoWayRadio

abbrev ChannelID := ℤ
abbrev Bytes := List UInt8

inductive FloorStatus
  | granted | denied | idle | timeout | busy
deriving DecidableEq

structure IdentifyPayload where
  callsign : String
  role : String := ""
deriving DecidableEq

structure LocationPayload where
  userID : String := ""
  callsign : String := ""
  latitude : ℚ
  longitude : ℚ
  accuracy : ℚ := 0
  city : String := ""
deriving DecidableEq

structure JoinChannelPayload where
  channelID : ChannelID
  password : String := ""
deriving DecidableEq

structure CreateChannelPayload where
  name : String
  isPrivate : Bool
  password : String := ""
deriving DecidableEq

structure AlertTonePayload where
  toneType : String
deriving DecidableEq

structure FloorStatusPayload where
  channelID : ChannelID
  status : FloorStatus
  reason : String := ""
  currentSpeaker : String := ""
  speakerID : String := ""
deriving DecidableEq

structure TransmissionEventPayload where
  channelID : ChannelID
  userID : String
  callsign : String
deriving DecidableEq

structure AllCallPayload where
  senderID : String := ""
  callsign : String := ""
  role : String := ""
  text : String := ""
  audioURL : String := ""
  timestamp : ℤ := 0
deriving DecidableEq

structure ChannelInfo where
  id : ChannelID
  name : String
  frequency : ℚ
  ctcss : ℚ
  color : String
  latitude : ℚ
  longitude : ℚ
  coverageKm : ℚ
  region : String
  userCount : ℕ
  isBusy : Bool
  isPrivate : Bool
  currentSpeaker : String
  users : List String
deriving DecidableEq

/-- `Text` is `String` for what `json.Unmarshal` yields, which is valid UTF-8, and `Bytes`
for what the hub keeps, which it may have cut inside a code point. -/
structure ChatMessagePayload (Text : Type) where
  id : String := ""
  channelID : ChannelID
  senderID : String
  callsign : String
  text : Text
  fileUrl : String := ""
  fileName : String := ""
  fileType : String := ""
  timestamp : ℤ := 0
deriving DecidableEq

/-- `candidate` is the JSON text of the ICE candidate, which the hub only passes on. -/
structure VideoSignalingPayload where
  channelID : ChannelID
  senderID : String := ""
  targetID : String := ""
  callsign : String := ""
  isScreen : Bool := false
  sdp : String := ""
  candidate : String := ""
deriving DecidableEq

structure ChannelUserInfo where
  id : String
  callsign : String
  role : String
  location : Option LocationPayload
deriving DecidableEq

/-- Metadata of an archived transmission; the duration is in tenths of a second,
which is how far the source keeps it. -/
structure VoiceRecording where
  id : String
  channelID : ChannelID
  callsign : String
  role : String
  timestamp : ℤ
  durationTenths : ℕ
  fileURL : String
  sizeBytes : ℕ
deriving DecidableEq

/-- The payload of a client message after `json.Unmarshal`: the struct as far as it was
filled in, and whether the error was nil. -/
structure Decoded (α : Type) where
  value : α
  ok : Bool := true
deriving DecidableEq

inductive VideoRelay
  | offer | answer | ice
deriving DecidableEq

/-- Client to server messages, as `HandleSignal` switches on them. -/
inductive ClientSignal
  | identify (p : Decoded IdentifyPayload)
  | joinChannel (p : Decoded JoinChannelPayload)
  | createChannel (p : Decoded CreateChannelPayload)
  | pttDown
  | pttUp
  | alertTone (p : Decoded AlertTonePayload)
  | allCall (p : Decoded AllCallPayload)
  | location (p : Decoded LocationPayload)
  | ping (payload : String)
  | chatMessage (p : Decoded (ChatMessagePayload String))
  | videoCallStart (p : Decoded VideoSignalingPayload)
  | videoCallEnd
  | videoJoin (p : Decoded VideoSignalingPayload)
  | videoRelay (kind : VideoRelay) (p : Decoded VideoSignalingPayload)
  | other (type : String)
deriving DecidableEq

/-- Server to client messages. -/
inductive Signal
  | error (text : String)
  | clientWelcome (id callsign : String) (channelID : ChannelID)
  | channelList (channels : List ChannelInfo)
  | chatHistory (channelID : ChannelID) (messages : List (ChatMessagePayload Bytes))
  | floorStatus (p : FloorStatusPayload)
  | userTalking (p : TransmissionEventPayload)
  | userStopped (p : TransmissionEventPayload)
  | channelActivity (channelID : ChannelID) (isBusy : Bool) (speaker : String)
  | userList (channelID : ChannelID) (users : List String) (userDetails : List ChannelUserInfo)
      (count : ℕ)
  | location (p : LocationPayload)
  | alertTone (channelID : ChannelID) (toneType callsign : String)
  | allCall (p : AllCallPayload)
  | pong (payload : String)
  | chatMessage (p : ChatMessagePayload Bytes)
  | videoCallStart (p : VideoSignalingPayload)
  | videoCallEnd (p : VideoSignalingPayload)
  | videoJoin (p : VideoSignalingPayload)
  | videoRelay (kind : VideoRelay) (p : VideoSignalingPayload)
  | transmissionRecorded (rec : VoiceRecording)
deriving DecidableEq

def audioMagic0 : UInt8 := 0x52
def audioMagic1 : UInt8 := 0x41
def audioHeaderSize : ℕ := 8
def flagAudioFirst : UInt8 := 0x01
def flagAudioLast : UInt8 := 0x02
def flagAudioAllCall : UInt8 := 0x04

/-- The fields `ParseAudioHeaderQuick` returns. -/
structure AudioPacket where
  channelID : UInt8
  flags : UInt8
  seqNum : UInt32
  payload : Bytes
deriving DecidableEq

inductive AudioError
  | invalidAudioPacket
deriving DecidableEq

/-- `binary.BigEndian.Uint32` of four bytes. -/
def bigEndianUint32 (b0 b1 b2 b3 : UInt8) : UInt32 :=
  (b0.toUInt32 <<< 24) ||| (b1.toUInt32 <<< 16) ||| (b2.toUInt32 <<< 8) ||| b3.toUInt32

/-- The pattern is the length check: eight bytes are needed before the payload. -/
def parseAudioHeaderQuick (data : Bytes) : Except AudioError AudioPacket :=
  match data with
  | m0 :: m1 :: channelID :: flags :: s0 :: s1 :: s2 :: s3 :: payload =>
    if m0 ≠ audioMagic0 ∨ m1 ≠ audioMagic1 then .error .invalidAudioPacket
    else .ok ⟨channelID, flags, bigEndianUint32 s0 s1 s2 s3, payload⟩
  | _ => .error .invalidAudioPacket

structure AudioPacketHeader where
  channelID : UInt8
  flags : UInt8
  seqNum : UInt32
deriving DecidableEq

def parseAudioHeader (data : Bytes) : Except AudioError (AudioPacketHeader × Bytes) :=
  match data with
  | m0 :: m1 :: channelID :: flags :: s0 :: s1 :: s2 :: s3 :: payload =>
    if m0 ≠ audioMagic0 ∨ m1 ≠ audioMagic1 then .error .invalidAudioPacket
    else .ok (⟨channelID, flags, bigEndianUint32 s0 s1 s2 s3⟩, payload)
  | _ => .error .invalidAudioPacket

def encodeAudioPacket (channelID flags : UInt8) (seqNum : UInt32) (payload : Bytes) : Bytes :=
  [audioMagic0, audioMagic1, channelID, flags,
    (seqNum >>> 24).toUInt8, (seqNum >>> 16).toUInt8, (seqNum >>> 8).toUInt8, seqNum.toUInt8]
    ++ payload

end TwoWayRadio

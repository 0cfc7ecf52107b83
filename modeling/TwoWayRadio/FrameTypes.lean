import TwoWayRadio.AudioFormat
import TwoWayRadio.RoIPServer
import TwoWayRadio.SendQueue

/-! The queues hold bytes; `WritePump` tells audio from signalling by the first of them. -/
namespace TwoWayRadio
open Interleaving Transition

/-- The `type` of the envelope. -/
def Signal.type : Signal → String
  | error _ => "error"
  | clientWelcome .. => "client_welcome"
  | channelList _ => "channel_list"
  | chatHistory .. => "chat_history"
  | floorStatus _ => "floor_status"
  | userTalking _ => "user_talking"
  | userStopped _ => "user_stopped"
  | channelActivity .. => "channel_activity"
  | userList .. => "user_list"
  | location _ => "location_update"
  | alertTone .. => "alert_tone"
  | allCall _ => "all_call"
  | pong _ => "pong"
  | chatMessage _ => "chat_message"
  | videoCallStart _ => "video_call_start"
  | videoCallEnd _ => "video_call_end"
  | videoJoin _ => "video_join"
  | videoRelay .offer _ => "video_offer"
  | videoRelay .answer _ => "video_answer"
  | videoRelay .ice _ => "video_ice"
  | transmissionRecorded _ => "transmission_recorded"

/-- What `json.Marshal` makes of a payload; `nil` is left out of the envelope. -/
inductive PayloadJSON
  | failed
  | omitted
  | encoded (text : Bytes)

def utf8 (s : String) : Bytes := s.toUTF8.toList

/-- The members of a `SignalMessage`, in the order of its fields. -/
def envelope (type : String) (payload : Bytes) (timestamp : ℤ) : Bytes :=
  [0x7b] ++ utf8 "\"type\":\"" ++ utf8 type ++ utf8 "\"" ++ payload ++
    (if timestamp = 0 then [] else utf8 ",\"timestamp\":" ++ utf8 (toString timestamp)) ++ [0x7d]

/-- `json.Marshal` of a `SignalMessage`, for any encoding of the payloads. -/
def marshal (payload : Signal → PayloadJSON) (msg : Signal) (timestamp : ℤ) : Option Bytes :=
  match payload msg with
  | .failed => none
  | .omitted => some (envelope msg.type [] timestamp)
  | .encoded text => some (envelope msg.type (utf8 ",\"payload\":" ++ text) timestamp)

/-- What is put into the queue, if anything is. -/
def Frame.message (payload : Signal → PayloadJSON) : Frame → Option Bytes
  | .json msg timestamp => marshal payload msg timestamp
  | .binary data => some data

inductive MessageType
  | text | binary
deriving DecidableEq

/-- The type that `WritePump` writes a message of a queue with. -/
def msgType (queue : QueueKind) (message : Bytes) : MessageType :=
  match queue with
  | .highPri => .text
  | .send =>
    if audioHeaderSize ≤ message.length ∧ message[0]? = some audioMagic0 ∧
        message[1]? = some audioMagic1 then .binary
    else .text

/-- A JSON object does not begin as an audio packet does. -/
theorem marshal_not_wellFormed {payload : Signal → PayloadJSON} {msg : Signal} {timestamp : ℤ}
    {message : Bytes} (h : marshal payload msg timestamp = some message) :
    ¬ WellFormed message := by
  -- it begins with a brace, and a packet with the first magic byte
  have hbrace (p : Bytes) : (envelope msg.type p timestamp)[0]? = some 0x7b := rfl
  have hfirst : message[0]? = some 0x7b := by
    unfold marshal at h
    split at h
    · cases h
    · rw [← Option.some.inj h]
      exact hbrace _
    · rw [← Option.some.inj h]
      exact hbrace _
  rintro ⟨_, hmagic, _⟩
  rw [hfirst] at hmagic
  cases hmagic

/-- A frame that has its right place: audio in `send`, with a header. -/
def Frame.Placed (queue : QueueKind) : Frame → Prop
  | .json .. => True
  | .binary data => queue = .send ∧ WellFormed data

theorem Frame.Placed.isJSON {frame : Frame} (h : frame.Placed .highPri) : frame.isJSON = true := by
  cases frame with
  | json msg timestamp => rfl
  | binary data => cases h.1

theorem Frame.Placed.msgType_iff {queue : QueueKind} {frame : Frame} (h : frame.Placed queue)
    {payload : Signal → PayloadJSON} {message : Bytes} (hm : frame.message payload = some message) :
    msgType queue message = .binary ↔ frame.isJSON = false := by
  cases frame with
  | json msg timestamp =>
    have hnot := marshal_not_wellFormed hm
    cases queue with
    | highPri => exact iff_of_false (fun heq => by cases heq) fun heq => by cases heq
    | send =>
      have htext : msgType .send message = .text := if_neg hnot
      rw [htext]
      exact iff_of_false (fun heq => by cases heq) fun heq => by cases heq
  | binary data =>
    obtain ⟨rfl, hdata⟩ := h
    rw [← Option.some.inj hm]
    exact iff_of_true (if_pos hdata) rfl

/-- The audio that a call hands on has a header. -/
def HubOp.HeadsAudio : HubOp → Prop
  | broadcastAudio _ _ data | allCallAudio _ data => WellFormed data
  | _ => True

theorem HubOp.HeadsAudio.placed {op : HubOp} (hop : op.HeadsAudio) {h : Hub} {y : ClientRef}
    {queue : QueueKind} {frame : Frame} (hd : .enqueue y queue frame ∈ op.sends h) :
    frame.Placed queue := by
  cases frame with
  | json msg timestamp => trivial
  | binary data =>
    rcases HubOp.binary_of_sends hd with ⟨ch, sender, rfl⟩ | ⟨sender, rfl⟩
    · obtain ⟨z, _, heq⟩ := List.mem_map.mp hd
      exact ⟨(Delivery.enqueue.inj heq).2.1.symm, hop⟩
    · obtain ⟨z, _, heq⟩ := List.mem_map.mp hd
      exact ⟨(Delivery.enqueue.inj heq).2.1.symm, hop⟩

section Handlers

open Prog

theorem headsAudio_of_serves {r : Request} (hr : r.sendsAudio = false) {op : HubOp}
    (hop : op.servedBy r = true) : op.HeadsAudio := by
  cases op with
  | broadcastAudio ch sender data =>
    rw [HubOp.servedBy, hr] at hop
    cases hop
  | allCallAudio sender data =>
    rw [HubOp.servedBy, hr] at hop
    cases hop
  | _ => trivial

theorem headsAudio_handleBinaryAudio (x : ClientRef) (data : Bytes) :
    (Hub.handleBinaryAudio x data).All HubOp.HeadsAudio := by
  unfold Hub.handleBinaryAudio
  cases hparse : parseAudioHeaderQuick data with
  | error err => trivial
  | ok packet =>
    have hdata : WellFormed data := (parseAudioHeaderQuick_accepts data).mp ⟨packet, hparse⟩
    refine all_then trivial fun _ => all_when <| all_then trivial fun _ => all_when <|
      all_then trivial fun _ => all_when <| all_then trivial fun _ =>
      all_bind (all_when (all_perform trivial)) fun _ => all_bind ?_ fun _ =>
      all_then trivial fun _ => all_when (all_perform trivial)
    unfold Hub.fanOut
    split_ifs
    · exact all_perform hdata
    · exact all_perform hdata

theorem headsAudio_roipDatagram (datagram : Bytes) :
    (Hub.roipDatagram datagram).All HubOp.HeadsAudio := by
  unfold Hub.roipDatagram
  dsimp only
  cases hparse : parseAudioHeaderQuick (datagram.take 4096) with
  | error err => trivial
  | ok packet =>
    have hdata := (parseAudioHeaderQuick_accepts (datagram.take 4096)).mp ⟨packet, hparse⟩
    exact all_then trivial fun _ => all_when (all_perform hdata)

theorem headsAudio_prog (r : Request) : r.prog.All HubOp.HeadsAudio := by
  cases r with
  | audio x data => exact headsAudio_handleBinaryAudio x data
  | datagram data => exact headsAudio_roipDatagram data
  | connect x first => exact (serves_prog _).mono fun _ => headsAudio_of_serves rfl
  | signal x msg choices => exact (serves_prog _).mono fun _ => headsAudio_of_serves rfl
  | disconnect x => exact (serves_prog _).mono fun _ => headsAudio_of_serves rfl
  | totExpires ch timer => exact (serves_prog _).mono fun _ => headsAudio_of_serves rfl

end Handlers

/-- Every handler in progress hands on audio with a header only, and every frame that was enqueued
has its right place. -/
structure FramesPlaced (b : Bridge) : Prop where
  handlers : ServedWith (fun _ => HubOp.HeadsAudio) b.server
  placed : ∀ y queue frame, .enqueue y queue frame ∈ b.hub.outbox → frame.Placed queue

variable {b b' : Bridge} {e : BridgeEvent}

theorem framesPlaced_step (hb : FramesPlaced b) (h : bridgeStep b e = some b') :
    FramesPlaced b' := by
  have hsame (hhandlers : ServedWith (fun _ => HubOp.HeadsAudio) b'.server)
      (houtbox : b'.hub.outbox = b.hub.outbox) : FramesPlaced b' := by
    refine ⟨hhandlers, ?_⟩
    rw [houtbox]
    exact hb.placed
  by_cases he : ∀ e', e ≠ .server e'
  · obtain ⟨houtbox, _, hserver | ⟨r, hr⟩⟩ := bridgeStep_quiet he h
    · refine hsame ?_ houtbox
      rw [hserver]
      exact hb.handlers
    · exact hsame (ServedWith.step headsAudio_prog hb.handlers hr) houtbox
  obtain ⟨e', he'⟩ := not_forall.mp he
  obtain rfl := not_not.mp he'
  have hstep := (bridgeStep_server h).1
  have hhandlers := ServedWith.step headsAudio_prog hb.handlers hstep
  rcases serverStep_part (f := Hub.outbox) (fun _ _ _ => rfl) hstep with
    houtbox | ⟨i, op, k, rfl, hk, hhub⟩
  · exact hsame hhandlers houtbox
  · -- a call of a handler is the only step that enqueues
    obtain ⟨_, _, _, hop⟩ := ServedWith.request hb.handlers hk
    refine ⟨hhandlers, fun y queue frame hd => ?_⟩
    rw [Bridge.hub, hhub, HubOp.outbox_sends] at hd
    rcases List.mem_append.mp hd with hd | hd
    · exact hb.placed y queue frame hd
    · exact hop.placed hd

/-- In any run of the hub and the RoIP server, `WritePump` writes the messages that were enqueued as
audio as binary frames and no others, and what is in `highPri` is signalling. -/
theorem frame_types (payload : Signal → PayloadJSON) (cfg : Config)
    (recorder : Option AudioRecorder) (udpPort : ℕ) (bound : Bool) (heap : Clients) (now : ℤ)
    {es : List BridgeEvent}
    (hrun : Run bridgeStep (Bridge.init cfg recorder udpPort bound heap now) es b) {y : ClientRef}
    {queue : QueueKind} {frame : Frame} (hd : .enqueue y queue frame ∈ b.hub.outbox) :
    (queue = .highPri → frame.isJSON = true) ∧
      ∀ message, frame.message payload = some message →
        (msgType queue message = .binary ↔ frame.isJSON = false) := by
  have hb : FramesPlaced b := hrun.invariant (I := FramesPlaced)
    (fun _ _ _ hb h => framesPlaced_step hb h)
    ⟨ServedWith.init _, fun y queue frame hd => (List.not_mem_nil hd).elim⟩
  have hplaced := hb.placed y queue frame hd
  refine ⟨?_, fun message hm => hplaced.msgType_iff hm⟩
  rintro rfl
  exact hplaced.isJSON

/-- A unit connects, and a RoIP device speaks on its channel. -/
def roipTalk : List BridgeEvent :=
  (uninterrupted (.connect 0 0) 10).map .server ++
    [.receive ⟨"10.0.0.7", 4000⟩ (encodeAudioPacket 1 0 1 [0, 0]), .server (.advance .roip),
      .server (.advance .roip)]

theorem frame_types_roipTalk : ∃ b, Run bridgeStep
    (Bridge.init defaultConfig none 5005 true sampleClients 0) roipTalk b ∧
    msgType .send (encodeAudioPacket 1 0 1 [0, 0]) = .binary := by
  have hrun := run_get bridgeStep (Bridge.init defaultConfig none 5005 true sampleClients 0)
    roipTalk (by decide +kernel)
  have hd : Delivery.enqueue 0 .send (.binary (encodeAudioPacket 1 0 1 [0, 0])) ∈
      ((roipTalk.foldlM bridgeStep (Bridge.init defaultConfig none 5005 true sampleClients 0)).get
        (by decide +kernel)).hub.outbox := by decide +kernel
  have htypes :=
    frame_types (fun _ => .omitted) defaultConfig none 5005 true sampleClients 0 hrun hd
  exact ⟨_, hrun, (htypes.2 _ rfl).mpr rfl⟩

end TwoWayRadio

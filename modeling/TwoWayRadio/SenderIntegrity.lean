import TwoWayRadio.FloorNames
import TwoWayRadio.HubEffects
import TwoWayRadio.HubRecorder
import TwoWayRadio.RecordingPaths
import TwoWayRadio.VideoSlot

/-! Sender integrity: whose identity the messages and entries bear that a client's message
brings about. -/
namespace TwoWayRadio
open Interleaving Transition

/-- What a message or an entry says of whom it comes from; a field that it lacks is `none`. -/
structure Identity where
  id : Option String := none
  callsign : Option String := none
  role : Option String := none
  channelID : Option ChannelID := none

/-- Every field that is there is the client's. -/
structure Identity.Of (c : Client) (i : Identity) : Prop where
  id : ∀ id ∈ i.id, id = c.id
  callsign : ∀ callsign ∈ i.callsign, callsign = c.callsign
  role : ∀ role ∈ i.role, role = c.role
  channelID : ∀ ch ∈ i.channelID, ch = c.currentChannelID

/-- A text field that is omitted when it is empty. -/
def nonempty (s : String) : Option String := if s = "" then none else some s

def ChatMessagePayload.identity {Text : Type} (p : ChatMessagePayload Text) : Identity :=
  ⟨some p.senderID, some p.callsign, none, some p.channelID⟩

def VideoSignalingPayload.identity (p : VideoSignalingPayload) : Identity :=
  ⟨some p.senderID, some p.callsign, none, some p.channelID⟩

def LocationPayload.identity (p : LocationPayload) : Identity :=
  ⟨some p.userID, some p.callsign, none, none⟩

def TransmissionEventPayload.identity (p : TransmissionEventPayload) : Identity :=
  ⟨some p.userID, some p.callsign, none, some p.channelID⟩

def TransmissionBuffer.identity (tx : TransmissionBuffer) : Identity :=
  ⟨some tx.speakerID, some tx.callsign, some tx.role, some tx.channelID⟩

/-- What the handler that a thread runs has found so far: its request, the channel whose floor it
asked for with the callsign of who held it, and the recording of the transmission that it ended. -/
structure Findings where
  request : Option Request := none
  holder : Option (ChannelID × String) := none
  recording : Option VoiceRecording := none

def Findings.after (op : HubOp) (h : Hub) (found : Findings) : Findings :=
  match op with
  | .requestFloor ch _ =>
    { found with holder := (h.holder ch).map fun y => (ch, (h.heap y).callsign) }
  | .onTransmissionEnd ch =>
    { found with
      recording := (h.activeTX ch).map fun tx => AudioRecorder.recordingOf tx ch h.now }
  | _ => found

theorem Findings.after_request (op : HubOp) (h : Hub) (found : Findings) :
    (found.after op h).request = found.request := by
  cases op <;> rfl

/-- A handler that starts has found nothing but its request. -/
def findingObserver : Observer (Thread → Findings) where
  starts := fun r g => Function.update g r.thread { request := some r }
  sees := fun i op _ h g => Function.update g i ((g i).after op h)

namespace Signal

def identity : Signal → Identity
  | chatMessage p => p.identity
  | videoCallStart p | videoCallEnd p | videoJoin p | videoRelay _ p => p.identity
  | location p => p.identity
  | userTalking p | userStopped p => p.identity
  | allCall p => ⟨some p.senderID, some p.callsign, some p.role, none⟩
  | alertTone ch _ callsign => ⟨none, some callsign, none, some ch⟩
  | floorStatus p => ⟨nonempty p.speakerID, nonempty p.currentSpeaker, none, some p.channelID⟩
  | channelActivity ch isBusy speaker =>
    ⟨none, if isBusy then some speaker else none, none, some ch⟩
  | transmissionRecorded r => ⟨none, some r.callsign, some r.role, some r.channelID⟩
  | _ => {}

/-- The recording that is announced is that of the transmission which was ended, and a floor is
denied under the callsign of its holder. -/
def NamesFound (found : Findings) : Signal → Prop
  | transmissionRecorded r => found.recording = some r
  | floorStatus p =>
    p.status = .denied ∧ p.speakerID = "" ∧ found.holder = some (p.channelID, p.currentSpeaker)
  | _ => False

/-- The message is about the channel of `c`, and bears the identity of `c` or of the speaker that
the handler has found there. -/
def SignedBy (c : Client) (found : Findings) (msg : Signal) : Prop :=
  (∀ ch ∈ msg.identity.channelID, ch = c.currentChannelID) ∧
    (msg.identity.Of c ∨ msg.NamesFound found)

theorem SignedBy.of {c : Client} {found : Findings} {msg : Signal} (h : msg.identity.Of c) :
    msg.SignedBy c found :=
  ⟨h.channelID, Or.inl h⟩

end Signal

namespace ClientSignal

/-- The messages by which a client speaks: texts, calls, tones, locations, videos and the key. -/
def speaks : ClientSignal → Bool
  | pttDown | pttUp | alertTone _ | allCall _ | location _ | chatMessage _ | videoCallStart _
  | videoCallEnd | videoJoin _ | videoRelay .. => true
  | _ => false

/-- The message without what its payload says of its own sender, channel and time. -/
def unsigned : ClientSignal → ClientSignal
  | allCall p => allCall { p with value :=
      { p.value with senderID := "", callsign := "", role := "", timestamp := 0 } }
  | location p => location { p with value := { p.value with userID := "", callsign := "" } }
  | chatMessage p => chatMessage { p with value :=
      { p.value with id := "", channelID := 0, senderID := "", callsign := "", timestamp := 0 } }
  | videoCallStart p => videoCallStart { p with value :=
      { p.value with channelID := 0, senderID := "", callsign := "" } }
  | videoJoin p => videoJoin { p with value :=
      { p.value with channelID := 0, senderID := "", callsign := "" } }
  | videoRelay kind p => videoRelay kind { p with value :=
      { p.value with channelID := 0, senderID := "", callsign := "" } }
  | msg => msg

end ClientSignal

/-- No handler reads what a payload says of its sender. -/
theorem handleSignal_unsigned (x : ClientRef) (msg : ClientSignal) (choices : Choices) :
    Hub.handleSignal x msg.unsigned choices = Hub.handleSignal x msg choices := by
  cases msg <;> rfl

/-- The two client values have the same ID, callsign, role and channel. -/
structure Client.SamePerson (a b : Client) : Prop where
  id : a.id = b.id
  callsign : a.callsign = b.callsign
  role : a.role = b.role
  current : a.currentChannelID = b.currentChannelID

namespace HubOp

/-- The call is made for `x`, and what it sends or keeps bears the identity of `f`, or of the
speaker that the handler knows of. -/
def SignedBy (x : ClientRef) (f : Client) (told : Findings) : HubOp → Prop
  | currentChannel y | endVideo y | fields y => y = x
  | appendChat y p => y = x ∧ p.identity.Of f
  | appendVoice ch p => ch = f.currentChannelID ∧ p.identity.Of f
  | startVideo y p => y = x ∧ p.identity.Of f
  | setLocation y l => y = x ∧ l.identity.Of f
  | broadcastAll msg | broadcastSignal _ msg | sendJSON _ msg | sendPriorityJSON _ msg =>
    msg.SignedBy f told
  | requestFloor ch y | releaseFloor ch y | onTransmissionStart ch y =>
    ch = f.currentChannelID ∧ y = x
  | onTransmissionEnd ch => ch = f.currentChannelID
  | clientByID _ | clock | addTransmission | addPreemption => True
  | _ => False

/-- What the calls of a handler of `x` answer while `x` is who `f` is. -/
def Answers (x : ClientRef) (f : Client) : (op : HubOp) → op.Res → Prop
  | fields y, c => y = x → c.SamePerson f
  | currentChannel y, r | appendChat y _, r | startVideo y _, r =>
    y = x → ∀ ch ∈ r, ch = f.currentChannelID
  | endVideo y, r => y = x → ∀ ch ∈ r.1, ch = f.currentChannelID
  | onTransmissionEnd ch, r => ∀ recording ∈ r, recording.channelID = ch
  | _, _ => True

/-- What a handler is told of other speakers by the answer of a call. -/
def reveals : (op : HubOp) → op.Res → Findings → Findings
  | requestFloor ch _, r, told => { told with holder := (nonempty r.speaker).map (Prod.mk ch) }
  | onTransmissionEnd _, r, told => { told with recording := r }
  | _, _, told => told

end HubOp

/-- A handler of `x` that signs as `f`. -/
def signing (x : ClientRef) (f : Client) : Prog.Protocol HubOp.Res Findings where
  ok := fun told op => op.SignedBy x f told
  next := fun told op r => op.reveals r told
  can := fun op r => op.Answers x f r

section Follows

open Prog

variable {α : Type} {x : ClientRef} {f c : Client} {ch : ChannelID} {told : Findings}

abbrev Signs (x : ClientRef) (f : Client) (told : Findings) (p : HubProg α) : Prop :=
  p.Follows (signing x f) (fun _ _ => True) told

theorem signs_when {q : Prop} [Decidable q] {p : HubProg Unit} (hp : Signs x f told p) :
    Signs x f told (when q p) := by
  unfold when
  split_ifs
  · exact hp
  · trivial

theorem signs_ifSome {β : Type} {o : Option β} {p : β → HubProg Unit}
    (hp : ∀ a ∈ o, Signs x f told (p a)) : Signs x f told (ifSome o p) := by
  cases o with
  | none => trivial
  | some a => exact hp a rfl

/-- A message about the sender itself, on its channel. -/
theorem signed_keyedUp (hch : ch = f.currentChannelID) (hc : c.SamePerson f) :
    (Hub.keyedUp ch c).SignedBy f told ∧ (Hub.unkeyed ch c).SignedBy f told := by
  have hof : (TransmissionEventPayload.mk ch c.id c.callsign).identity.Of f := by
    refine ⟨?_, ?_, ?_, ?_⟩ <;> rintro _ ⟨⟩
    · exact hc.id
    · exact hc.callsign
    · exact hch
  exact ⟨.of hof, .of hof⟩

theorem signed_channelBusy (hch : ch = f.currentChannelID) (hc : c.SamePerson f) :
    (Hub.channelBusy ch c).SignedBy f told := by
  refine .of ⟨?_, ?_, ?_, ?_⟩ <;> rintro _ ⟨⟩
  · exact hc.callsign
  · exact hch

theorem signed_channelIdle (hch : ch = f.currentChannelID) :
    (Hub.channelIdle ch).SignedBy f told := by
  refine .of ⟨?_, ?_, ?_, ?_⟩ <;> rintro _ ⟨⟩
  exact hch

/-- A floor status names its speaker in two fields that may be missing. -/
theorem signed_floorStatus {p : FloorStatusPayload} (hch : p.channelID = f.currentChannelID)
    (hid : p.speakerID = f.id ∨ p.speakerID = "")
    (hspeaker : p.currentSpeaker = f.callsign ∨ p.currentSpeaker = "") :
    (Signal.floorStatus p).SignedBy f told := by
  refine .of ⟨fun id hmem => ?_, fun callsign hmem => ?_, ?_, ?_⟩
  · have hval : nonempty p.speakerID = some id := hmem
    unfold nonempty at hval
    split_ifs at hval with hempty
    rw [← Option.some.inj hval]
    exact hid.resolve_right hempty
  · have hval : nonempty p.currentSpeaker = some callsign := hmem
    unfold nonempty at hval
    split_ifs at hval with hempty
    rw [← Option.some.inj hval]
    exact hspeaker.resolve_right hempty
  · rintro _ ⟨⟩
  · rintro _ ⟨⟩
    exact hch

/-- Who is denied the floor is told the callsign that came with the answer. -/
theorem signed_denied {reason speaker : String} (hch : ch = f.currentChannelID)
    (htold : told.holder = (nonempty speaker).map (Prod.mk ch)) :
    (Signal.floorStatus ⟨ch, .denied, reason, speaker, ""⟩).SignedBy f told := by
  by_cases hempty : speaker = ""
  · exact signed_floorStatus hch (.inr rfl) (.inr hempty)
  · have hspeaker : nonempty speaker = some speaker := if_neg hempty
    rw [hspeaker] at htold
    refine ⟨?_, Or.inr ⟨rfl, rfl, htold⟩⟩
    rintro _ ⟨⟩
    exact hch

theorem signed_video {p : VideoSignalingPayload} (hid : p.senderID = f.id)
    (hcallsign : p.callsign = f.callsign) (hch : p.channelID = f.currentChannelID) :
    p.identity.Of f := by
  refine ⟨?_, ?_, ?_, ?_⟩ <;> rintro _ ⟨⟩
  · exact hid
  · exact hcallsign
  · exact hch

theorem signed_stampVideo (hc : c.SamePerson f) (p : VideoSignalingPayload) :
    (Hub.stampVideo c p).identity.Of f :=
  signed_video hc.id hc.callsign hc.current

theorem signs_announceIdle (hch : ch = f.currentChannelID) (hc : c.SamePerson f) :
    Signs x f told (Hub.announceIdle ch c) := by
  refine follows_then ?_ fun _ _ => follows_then (signed_keyedUp hch hc).2 fun _ _ =>
    follows_then (signed_channelIdle hch) fun _ _ => trivial
  exact signed_floorStatus hch (.inr rfl) (.inr rfl)

/-- The recording that a release or a preemption ends is of the sender's channel. -/
theorem signs_finishRecording (hch : ch = f.currentChannelID) :
    (Hub.finishRecording ch).Follows (signing x f) (fun _ _ => True) told := by
  refine follows_then hch fun saved hsaved => follows_bind (Q := fun _ _ => True) ?_
    fun _ _ _ => trivial
  refine signs_ifSome fun r hr => follows_then ?_ fun _ _ => trivial
  refine ⟨?_, Or.inr hr⟩
  rintro _ ⟨⟩
  exact (hsaved r hr).trans hch

theorem signs_answerRequest {reply : FloorReply} (hch : ch = f.currentChannelID)
    (htold : told.holder = (nonempty reply.speaker).map (Prod.mk ch)) :
    Signs x f told (Hub.answerRequest x ch reply) := by
  unfold Hub.answerRequest
  split_ifs
  · refine follows_then trivial fun _ _ => follows_bind (Q := fun _ _ => True)
      (signs_ifSome fun y _ => ?_) fun _ _ _ => ?_
    · -- the preempted client is told who preempts it
      refine follows_then trivial fun _ _ => follows_bind (signs_finishRecording hch)
        fun _ _ _ => follows_then rfl fun c hc => follows_then ?_ fun _ _ => trivial
      replace hc : c.SamePerson f := hc rfl
      exact signed_floorStatus hch (.inl hc.id) (.inl hc.callsign)
    · refine follows_then ⟨hch, rfl⟩ fun _ _ => follows_then rfl fun c hc => ?_
      replace hc : c.SamePerson f := hc rfl
      refine follows_then (signed_floorStatus hch (.inl hc.id) (.inl hc.callsign)) fun _ _ =>
        follows_then (signed_keyedUp hch hc).1 fun _ _ =>
        follows_then (signed_channelBusy hch hc) fun _ _ => trivial
  · exact follows_then (signed_denied hch htold) fun _ _ => trivial

/-- An error text bears no identity. -/
theorem signed_error (text : String) : (Signal.error text).SignedBy f told := by
  refine .of ⟨?_, ?_, ?_, ?_⟩ <;> rintro _ ⟨⟩

theorem signs_handlePTTDown : Signs x f told (Hub.handlePTTDown x) := by
  refine follows_then rfl fun r hr => ?_
  cases r with
  | none => exact follows_then (signed_error _) fun _ _ => trivial
  | some ch =>
    have hch : ch = f.currentChannelID := hr rfl ch rfl
    exact follows_then ⟨hch, rfl⟩ fun reply _ => signs_answerRequest hch rfl

theorem signs_handlePTTUp : Signs x f told (Hub.handlePTTUp x) := by
  refine follows_then rfl fun r hr => signs_ifSome fun ch hmem => ?_
  have hch : ch = f.currentChannelID := hr rfl ch hmem
  refine follows_then ⟨hch, rfl⟩ fun released _ => signs_when ?_
  refine follows_bind (signs_finishRecording hch) fun saved _ _ => follows_then rfl fun c hc => ?_
  replace hc : c.SamePerson f := hc rfl
  refine follows_bind (Q := fun _ _ => True) (signs_ifSome fun r _ => ?_)
    fun _ _ _ => signs_announceIdle hch hc
  refine follows_then ⟨hch, ?_, ?_, ?_, ?_⟩ fun _ _ => trivial <;> rintro _ ⟨⟩
  · exact hc.id
  · exact hc.callsign
  · exact hch

theorem signs_chatSignal (p : Decoded (ChatMessagePayload String)) (choices : Choices) :
    Signs x f told (Hub.chatSignal x p choices) := by
  refine signs_when (follows_then trivial fun now _ => follows_then rfl fun c hc =>
    follows_then trivial fun stamp _ => ?_)
  replace hc : c.SamePerson f := hc rfl
  have hof : ∀ {message : ChatMessagePayload Bytes}, message.senderID = c.id →
      message.callsign = c.callsign → message.channelID = c.currentChannelID →
      message.identity.Of f := by
    intro message hid hcallsign hch
    refine ⟨?_, ?_, ?_, ?_⟩ <;> rintro _ ⟨⟩
    · exact hid.trans hc.id
    · exact hcallsign.trans hc.callsign
    · exact hch.trans hc.current
  exact follows_then ⟨rfl, hof rfl rfl rfl⟩ fun r _ => signs_ifSome fun ch _ =>
    follows_then (.of (hof rfl rfl rfl)) fun _ _ => trivial

theorem signs_videoRelaySignal (kind : VideoRelay) (p : Decoded VideoSignalingPayload) :
    Signs x f told (Hub.videoRelaySignal x kind p) := by
  refine signs_when (follows_then rfl fun c hc => ?_)
  have hvideo := signed_stampVideo (hc rfl) p.value
  dsimp only
  split_ifs
  · exact follows_then trivial fun target _ => signs_ifSome fun y _ =>
      follows_then (.of hvideo) fun _ _ => trivial
  · exact follows_then rfl fun r _ => signs_ifSome fun ch _ =>
      follows_then (.of hvideo) fun _ _ => trivial

theorem signs_videoEndSignal : Signs x f told (Hub.videoEndSignal x) := by
  refine follows_then rfl fun r hr => follows_then rfl fun c hc => signs_when ?_
  refine signs_ifSome fun ch hmem => follows_then (.of ?_) fun _ _ => trivial
  have hch : ch = f.currentChannelID := hr rfl ch hmem
  exact signed_video (hc rfl).id (hc rfl).callsign hch

theorem signs_locationSignal (p : Decoded LocationPayload) :
    Signs x f told (Hub.locationSignal x p) := by
  refine signs_when (follows_then rfl fun c hc => ?_)
  have hof : LocationPayload.identity { p.value with userID := c.id, callsign := c.callsign }
      |>.Of f := by
    refine ⟨?_, ?_, ?_, ?_⟩ <;> rintro _ ⟨⟩
    · exact (hc rfl).id
    · exact (hc rfl).callsign
  exact follows_then ⟨rfl, hof⟩ fun _ _ => follows_then rfl fun r _ => signs_ifSome fun ch _ =>
    follows_then (.of hof) fun _ _ => trivial

theorem signs_allCallSignal (p : Decoded AllCallPayload) :
    Signs x f told (Hub.allCallSignal x p) := by
  refine signs_when (follows_then rfl fun c hc => follows_then trivial fun now _ =>
    follows_then (.of ⟨?_, ?_, ?_, ?_⟩) fun _ _ => trivial) <;> rintro _ ⟨⟩
  · exact (hc rfl).id
  · exact (hc rfl).callsign
  · exact (hc rfl).role

/-- Whatever a client says, its handler signs with the client's identity. -/
theorem signs_handleSignal {msg : ClientSignal} (hmsg : msg.speaks = true) (choices : Choices) :
    Signs x f told (Hub.handleSignal x msg choices) := by
  cases msg with
  | pttDown => exact signs_handlePTTDown
  | pttUp => exact signs_handlePTTUp
  | alertTone p =>
    refine follows_then rfl fun r hr => signs_ifSome fun ch hmem => follows_then rfl fun c hc =>
      follows_then (.of ⟨?_, ?_, ?_, ?_⟩) fun _ _ => trivial <;> rintro _ ⟨⟩
    · exact (hc rfl).callsign
    · exact hr rfl ch hmem
  | allCall p => exact signs_allCallSignal p
  | location p => exact signs_locationSignal p
  | chatMessage p => exact signs_chatSignal p choices
  | videoCallStart p =>
    refine follows_then rfl fun c hc => ?_
    have hvideo := signed_stampVideo (hc rfl) p.value
    exact follows_then ⟨rfl, hvideo⟩ fun r _ => signs_ifSome fun ch _ =>
      follows_then (.of hvideo) fun _ _ => trivial
  | videoCallEnd => exact signs_videoEndSignal
  | videoJoin p =>
    refine follows_then rfl fun c hc => follows_then rfl fun r _ => signs_ifSome fun ch _ =>
      follows_then (.of ?_) fun _ _ => trivial
    exact signed_stampVideo (hc rfl) p.value
  | videoRelay kind p => exact signs_videoRelaySignal kind p
  | identify p => cases hmsg
  | joinChannel p => cases hmsg
  | createChannel p => cases hmsg
  | ping payload => cases hmsg
  | other type => cases hmsg

end Follows

/-- The recordings that the hub keeps. -/
def Hub.recordings (h : Hub) : List VoiceRecording := h.recorder.elim [] fun r => r.recordings

/-- What a step on behalf of `x` sends and keeps bears the identity of `x`, on the channel of `x`;
a denied floor names the holder that the handler has found, and the recording of a transmission
that ends, in the archive and where it is announced, is that of the speaker who was recorded. -/
structure SignedStep (x : ClientRef) (found : Findings) (h h' : Hub) : Prop where
  sent : ∀ d ∈ h'.outbox.drop h.outbox.length, ∃ y queue msg now,
    d = .enqueue y queue (.json msg now) ∧ msg.SignedBy (h.heap x) found
  chats : ∀ ch, ∀ m ∈ h'.chatHistory ch, m ∈ h.chatHistory ch ∨
    ch = (h.heap x).currentChannelID ∧ m.identity.Of (h.heap x)
  videos : ∀ ch v, h'.activeVideoByChannel ch = some v → h.activeVideoByChannel ch = some v ∨
    ch = (h.heap x).currentChannelID ∧ v.identity.Of (h.heap x)
  locations : ∀ y, (h'.heap y).location = (h.heap y).location ∨
    y = x ∧ ∃ l, (h'.heap x).location = some l ∧ l.identity.Of (h.heap x)
  transmissions : ∀ ch tx, h'.activeTX ch = some tx → h.activeTX ch = some tx ∨
    ch = (h.heap x).currentChannelID ∧ tx.identity.Of (h.heap x)
  recordings : ∀ e ∈ h'.recordings, e ∈ h.recordings ∨
    e.channelID = (h.heap x).currentChannelID ∧ ∃ tx, h.activeTX e.channelID = some tx ∧
      e = AudioRecorder.recordingOf tx e.channelID h.now
  floors : ∀ ch y, h'.holder ch = some y → h.holder ch = some y ∨
    ch = (h.heap x).currentChannelID ∧ y = x
  clients : ∀ y, (h'.heap y).SamePerson (h.heap y)

section Calls

variable {x y : ClientRef} {f : Client} {told found : Findings} {op : HubOp} {h : Hub}
  {ch : ChannelID}

theorem Client.SamePerson.symm {a b : Client} (hab : a.SamePerson b) : b.SamePerson a :=
  ⟨hab.id.symm, hab.callsign.symm, hab.role.symm, hab.current.symm⟩

theorem Client.SamePerson.trans {a b c : Client} (hab : a.SamePerson b) (hbc : b.SamePerson c) :
    a.SamePerson c :=
  ⟨hab.id.trans hbc.id, hab.callsign.trans hbc.callsign, hab.role.trans hbc.role,
    hab.current.trans hbc.current⟩

theorem Identity.Of.person {i : Identity} {a b : Client} (hi : i.Of a) (hab : a.SamePerson b) :
    i.Of b where
  id := fun id hid => (hi.id id hid).trans hab.id
  callsign := fun callsign hc => (hi.callsign callsign hc).trans hab.callsign
  role := fun role hr => (hi.role role hr).trans hab.role
  channelID := fun ch hch => (hi.channelID ch hch).trans hab.current

/-- What a handler was told is what it has found. -/
structure Findings.Reports (told found : Findings) : Prop where
  holder : ∀ held ∈ told.holder, found.holder = some held
  recording : ∀ r ∈ told.recording, found.recording = some r

theorem Signal.NamesFound.reported {msg : Signal} (hmsg : msg.NamesFound told)
    (htold : told.Reports found) : msg.NamesFound found := by
  cases msg with
  | transmissionRecorded r => exact htold.recording r hmsg
  | floorStatus p => exact ⟨hmsg.1, hmsg.2.1, htold.holder _ hmsg.2.2⟩
  | _ => exact hmsg.elim

theorem Signal.SignedBy.person {msg : Signal} {a b : Client} (hmsg : msg.SignedBy a told)
    (hab : a.SamePerson b) (htold : told.Reports found) : msg.SignedBy b found :=
  ⟨fun ch hch => (hmsg.1 ch hch).trans hab.current,
    hmsg.2.imp (fun hown => hown.person hab) fun hnames => hnames.reported htold⟩

/-- The client whose fields a call sets. -/
def HubOp.sets : HubOp → Option ClientRef
  | setCallsign y _ | setRole y _ | setLocation y _ | setCurrentChannel y _ | register y _ => some y
  | _ => none

theorem heap_run (hop : op.sets ≠ some y) : (op.run h).2.heap y = h.heap y := by
  have hother : ∀ {z : ClientRef} {c : Client}, some z ≠ some y →
      (h.setClient z c).heap y = h.heap y := by
    intro z c hz
    exact Function.update_of_ne (fun heq => hz (congrArg some heq.symm)) ..
  cases op with
  | setCallsign z callsign => exact hother hop
  | setRole z role => exact hother hop
  | setLocation z l => exact hother hop
  | setCurrentChannel z new => exact hother hop
  | register z first =>
    have hz : y ≠ z := fun heq => hop (congrArg some heq.symm)
    show (h.register z first).2.heap y = h.heap y
    rw [Hub.register_eq]
    cases h.registrationChannel z first with
    | none => rfl
    | some ch => exact Function.update_of_ne hz ..
  | endVideo z =>
    simp only [HubOp.run]
    split_ifs <;> rfl
  | addSubscriber ch z => exact congrFun (Hub.onChannel_heap ..) y
  | removeSubscriber ch z => exact congrFun (Hub.onChannel_heap ..) y
  | requestFloor ch z => exact congrFun (Hub.onChannel_heap ..) y
  | releaseFloor ch z => exact congrFun (Hub.onChannel_heap ..) y
  | handleTOT ch timer => exact congrFun (Hub.onChannel_heap ..) y
  | onTransmissionStart ch z => exact congrFun (Hub.onRecorder_heap ..) y
  | appendAudio ch payload => exact congrFun (Hub.onRecorder_heap ..) y
  | onTransmissionEnd ch => exact congrFun (Hub.onRecorder_heap ..) y
  | _ => rfl

/-- A signing handler sets nothing but the location of its client. -/
theorem heap_signed (hop : op.SignedBy x f told) (y : ClientRef) :
    (op.run h).2.heap y = h.heap y ∨ y = x ∧ ∃ l, l.identity.Of f ∧
      (op.run h).2.heap x = { h.heap x with location := some l } := by
  by_cases hsets : op.sets = some y
  swap
  · exact Or.inl (heap_run hsets)
  cases op with
  | setLocation z l =>
    obtain ⟨rfl, hof⟩ := hop
    exact Or.inr ⟨(Option.some.inj hsets).symm, l, hof, Function.update_self ..⟩
  | register z first => exact hop.elim
  | setCallsign z callsign => exact hop.elim
  | setRole z role => exact hop.elim
  | setCurrentChannel z new => exact hop.elim
  | _ => cases hsets

theorem answers_run (hf : f.SamePerson (h.heap x)) (op : HubOp) : op.Answers x f (op.run h).1 := by
  have hread : ∀ {y : ClientRef} {r : Option ChannelID}, r = h.channelOf y → y = x →
      ∀ ch ∈ r, ch = f.currentChannelID := by
    rintro y r rfl rfl ch hch
    exact (Hub.channelOf_eq hch).trans hf.current.symm
  cases op with
  | fields y =>
    rintro rfl
    exact hf.symm
  | currentChannel y => exact hread rfl
  | appendChat y p => exact hread rfl
  | startVideo y p => exact hread rfl
  | endVideo y => exact hread rfl
  | onTransmissionEnd ch =>
    intro r hr
    rw [HubOp.onTransmissionEnd_saved] at hr
    split_ifs at hr
    · obtain ⟨tx, _, htx⟩ := Option.bind_eq_some_iff.mp hr
      split_ifs at htx
      rw [← Option.some.inj htx]
      rfl
    · obtain ⟨tx, _, htx⟩ := Option.bind_eq_some_iff.mp hr
      split_ifs at htx
    · cases hr
  | _ => trivial

/-- The callsign that comes with the answer to a request is the holder's. -/
theorem requestFloor_speaker {callsign : String}
    (hspeaker : callsign ∈ nonempty ((HubOp.requestFloor ch y).run h).1.speaker) :
    (h.holder ch).map (fun z => (ch, (h.heap z).callsign)) = some (ch, callsign) := by
  unfold nonempty at hspeaker
  split_ifs at hspeaker with hempty
  · cases hspeaker
  rw [← Option.some.inj hspeaker]
  simp only [HubOp.run] at hempty ⊢
  cases hc : h.channels.lookup ch with
  | none =>
    rw [Hub.onChannel, hc] at hempty
    exact absurd rfl hempty
  | some c =>
    rw [Hub.onChannel_fst hc] at hempty ⊢
    rw [Hub.holder_of_lookup hc]
    unfold Channel.requestFloor at hempty ⊢
    split
    · -- only a floor that is held is answered with a callsign
      rename_i z hbusy hz
      rw [hbusy, hz] at hempty
      dsimp only at hempty
      rw [hz]
      split_ifs at hempty ⊢
      · exact absurd rfl hempty
      · rfl
      · rfl
    · rename_i hno
      split at hempty
      · rename_i z hbusy hz
        exact absurd hz (hno z hbusy)
      · exact absurd rfl hempty

/-- What a call tells its handler is what the hub had. -/
theorem reports_run (htold : told.Reports found) (op : HubOp) :
    (op.reveals (op.run h).1 told).Reports (found.after op h) := by
  cases op with
  | requestFloor ch y =>
    refine ⟨fun held hmem => ?_, htold.recording⟩
    obtain ⟨callsign, hspeaker, rfl⟩ := Option.map_eq_some_iff.mp hmem
    exact requestFloor_speaker hspeaker
  | onTransmissionEnd ch =>
    refine ⟨htold.holder, fun r hr => ?_⟩
    replace hr : r ∈ ((HubOp.onTransmissionEnd ch).run h).1 := hr
    rw [HubOp.onTransmissionEnd_saved] at hr
    split_ifs at hr
    · obtain ⟨tx, htx, hsaved⟩ := Option.bind_eq_some_iff.mp hr
      split_ifs at hsaved
      show (h.activeTX ch).map _ = some r
      rw [htx]
      exact hsaved
    · obtain ⟨tx, _, hsaved⟩ := Option.bind_eq_some_iff.mp hr
      split_ifs at hsaved
    · cases hr
  | _ => exact htold

/-- What a call of a signing handler sends. -/
theorem sends_signed (hop : op.SignedBy x f told) {d : Delivery} (hd : d ∈ op.sends h) :
    ∃ y queue msg now, d = .enqueue y queue (.json msg now) ∧ msg.SignedBy f told := by
  cases op with
  | broadcastAll msg =>
    obtain ⟨y, _, rfl⟩ := List.mem_map.mp hd
    exact ⟨y, _, msg, _, rfl, hop⟩
  | broadcastSignal ch msg =>
    obtain ⟨y, _, rfl⟩ := List.mem_map.mp hd
    exact ⟨y, _, msg, _, rfl, hop⟩
  | sendJSON y msg => exact ⟨y, _, msg, _, List.mem_singleton.mp hd, hop⟩
  | sendPriorityJSON y msg => exact ⟨y, _, msg, _, List.mem_singleton.mp hd, hop⟩
  | allCallAudio y data => exact hop.elim
  | broadcastAudio ch sender data => exact hop.elim
  | relay ch data => exact hop.elim
  | _ => cases hd

/-- The floor of a channel goes to nobody but the client that asks for it. -/
theorem holder_signed (hop : op.SignedBy x f told) (hy : (op.run h).2.holder ch = some y) :
    h.holder ch = some y ∨ ch = f.currentChannelID ∧ y = x := by
  by_cases hyx : y = x
  swap
  · refine Or.inl ((elsewhere_run (fun ht => ?_) h).holder ch hy)
    cases op with
    | requestFloor ch z => exact hyx ((Option.some.inj ht).symm.trans hop.2)
    | register z first => exact hop
    | unregister z => exact hop
    | addSubscriber ch z => exact hop
    | removeSubscriber ch z => exact hop
    | setCurrentChannel z new => exact hop
    | _ => cases ht
  · by_cases hch : ch = f.currentChannelID
    · exact Or.inr ⟨hch, hyx⟩
    · refine Or.inl ?_
      rwa [HubOp.holder_run_of_ne] at hy
      cases op with
      | requestFloor ch' z => exact fun ht => hch ((Option.some.inj ht).symm.trans hop.1)
      | releaseFloor ch' z => exact fun ht => hch ((Option.some.inj ht).symm.trans hop.1)
      | addSubscriber ch' z => exact hop.elim
      | removeSubscriber ch' z => exact hop.elim
      | handleTOT ch' timer => exact hop.elim
      | _ => exact (Option.some_ne_none ch).symm

theorem transmission_signed (hf : f.SamePerson (h.heap x)) (hop : op.SignedBy x f told)
    {tx : TransmissionBuffer} (htx : (op.run h).2.activeTX ch = some tx) :
    h.activeTX ch = some tx ∨ ch = f.currentChannelID ∧ tx.identity.Of f := by
  cases hrecords : op.records with
  | false =>
    rw [HubOp.activeTX_run_of_not_records hrecords] at htx
    exact Or.inl htx
  | true =>
    cases op with
    | onTransmissionStart c y =>
      obtain ⟨hc, rfl⟩ := hop
      rw [HubOp.onTransmissionStart_run] at htx
      split_ifs at htx with hown
      · obtain rfl := Option.some.inj htx
        refine Or.inr ⟨hown.1.trans hc, ?_, ?_, ?_, ?_⟩ <;> rintro _ ⟨⟩
        · exact hf.id.symm
        · exact hf.callsign.symm
        · exact hf.role.symm
        · exact hc
      · exact Or.inl htx
    | onTransmissionEnd c =>
      rw [HubOp.onTransmissionEnd_run] at htx
      split_ifs at htx
      exact Or.inl htx
    | appendAudio c payload => exact hop.elim
    | _ => cases hrecords

/-- The only recording that a call adds is that of the transmission on the channel. -/
theorem recording_signed (hop : op.SignedBy x f told) {e : VoiceRecording}
    (he : e ∈ (op.run h).2.recordings) : e ∈ h.recordings ∨
      e.channelID = f.currentChannelID ∧ ∃ tx, h.activeTX e.channelID = some tx ∧
        e = AudioRecorder.recordingOf tx e.channelID h.now := by
  cases hrecords : op.records with
  | false =>
    rw [Hub.recordings, HubOp.recorder_run_of_not_records hrecords] at he
    exact Or.inl he
  | true =>
    have hrecorder : ∀ {r : AudioRecorder}, h.recorder = some r → e ∈ r.recordings →
        e ∈ h.recordings := by
      intro r hr hmem
      rwa [Hub.recordings, hr]
    cases op with
    | onTransmissionStart c y =>
      rw [HubOp.run, Hub.recordings, Hub.onRecorder_recorder] at he
      cases hr : h.recorder with
      | none =>
        rw [hr] at he
        cases he
      | some r =>
        rw [hr] at he
        refine Or.inl (hrecorder hr ?_)
        simp only [Option.map_some, Option.elim_some, AudioRecorder.onTransmissionStart] at he
        split_ifs at he <;> exact he
    | onTransmissionEnd c =>
      rw [HubOp.run, Hub.recordings, Hub.onRecorder_recorder] at he
      cases hr : h.recorder with
      | none =>
        rw [hr] at he
        cases he
      | some r =>
        rw [hr, Option.map_some, Option.elim_some] at he
        -- the oldest recordings may go, but only the one that ends now is new
        rcases r.onTransmissionEnd_cases c h.now with ⟨tx, _, htx, _, hend⟩ | ⟨_, hend, _⟩
        · rw [hend] at he
          rcases List.mem_append.mp (List.mem_of_mem_drop he) with hold | hnew
          · exact Or.inl (hrecorder hr hold)
          · obtain rfl := List.mem_singleton.mp hnew
            refine Or.inr ⟨hop, tx, ?_, rfl⟩
            rw [Hub.activeTX, hr]
            exact htx
        · rw [hend] at he
          exact Or.inl (hrecorder hr he)
    | appendAudio c payload => exact hop.elim
    | _ => cases hrecords

/-- A call of a signing handler is a signed step. -/
theorem signedStep_run (hf : f.SamePerson (h.heap x)) (htold : told.Reports found)
    (hop : op.SignedBy x f told) : SignedStep x found h (op.run h).2 := by
  refine ⟨fun d hd => ?_, fun ch m hm => ?_, fun ch v hv => ?_, fun y => ?_, fun ch tx htx => ?_,
    fun e he => ?_, fun ch y hy => ?_, fun y => ?_⟩
  · rw [op.outbox_sends, List.drop_left] at hd
    obtain ⟨y, queue, msg, now, rfl, hmsg⟩ := sends_signed hop hd
    exact ⟨y, queue, msg, now, rfl, hmsg.person hf htold⟩
  · rcases mem_chatHistory_run hm with hold | ⟨y, rfl, hch⟩ | rfl
    · exact Or.inl hold
    · obtain ⟨rfl, hof⟩ := hop
      exact Or.inr ⟨hch, hof.person hf⟩
    · exact Or.inr ⟨hop.1.trans hf.current, hop.2.person hf⟩
  · -- a slot that changes is emptied or filled by the sender
    by_cases hsame : (op.run h).2.activeVideoByChannel ch = h.activeVideoByChannel ch
    · exact Or.inl (hsame ▸ hv)
    · cases HubOp.videoCall hsame with
      | deleted hgone =>
        rw [hgone] at hv
        cases hv
      | ended y _ _ hgone =>
        rw [hgone] at hv
        cases hv
      | started y p hcur hnew =>
        obtain ⟨rfl, hof⟩ := hop
        rw [hnew] at hv
        obtain rfl := Option.some.inj hv
        exact Or.inr ⟨hcur.symm, hof.person hf⟩
  · rcases heap_signed hop y with hold | ⟨hyx, l, hof, hnew⟩
    · exact Or.inl (congrArg Client.location hold)
    · exact Or.inr ⟨hyx, l, congrArg Client.location hnew, hof.person hf⟩
  · rcases transmission_signed hf hop htx with hold | ⟨hch, hof⟩
    · exact Or.inl hold
    · exact Or.inr ⟨hch.trans hf.current, hof.person hf⟩
  · rcases recording_signed hop he with hold | ⟨hch, hnew⟩
    · exact Or.inl hold
    · exact Or.inr ⟨hch.trans hf.current, hnew⟩
  · rcases holder_signed hop hy with hold | ⟨hch, hyx⟩
    · exact Or.inl hold
    · exact Or.inr ⟨hch.trans hf.current, hyx⟩
  · rcases heap_signed hop y with hold | ⟨hyx, l, _, hnew⟩
    · rw [hold]
      exact ⟨rfl, rfl, rfl, rfl⟩
    · rw [hyx, hnew]
      exact ⟨rfl, rfl, rfl, rfl⟩

end Calls

/-- The request of a client that speaks. -/
def Request.speaks : Request → Bool
  | signal _ msg _ => msg.speaks
  | _ => false

/-- Only the handlers of clients set anything. -/
theorem sets_prog (r : Request) :
    r.prog.All fun op => op.sets ≠ none → ∃ y, r.thread = .client y := by
  refine (serves_prog r).mono fun op hserved hsets => ?_
  cases op with
  | setCallsign z callsign => cases r <;> first | exact ⟨_, rfl⟩ | cases hserved
  | setRole z role => cases r <;> first | exact ⟨_, rfl⟩ | cases hserved
  | setLocation z l => cases r <;> first | exact ⟨_, rfl⟩ | cases hserved
  | setCurrentChannel z new => cases r <;> first | exact ⟨_, rfl⟩ | cases hserved
  | register z first => cases r <;> first | exact ⟨_, rfl⟩ | cases hserved
  | _ => exact absurd rfl hsets

/-- Every handler of a client that speaks signs with the identity that the client has, and has
been told what it found. -/
structure Signing (s : Server (Thread → Findings)) : Prop where
  sets : ∀ i, (s.pool.task i).All fun op => op.sets ≠ none → ∃ y, i = .client y
  keeps : KeepsToChannels s
  signs : ∀ x r, (s.history (.client x)).request = some r → r.speaks = true →
    ∃ f told, f.SamePerson (s.hub.heap x) ∧ told.Reports (s.history (.client x)) ∧
      Signs x f told (s.pool.task (.client x))

namespace Signing

variable {s t : Server (Thread → Findings)} {e : ServerEvent} {x : ClientRef}

theorem init (h : Hub) : Signing (Server.init h fun _ => {}) :=
  ⟨fun _ => trivial, KeepsToChannels.init h _, fun _ _ hr => by cases hr⟩

/-- Nobody sets the fields of another's client. -/
theorem sets_own (hs : Signing s) {i : Thread} {op : HubOp} {k : op.Res → HubProg Unit}
    (hk : s.pool.task i = .call op k) (hsets : op.sets = some x) : i = .client x := by
  have hcalls := hs.sets i
  rw [hk] at hcalls
  obtain ⟨y, rfl⟩ := hcalls.1 (by rw [hsets]; exact Option.some_ne_none x)
  have hkeep := hs.keeps.keepsTo hk
  refine congrArg Thread.client ?_
  cases op with
  | setCallsign z callsign => exact hkeep.symm.trans (Option.some.inj hsets)
  | setRole z role => exact hkeep.symm.trans (Option.some.inj hsets)
  | setLocation z l => exact hkeep.symm.trans (Option.some.inj hsets)
  | setCurrentChannel z new => exact hkeep.symm.trans (Option.some.inj hsets)
  | register z first => exact hkeep.symm.trans (Option.some.inj hsets)
  | _ => cases hsets

theorem heap_step (hs : Signing s) (h : serverStep findingObserver s e = some t)
    (he : e.thread ≠ some (.client x)) : t.hub.heap x = s.hub.heap x := by
  rcases serverStep_part (f := Hub.heap) (fun _ _ _ => rfl) h with
    hsame | ⟨i, op, k, rfl, hk, hhub⟩
  · rw [hsame]
  · rw [hhub]
    exact heap_run fun hsets => he (congrArg some (hs.sets_own hk hsets))

/-- What the handler of `x` has found changes by its own steps alone. -/
theorem findings_step (h : serverStep findingObserver s e = some t)
    (he : e.thread ≠ some (.client x)) : t.history (.client x) = s.history (.client x) := by
  cases e with
  | serve r =>
    rw [(serverStep_starts h).2]
    exact Function.update_of_ne (fun heq => he (congrArg some heq.symm)) ..
  | advance i =>
    obtain ⟨_, _, _, _, _, hhist, _⟩ := serverStep_advance h
    rw [hhist]
    exact Function.update_of_ne (fun heq => he (congrArg some heq.symm)) ..
  | timerFires ch timer => rw [(serverStep_timerFires h).2.2.1]
  | tick d => rw [(serverStep_tick h).2.2.1]

/-- The next call of a client that speaks, signed. -/
theorem call (hs : Signing s) {r : Request} (hr : (s.history (.client x)).request = some r)
    (hspeaks : r.speaks = true) {op : HubOp} {k : op.Res → HubProg Unit}
    (hk : s.pool.task (.client x) = .call op k) :
    ∃ f told, f.SamePerson (s.hub.heap x) ∧ told.Reports (s.history (.client x)) ∧
      op.SignedBy x f told ∧
      Signs x f (op.reveals (op.run s.hub).1 told) (k (op.run s.hub).1) := by
  obtain ⟨f, told, hf, htold, hsigns⟩ := hs.signs x r hr hspeaks
  rw [hk] at hsigns
  exact ⟨f, told, hf, htold, hsigns.1, hsigns.2 _ (answers_run hf op)⟩

theorem step (hs : Signing s) (h : serverStep findingObserver s e = some t) : Signing t := by
  refine ⟨tasks_all_step sets_prog hs.sets h, hs.keeps.step h, fun x r hr hspeaks => ?_⟩
  by_cases he : e.thread = some (.client x)
  -- while others move, `x` is who it was
  swap
  · rw [findings_step h he] at hr ⊢
    obtain ⟨f, told, hf, htold, hsigns⟩ := hs.signs x r hr hspeaks
    rw [serverStep_task h he, hs.heap_step h he]
    exact ⟨f, told, hf, htold, hsigns⟩
  cases e with
  | serve r' =>
    have hthread : r'.thread = .client x := Option.some.inj he
    obtain ⟨_, _, _, _, htask, _⟩ := serverStep_serve h
    have hfound : t.history (.client x) = { request := some r' } := by
      rw [(serverStep_starts h).2, ← hthread]
      exact Function.update_self ..
    rw [hfound] at hr ⊢
    obtain rfl := Option.some.inj hr
    rw [hthread] at htask
    rw [htask]
    refine ⟨t.hub.heap x, {}, ⟨rfl, rfl, rfl, rfl⟩, ⟨?_, ?_⟩, ?_⟩
    · rintro _ ⟨⟩
    · rintro _ ⟨⟩
    · cases r' with
      | signal y msg choices =>
        obtain rfl := Thread.client.inj hthread
        exact signs_handleSignal hspeaks choices
      | _ => cases hspeaks
  | advance i =>
    obtain rfl : i = .client x := Option.some.inj he
    obtain ⟨op, k, hk, _, hhub, hhist, htask, _⟩ := serverStep_advance h
    have hfound : t.history (.client x) = (s.history (.client x)).after op s.hub := by
      rw [hhist]
      exact Function.update_self ..
    rw [hfound] at hr ⊢
    rw [Findings.after_request] at hr
    obtain ⟨f, told, hf, htold, hop, hrest⟩ := hs.call hr hspeaks hk
    refine ⟨f, op.reveals (op.run s.hub).1 told, ?_, reports_run htold op, ?_⟩
    · rw [hhub]
      exact hf.trans ((signedStep_run hf htold hop).clients x).symm
    · rw [htask]
      exact hrest
  | timerFires ch timer => cases he
  | tick d => cases he

end Signing

/-- The next step for `x` sends a message that names someone else. -/
def NamesElse (x : ClientRef) (s : Server (Thread → Findings)) : Prop :=
  ∃ t y queue msg now, serverStep findingObserver s (.advance (.client x)) = some t ∧
    .enqueue y queue (.json msg now) ∈ t.hub.outbox.drop s.hub.outbox.length ∧
    ¬ msg.identity.Of (s.hub.heap x)

theorem namesElse_of_call {x y : ClientRef} {s : Server (Thread → Findings)} {op : HubOp}
    {k : op.Res → HubProg Unit} {queue : QueueKind} {msg : Signal} {now : ℤ}
    (hk : s.pool.task (.client x) = .call op k)
    (hd : Delivery.enqueue y queue (.json msg now) ∈ op.sends s.hub)
    (hother : ∃ callsign, msg.identity.callsign = some callsign ∧
      callsign ≠ (s.hub.heap x).callsign) : NamesElse x s := by
  obtain ⟨t, h⟩ := serverStep_enabled (o := findingObserver) hk
  obtain ⟨op', k', hk', _, hhub, _⟩ := serverStep_advance h
  rw [hk] at hk'
  obtain ⟨rfl, _⟩ := Prog.call.inj hk'
  obtain ⟨callsign, hcallsign, hne⟩ := hother
  refine ⟨t, y, queue, msg, now, h, ?_, fun hof => hne (hof.callsign callsign hcallsign)⟩
  rw [hhub, HubOp.outbox_sends, List.drop_left]
  exact hd

def HubOp.announcedRecording : HubOp → Option (ChannelID × VoiceRecording)
  | broadcastSignal ch (.transmissionRecorded r) => some (ch, r)
  | _ => none

theorem HubOp.eq_of_announcedRecording {op : HubOp} {ch : ChannelID} {r : VoiceRecording}
    (h : op.announcedRecording = some (ch, r)) :
    op = .broadcastSignal ch (.transmissionRecorded r) := by
  unfold announcedRecording at h
  split at h
  · cases h
    rfl
  · cases h

/-- A hub with a recorder. -/
def recordingHub : Server (Thread → Findings) :=
  Server.init (newHub defaultConfig (some (newAudioRecorder "recordings" 100 true {})) false
    sampleClients 0) fun _ => {}

/-- Unit 0 speaks for 100 ms, and the dispatcher takes the floor from it. -/
def overruledTalk : List ServerEvent :=
  uninterrupted (.connect 0 0) 10 ++ uninterrupted (.connect 1 0) 10 ++
    uninterrupted (.signal 0 .pttDown {}) 8 ++
    uninterrupted (.audio 0 (encodeAudioPacket 1 flagAudioFirst 0 (List.replicate 3200 0))) 7 ++
    uninterrupted (.signal 1 .pttDown {}) 5

/-- Unit 0 asks for the floor that the dispatcher holds. -/
def deniedKey : List ServerEvent :=
  uninterrupted (.connect 0 0) 10 ++ uninterrupted (.connect 1 0) 10 ++
    uninterrupted (.signal 1 .pttDown {}) 8 ++ uninterrupted (.signal 0 .pttDown {}) 2

end TwoWayRadio

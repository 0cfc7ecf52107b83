import TwoWayRadio.HubHandlers

/-! The calls that have no part in floors, membership, audio or recordings, and the handlers
made of them alone. -/
namespace TwoWayRadio

open Interleaving

/-- Messages that tell clients about the floor of a channel. -/
def Signal.announcesFloor : Signal → Bool
  | .floorStatus _ | .userTalking _ | .userStopped _ | .channelActivity .. => true
  | _ => false

def HubOp.background : HubOp → Bool
  | currentChannel _ | lookupSwitch .. | lookupChannel _ | getChannelList | history _
  | appendChat .. | activeVideo _ | deleteVideo _ | startVideo .. | endVideo _ | clientByID _
  | getRelay | getUserCallsigns _ | getSubscribersInfo _ | fields _ | setRole .. | setLocation ..
  | addTransmission | addPreemption | clock => true
  | broadcastAll msg | broadcastSignal _ msg | sendJSON _ msg | sendPriorityJSON _ msg =>
    !msg.announcesFloor
  | _ => false

/-- The message a call sends. -/
def HubOp.message : HubOp → Option Signal
  | broadcastAll msg | broadcastSignal _ msg | sendJSON _ msg | sendPriorityJSON _ msg => some msg
  | _ => none

namespace Hub

abbrev Background {α : Type} (p : HubProg α) : Prop := p.All fun op => op.background = true

open Prog

theorem background_broadcastUserList (ch : ChannelID) : Background (broadcastUserList ch) := by
  simp [broadcastUserList, All, perform, HubOp.background, Signal.announcesFloor]

theorem background_endVideoOf (ch : ChannelID) (client : ClientRef) :
    Background (endVideoOf ch client) := by
  simp only [endVideoOf, perform_bind]
  refine ⟨rfl, fun video => ⟨rfl, fun c => all_when ?_⟩⟩
  simp [All, perform, HubOp.background, Signal.announcesFloor]

theorem background_handleAlertTone (client : ClientRef) (toneType : String) :
    Background (handleAlertTone client toneType) := by
  simp only [handleAlertTone, perform_bind]
  refine ⟨rfl, fun ch => all_ifSome fun ch => ⟨rfl, fun c => all_perform rfl⟩⟩

theorem background_allCallSignal (client : ClientRef) (p : Decoded AllCallPayload) :
    Background (allCallSignal client p) := by
  simp only [allCallSignal, perform_bind]
  exact all_when ⟨rfl, fun c => ⟨rfl, fun now => all_perform rfl⟩⟩

theorem background_locationSignal (client : ClientRef) (p : Decoded LocationPayload) :
    Background (locationSignal client p) := by
  simp only [locationSignal, perform_bind]
  exact all_when ⟨rfl, fun c => ⟨rfl, fun _ => ⟨rfl, fun ch => all_ifSome fun ch =>
    all_perform rfl⟩⟩⟩

theorem background_chatSignal (client : ClientRef) (p : Decoded (ChatMessagePayload String))
    (choices : Choices) : Background (chatSignal client p choices) := by
  simp only [chatSignal, perform_bind]
  exact all_when ⟨rfl, fun now => ⟨rfl, fun c => ⟨rfl, fun stamp => ⟨rfl, fun ch =>
    all_ifSome fun ch => all_perform rfl⟩⟩⟩⟩

theorem background_videoStartSignal (client : ClientRef) (p : Decoded VideoSignalingPayload) :
    Background (videoStartSignal client p) := by
  simp only [videoStartSignal, perform_bind]
  exact ⟨rfl, fun c => ⟨rfl, fun ch => all_ifSome fun ch => all_perform rfl⟩⟩

theorem background_videoEndSignal (client : ClientRef) : Background (videoEndSignal client) := by
  simp only [videoEndSignal, perform_bind]
  exact ⟨rfl, fun r => ⟨rfl, fun c => all_when (all_ifSome fun ch => all_perform rfl)⟩⟩

theorem background_videoJoinSignal (client : ClientRef) (p : Decoded VideoSignalingPayload) :
    Background (videoJoinSignal client p) := by
  simp only [videoJoinSignal, perform_bind]
  exact ⟨rfl, fun c => ⟨rfl, fun ch => all_ifSome fun ch => all_perform rfl⟩⟩

theorem background_videoRelaySignal (client : ClientRef) (kind : VideoRelay)
    (p : Decoded VideoSignalingPayload) : Background (videoRelaySignal client kind p) := by
  simp only [videoRelaySignal, perform_bind]
  refine all_when ⟨rfl, fun c => ?_⟩
  split_ifs
  · exact ⟨rfl, fun target => all_ifSome fun target => all_perform rfl⟩
  · exact ⟨rfl, fun ch => all_ifSome fun ch => all_perform rfl⟩

/-- What holds of every background program, of `identify`, of switches and of the two
push-to-talk handlers holds of every signal's handler. -/
theorem handleSignal_rule {M : HubProg Unit → Prop} (client : ClientRef) (msg : ClientSignal)
    (choices : Choices) (hback : ∀ p, Background p → M p)
    (hidentify : ∀ p, msg = .identify p → M (identifySignal client p))
    (hswitch : ∀ ch password, M (switchChannel client ch password))
    (hcreate : ∀ p, M (createSignal client p))
    (hdown : msg = .pttDown → M (handlePTTDown client))
    (hup : msg = .pttUp → M (handlePTTUp client)) :
    M (handleSignal client msg choices) := by
  cases msg with
  | identify p => exact hidentify p rfl
  | joinChannel p =>
    simp only [handleSignal, when]
    split_ifs
    · exact hswitch _ _
    · exact hback _ trivial
  | createChannel p => exact hcreate p
  | pttDown => exact hdown rfl
  | pttUp => exact hup rfl
  | alertTone p => exact hback _ (background_handleAlertTone client _)
  | allCall p => exact hback _ (background_allCallSignal client p)
  | location p => exact hback _ (background_locationSignal client p)
  | ping payload => exact hback _ (all_perform rfl)
  | chatMessage p => exact hback _ (background_chatSignal client p choices)
  | videoCallStart p => exact hback _ (background_videoStartSignal client p)
  | videoCallEnd => exact hback _ (background_videoEndSignal client)
  | videoJoin p => exact hback _ (background_videoJoinSignal client p)
  | videoRelay kind p => exact hback _ (background_videoRelaySignal client kind p)
  | other type => exact hback _ trivial

end Hub

end TwoWayRadio

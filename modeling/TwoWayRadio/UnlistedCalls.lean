import TwoWayRadio.HubRequests

/-! The calls that change nothing that the lists of users and of channels show, and the handlers
made of them alone. -/
namespace TwoWayRadio
open Interleaving

/-- Messages that a page makes a list of. -/
def Signal.isListing : Signal → Bool
  | userList .. | channelList _ | channelActivity .. => true
  | _ => false

def HubOp.unlisted : HubOp → Bool
  | register .. | unregister _ | addSubscriber .. | removeSubscriber .. | setCallsign ..
  | setRole .. | createChannel _ | requestFloor .. | releaseFloor .. | handleTOT .. => false
  | op => op.message.all fun msg => !msg.isListing

/-- Neither push-to-talk nor a change of the client's name or channel. -/
def ClientSignal.unlisted : ClientSignal → Bool
  | identify _ | joinChannel _ | createChannel _ | pttDown | pttUp => false
  | _ => true

namespace Hub

open Prog

abbrev Unlisted {α : Type} (p : HubProg α) : Prop := p.All fun op => op.unlisted = true

theorem unlisted_endVideoOf (ch : ChannelID) (x : ClientRef) : Unlisted (endVideoOf ch x) :=
  all_then rfl fun _ => all_then rfl fun _ => all_when (all_then rfl fun _ => all_perform rfl)

theorem unlisted_finishRecording (ch : ChannelID) : Unlisted (finishRecording ch) :=
  all_then rfl fun _ => all_bind (all_ifSome fun _ => all_perform rfl) fun _ => trivial

theorem unlisted_showChannel (x : ClientRef) (new : ChannelID) : Unlisted (showChannel x new) :=
  all_then rfl fun _ => all_then rfl fun _ => all_then rfl fun _ => all_then rfl fun _ =>
    all_ifSome fun _ => all_perform rfl

theorem unlisted_finalizePreempted (ch : ChannelID) (x y : ClientRef) :
    Unlisted (finalizePreempted ch x y) :=
  all_then rfl fun _ => all_bind (unlisted_finishRecording ch) fun _ => all_then rfl fun _ =>
    all_perform rfl

theorem unlisted_handleBinaryAudio (x : ClientRef) (data : Bytes) :
    Unlisted (handleBinaryAudio x data) := by
  unfold handleBinaryAudio
  split
  · trivial
  · refine all_then rfl fun _ => all_when <| all_then rfl fun _ => all_when <|
      all_then rfl fun _ => all_when <| all_then rfl fun _ =>
      all_bind (all_when (all_perform rfl)) fun _ => all_bind ?_ fun _ =>
      all_then rfl fun _ => all_when (all_perform rfl)
    unfold fanOut
    split_ifs
    · exact all_perform rfl
    · exact all_perform rfl

theorem unlisted_roipDatagram (data : Bytes) : Unlisted (roipDatagram data) := by
  unfold roipDatagram
  dsimp only
  split
  · trivial
  · exact all_then rfl fun _ => all_when (all_perform rfl)

theorem unlisted_handleSignal (x : ClientRef) {msg : ClientSignal} (choices : Choices)
    (hmsg : msg.unlisted = true) : Unlisted (handleSignal x msg choices) := by
  cases msg with
  | identify p => cases hmsg
  | joinChannel p => cases hmsg
  | createChannel p => cases hmsg
  | pttDown => cases hmsg
  | pttUp => cases hmsg
  | alertTone p =>
    exact all_then rfl fun _ => all_ifSome fun _ => all_then rfl fun _ => all_perform rfl
  | allCall p => exact all_when <| all_then rfl fun _ => all_then rfl fun _ => all_perform rfl
  | location p =>
    exact all_when <| all_then rfl fun _ => all_then rfl fun _ => all_then rfl fun _ =>
      all_ifSome fun _ => all_perform rfl
  | ping payload => exact all_perform rfl
  | chatMessage p =>
    exact all_when <| all_then rfl fun _ => all_then rfl fun _ => all_then rfl fun _ =>
      all_then rfl fun _ => all_ifSome fun _ => all_perform rfl
  | videoCallStart p =>
    exact all_then rfl fun _ => all_then rfl fun _ => all_ifSome fun _ => all_perform rfl
  | videoCallEnd =>
    exact all_then rfl fun _ => all_then rfl fun _ => all_when <| all_ifSome fun _ =>
      all_perform rfl
  | videoJoin p =>
    exact all_then rfl fun _ => all_then rfl fun _ => all_ifSome fun _ => all_perform rfl
  | videoRelay kind p =>
    refine all_when (all_then rfl fun c => ?_)
    dsimp only
    split_ifs
    · exact all_then rfl fun _ => all_ifSome fun _ => all_perform rfl
    · exact all_then rfl fun _ => all_ifSome fun _ => all_perform rfl
  | other type => trivial

end Hub

end TwoWayRadio

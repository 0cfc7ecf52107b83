import TwoWayRadio.HubExec
import TwoWayRadio.OwnChannel
import TwoWayRadio.RadioVideo

/-! The video clients of one channel and the hub between them. -/
namespace TwoWayRadio
open Transition

/-- The clients on a channel, with the queues in which the hub leaves what they are to receive.
`taken` counts the messages of a client that the hub has handled, and `activeVideo` is the sender of
the channel's running call. -/
structure VideoRoom where
  channel : ChannelID
  members : List ClientRef
  nodup : members.Nodup
  byID : String → Option ClientRef
  client : ClientRef → VideoClient
  taken : ClientRef → ℕ
  inbox : ClientRef → QueueKind → List VideoPacket
  activeVideo : Option String

/-- Who gets a packet, and through which queue. A call is ended by the sender of the running one;
what names a target goes to it, and everything else to the channel. -/
def VideoPacket.recipients (members : List ClientRef) (byID : String → Option ClientRef)
    (activeVideo : Option String) (p : VideoPacket) : List (ClientRef × QueueKind) :=
  match p.message with
  | .callStart _ | .join _ => members.map fun y => (y, .send)
  | .callEnd => if activeVideo = some p.senderID then members.map fun y => (y, .send) else []
  | .offer targetID _ | .answer targetID .. | .ice targetID .. =>
    if targetID = "" then members.map fun y => (y, .send)
    else (byID targetID).toList.map fun y => (y, .highPri)

namespace VideoRoom

def init (channel : ChannelID) (members : List ClientRef) (nodup : members.Nodup)
    (id callsign : ClientRef → String) : VideoRoom where
  channel := channel
  members := members
  nodup := nodup
  byID := fun targetID => members.find? fun y => id y = targetID
  client := fun x => { myClientID := id x, myCallsign := callsign x, currentChannelID := channel }
  taken := fun _ => 0
  inbox := fun _ _ => []
  activeVideo := none

/-- A message as the hub passes it on. -/
def packet (x : ClientRef) (m : VideoMessage) (r : VideoRoom) : VideoPacket :=
  ⟨r.channel, (r.client x).myClientID, (r.client x).myCallsign, m⟩

def activeAfter (p : VideoPacket) (r : VideoRoom) : Option String :=
  match p.message with
  | .callStart _ => some p.senderID
  | .callEnd => if r.activeVideo = some p.senderID then none else r.activeVideo
  | _ => r.activeVideo

/-- The hub handles a message of `x`. -/
def relay (x : ClientRef) (m : VideoMessage) (r : VideoRoom) : VideoRoom :=
  let p := r.packet x m
  let recipients := p.recipients r.members r.byID r.activeVideo
  { r with
    taken := Function.update r.taken x (r.taken x + 1)
    inbox := fun y queue => r.inbox y queue ++ (recipients.filter (· = (y, queue))).map fun _ => p
    activeVideo := r.activeAfter p }

end VideoRoom

inductive RoomEvent
  | act (x : ClientRef) (e : VideoEvent)
  | relay (x : ClientRef)
  | deliver (x : ClientRef) (queue : QueueKind)
deriving DecidableEq

/-- Each client's messages reach the hub in order, and each queue is emptied from its head. -/
def roomStep (r : VideoRoom) : RoomEvent → Option VideoRoom
  | .act _ (.receive _) => none
  | .act x e => (videoStep (r.client x) e).map fun s =>
    { r with client := Function.update r.client x s }
  | .relay x => (r.client x).sent[r.taken x]?.map fun m => r.relay x m
  | .deliver x queue =>
    match r.inbox x queue with
    | [] => none
    | p :: rest => some { r with
      client := Function.update r.client x ((r.client x).handleSignalingMessage p)
      inbox := Function.update r.inbox x (Function.update (r.inbox x) queue rest) }

theorem roomStep_act {r t : VideoRoom} {x : ClientRef} {e : VideoEvent}
    (h : roomStep r (.act x e) = some t) : ∃ s, videoStep (r.client x) e = some s ∧
      t = { r with client := Function.update r.client x s } := by
  have hact : (∀ p, e ≠ .receive p) → roomStep r (.act x e) = (videoStep (r.client x) e).map
      fun s => { r with client := Function.update r.client x s } := by
    intro he
    cases e with
    | receive p => exact absurd rfl (he p)
    | _ => rfl
  by_cases he : ∃ p, e = .receive p
  · obtain ⟨p, rfl⟩ := he
    cases h
  · rw [hact fun p hp => he ⟨p, hp⟩] at h
    obtain ⟨s, hs, rfl⟩ := Option.map_eq_some_iff.mp h
    exact ⟨s, hs, rfl⟩

theorem roomStep_deliver {r t : VideoRoom} {x : ClientRef} {queue : QueueKind}
    (h : roomStep r (.deliver x queue) = some t) : ∃ p rest, r.inbox x queue = p :: rest ∧
      t = { r with
        client := Function.update r.client x ((r.client x).handleSignalingMessage p)
        inbox := Function.update r.inbox x (Function.update (r.inbox x) queue rest) } := by
  have hstep : roomStep r (.deliver x queue) = match r.inbox x queue with
      | [] => none
      | p :: rest => some { r with
        client := Function.update r.client x ((r.client x).handleSignalingMessage p)
        inbox := Function.update r.inbox x (Function.update (r.inbox x) queue rest) } := rfl
  rw [hstep] at h
  split at h
  · cases h
  · rename_i p rest hinbox
    exact ⟨p, rest, hinbox, (Option.some.inj h).symm⟩

section Hub

/-- The signal of a message, for any way to write down descriptions and candidates. -/
def VideoMessage.signal (text : VideoMessage → String) (ch : ChannelID) (m : VideoMessage) :
    ClientSignal :=
  match m with
  | .callStart isScreen => .videoCallStart ⟨{ channelID := ch, isScreen := isScreen }, true⟩
  | .callEnd => .videoCallEnd
  | .join targetID => .videoJoin ⟨{ channelID := ch, targetID := targetID }, true⟩
  | .offer targetID _ =>
    .videoRelay .offer ⟨{ channelID := ch, targetID := targetID, sdp := text m }, true⟩
  | .answer targetID .. =>
    .videoRelay .answer ⟨{ channelID := ch, targetID := targetID, sdp := text m }, true⟩
  | .ice targetID .. =>
    .videoRelay .ice ⟨{ channelID := ch, targetID := targetID, candidate := text m }, true⟩

def VideoPacket.signal (text : VideoMessage → String) (p : VideoPacket) : Signal :=
  let base : VideoSignalingPayload :=
    { channelID := p.channelID, senderID := p.senderID, callsign := p.callsign }
  match p.message with
  | .callStart isScreen => .videoCallStart { base with isScreen := isScreen }
  | .callEnd => .videoCallEnd base
  | .join targetID => .videoJoin { base with targetID := targetID }
  | .offer targetID _ =>
    .videoRelay .offer { base with targetID := targetID, sdp := text p.message }
  | .answer targetID .. =>
    .videoRelay .answer { base with targetID := targetID, sdp := text p.message }
  | .ice targetID .. =>
    .videoRelay .ice { base with targetID := targetID, candidate := text p.message }

/-- The hub passes a message on to the recipients of its packet. -/
theorem sent_videoMessage {h : Hub} {x : ClientRef} {c : ChannelID} (hof : h.channelOf x = some c)
    (text : VideoMessage → String) (ch : ChannelID) (m : VideoMessage) (choices : Choices) :
    Hub.sent (Hub.handleSignal x (m.signal text ch) choices) h =
      (VideoPacket.recipients (h.subscribersOf c) h.clientsByID
        ((h.activeVideoByChannel c).map fun v => v.senderID)
        ⟨c, (h.heap x).id, (h.heap x).callsign, m⟩).map fun r =>
        .enqueue r.1 r.2 (.json
          (VideoPacket.signal text ⟨c, (h.heap x).id, (h.heap x).callsign, m⟩) h.unixMilli) := by
  obtain rfl : c = (h.heap x).currentChannelID := Hub.channelOf_eq hof
  -- what the channel's subscribers are sent
  have hall : ∀ (g : Hub) (msg : Signal), g.subscribersOf (h.heap x).currentChannelID =
      h.subscribersOf (h.heap x).currentChannelID → g.unixMilli = h.unixMilli →
      Hub.sent (HubOp.broadcastSignal (h.heap x).currentChannelID msg).call g =
        ((h.subscribersOf (h.heap x).currentChannelID).map fun y => (y, QueueKind.send)).map
          fun r => .enqueue r.1 r.2 (.json msg h.unixMilli) := by
    intro g msg hsub hnow
    show List.map _ _ ++ [] = _
    rw [List.append_nil, List.map_map, hsub, hnow]
    rfl
  -- and what the target of a relayed message is sent, or everybody if it has none
  have hrelay : ∀ (kind : VideoRelay) (p : VideoSignalingPayload),
      Hub.sent (Hub.videoRelaySignal x kind ⟨p, true⟩) h =
        (if p.targetID = "" then
          (h.subscribersOf (h.heap x).currentChannelID).map fun y => (y, QueueKind.send)
        else (h.clientsByID p.targetID).toList.map fun y => (y, QueueKind.highPri)).map fun r =>
          .enqueue r.1 r.2
            (.json (.videoRelay kind (Hub.stampVideo (h.heap x) p)) h.unixMilli) := by
    intro kind p
    by_cases htarget : p.targetID = ""
    · have hprog : Hub.sent (Hub.videoRelaySignal x kind ⟨p, true⟩) h =
          Hub.sent (Interleaving.Prog.ifSome (h.channelOf x) fun ch => (HubOp.broadcastSignal ch
            (.videoRelay kind (Hub.stampVideo (h.heap x) p))).call) h := by
        simp [Hub.videoRelaySignal, Interleaving.Prog.when, htarget, HubOp.sends, HubOp.run]
      rw [hprog, hof, if_pos htarget]
      exact hall h _ rfl rfl
    · have hprog : Hub.sent (Hub.videoRelaySignal x kind ⟨p, true⟩) h =
          Hub.sent (Interleaving.Prog.ifSome (h.clientsByID p.targetID) fun target =>
            (HubOp.sendPriorityJSON target
              (.videoRelay kind (Hub.stampVideo (h.heap x) p))).call) h := by
        simp [Hub.videoRelaySignal, Interleaving.Prog.when, htarget, HubOp.sends, HubOp.run]
      rw [hprog, if_neg htarget]
      cases h.clientsByID p.targetID with
      | none => rfl
      | some target => rfl
  cases m with
  | callStart isScreen =>
    show Hub.sent (Interleaving.Prog.ifSome (h.channelOf x) _) _ = _
    rw [hof]
    exact hall _ _ rfl rfl
  | callEnd =>
    have hmine : (h.activeVideoByChannel (h.heap x).currentChannelID).any
        (fun v => v.senderID == (h.heap x).id) = true ↔
        (h.activeVideoByChannel (h.heap x).currentChannelID).map (fun v => v.senderID) =
          some (h.heap x).id := by
      cases h.activeVideoByChannel (h.heap x).currentChannelID <;> simp
    show Hub.sent (Hub.videoEndSignal x) h = List.map _ (if _ then _ else _)
    split
    · rename_i hactive
      have hprog : Hub.sent (Hub.videoEndSignal x) h =
          Hub.sent (Interleaving.Prog.ifSome (h.channelOf x) fun ch =>
            (HubOp.broadcastSignal ch (.videoCallEnd {
              channelID := ch
              senderID := (h.heap x).id
              callsign := (h.heap x).callsign })).call)
            ((HubOp.endVideo x).run h).2 := by
        simp [Hub.videoEndSignal, Interleaving.Prog.when, HubOp.sends, HubOp.run,
          hmine.mpr hactive]
      have hsame : ((HubOp.endVideo x).run h).2.subscribersOf (h.heap x).currentChannelID =
            h.subscribersOf (h.heap x).currentChannelID ∧
          ((HubOp.endVideo x).run h).2.unixMilli = h.unixMilli := by
        simp only [HubOp.run, hmine.mpr hactive]
        exact ⟨rfl, rfl⟩
      rw [hprog, hof]
      exact hall _ _ hsame.1 hsame.2
    · rename_i hactive
      simp [Hub.videoEndSignal, Interleaving.Prog.when, HubOp.sends, HubOp.run,
        mt hmine.mp hactive]
  | join targetID =>
    show Hub.sent (Interleaving.Prog.ifSome (h.channelOf x) _) _ = _
    rw [hof]
    exact hall _ _ rfl rfl
  | offer targetID inst => exact hrelay .offer _
  | answer targetID inst offered => exact hrelay .answer _
  | ice targetID inst remote => exact hrelay .ice _

end Hub

end TwoWayRadio

import TwoWayRadio.Session
import TwoWayRadio.SwitchEffects
import TwoWayRadio.VideoConnections
import TwoWayRadio.VideoRoom

/-! The hub with the pages of a channel's video clients, and the room that they are in. -/
namespace TwoWayRadio
open Interleaving Transition

/-- `taken` counts the messages of a client that the hub has handled, and `read` the frames of a
queue that its page has been handed. -/
structure VideoHub where
  hub : Hub
  client : ClientRef → VideoClient
  taken : ClientRef → ℕ
  read : ClientRef → QueueKind → ℕ

namespace Hub

/-- All that has been put into a queue of `y`, oldest first. -/
def queue (y : ClientRef) (queue : QueueKind) (h : Hub) : List Frame :=
  h.outbox.filterMap (Delivery.queued y queue)

variable {h : Hub} {x : ClientRef} {c : ChannelID}

/-- What a video message does to the shared state: it may enter the sender's call for the channel
or take it off. -/
theorem withoutOutbox_videoMessage (hof : h.channelOf x = some c) (text : VideoMessage → String)
    (ch : ChannelID) (m : VideoMessage) (choices : Choices) :
    (after (handleSignal x (m.signal text ch) choices) h).withoutOutbox = match m with
      | .callStart isScreen => { h.withoutOutbox with
        activeVideoByChannel := Function.update h.activeVideoByChannel c
          (some (stampVideo (h.heap x) { channelID := ch, isScreen := isScreen })) }
      | .callEnd => h.withoutOutbox.endOwnVideo x c
      | _ => h.withoutOutbox := by
  obtain rfl : c = (h.heap x).currentChannelID := channelOf_eq hof
  have hrelay (kind : VideoRelay) (p : Decoded VideoSignalingPayload) :
      (after (videoRelaySignal x kind p) h).withoutOutbox = h.withoutOutbox := by
    refine withoutOutbox_after (Prog.all_when (Prog.all_then rfl fun c => ?_)) h
    dsimp only
    split
    · exact Prog.all_then rfl fun _ => Prog.all_ifSome fun _ => Prog.all_perform rfl
    · exact Prog.all_then rfl fun _ => Prog.all_ifSome fun _ => Prog.all_perform rfl
  cases m with
  | callStart isScreen =>
    show (after (Prog.ifSome (h.channelOf x) _) _).withoutOutbox = _
    rw [hof]
    rfl
  | callEnd =>
    let video := h.activeVideoByChannel (h.heap x).currentChannelID
    -- the call itself takes the slot off in one critical section, if the sender's video is in it
    have hends : ((HubOp.endVideo x).run h).2.withoutOutbox =
        h.withoutOutbox.endOwnVideo x (h.heap x).currentChannelID := by
      have hrun : ((HubOp.endVideo x).run h).2 =
          if video.any (fun v => v.senderID == (h.heap x).id) then { h with
            activeVideoByChannel :=
              Function.update h.activeVideoByChannel (h.heap x).currentChannelID none }
          else h := rfl
      have hown : h.withoutOutbox.endOwnVideo x (h.heap x).currentChannelID =
          { h.withoutOutbox with
            activeVideoByChannel :=
              Function.update h.activeVideoByChannel (h.heap x).currentChannelID
                (if video.any (fun v => v.senderID == (h.heap x).id) then none else video) } := rfl
      rw [hrun, hown]
      split_ifs
      · rfl
      · rw [Function.update_eq_self]
        rfl
    refine Eq.trans ?_ hends
    -- what the handler does after that is only to tell the others
    let tells : HubProg Unit := do
      let c ← (HubOp.fields x).call
      Prog.when (video.any fun v => v.senderID == c.id) <| Prog.ifSome (h.channelOf x) fun ch =>
        (HubOp.broadcastSignal ch (.videoCallEnd {
          channelID := ch
          senderID := c.id
          callsign := c.callsign })).call
    have htells : tells.All fun op => op.reports = true :=
      Prog.all_then rfl fun _ => Prog.all_when (Prog.all_ifSome fun _ => Prog.all_perform rfl)
    exact withoutOutbox_after htells _
  | join targetID =>
    have hjoin (p : Decoded VideoSignalingPayload) :
        (videoJoinSignal x p).All fun op => op.reports = true :=
      Prog.all_then rfl fun _ => Prog.all_then rfl fun _ => Prog.all_ifSome fun _ =>
        Prog.all_perform rfl
    exact withoutOutbox_after (hjoin _) h
  | offer targetID inst => exact hrelay .offer _
  | answer targetID inst offered => exact hrelay .answer _
  | ice targetID inst remote => exact hrelay .ice _

/-- The rest stays as it is. -/
theorem kept_videoMessage (hof : h.channelOf x = some c) (text : VideoMessage → String)
    (ch : ChannelID) (m : VideoMessage) (choices : Choices) :
    let h' := after (handleSignal x (m.signal text ch) choices) h
    h'.channels = h.channels ∧ h'.heap = h.heap ∧ h'.clientsByID = h.clientsByID ∧
      h'.now = h.now := by
  intro h'
  have hstate := withoutOutbox_videoMessage hof text ch m choices
  have hkept : h'.withoutOutbox.channels = h.channels ∧ h'.withoutOutbox.heap = h.heap ∧
      h'.withoutOutbox.clientsByID = h.clientsByID ∧ h'.withoutOutbox.now = h.now := by
    rw [hstate]
    cases m <;> exact ⟨rfl, rfl, rfl, rfl⟩
  exact hkept

/-- Whose call is running afterwards is as the room has it. -/
theorem activeVideo_videoMessage (hof : h.channelOf x = some c) (text : VideoMessage → String)
    (ch : ChannelID) (m : VideoMessage) (choices : Choices) {r : VideoRoom} {callsign : String}
    (hactive : (h.activeVideoByChannel c).map (fun v => v.senderID) = r.activeVideo) :
    ((after (handleSignal x (m.signal text ch) choices) h).activeVideoByChannel c).map
        (fun v => v.senderID) = r.activeAfter ⟨c, (h.heap x).id, callsign, m⟩ := by
  have hstate := withoutOutbox_videoMessage hof text ch m choices
  show ((after (handleSignal x (m.signal text ch) choices) h).withoutOutbox.activeVideoByChannel
    c).map (fun v => v.senderID) = _
  rw [hstate]
  cases m with
  | callStart isScreen =>
    show (Function.update h.activeVideoByChannel c _ c).map _ = _
    rw [Function.update_self]
    rfl
  | callEnd =>
    show (Function.update h.activeVideoByChannel c _ c).map _ = _
    have hends (video : Option VideoSignalingPayload) (id : String) :
        (if video.any (fun v => v.senderID == id) then none else video).map (fun v => v.senderID) =
          if video.map (fun v => v.senderID) = some id then none
          else video.map fun v => v.senderID := by
      cases video with
      | none => simp
      | some v =>
        by_cases hmine : v.senderID = id
        · simp [hmine]
        · simp [hmine]
    rw [Function.update_self, VideoRoom.activeAfter, ← hactive]
    exact hends (h.activeVideoByChannel c) (h.heap x).id
  | _ => exact hactive

theorem queued_enqueue (y : ClientRef) (queue : QueueKind) (frame : Frame)
    (recipients : List (ClientRef × QueueKind)) :
    (recipients.map fun r => Delivery.enqueue r.1 r.2 frame).filterMap
        (Delivery.queued y queue) =
      (recipients.filter (· = (y, queue))).map fun _ => frame := by
  induction recipients with
  | nil => rfl
  | cons r rest ih =>
    rw [List.map_cons, List.filter_cons]
    by_cases hr : r = (y, queue)
    · rw [if_pos (decide_eq_true hr), List.map_cons, ← ih]
      exact List.filterMap_cons_some (if_pos (Prod.ext_iff.mp hr))
    · rw [if_neg (by simpa using hr), ← ih]
      exact List.filterMap_cons_none (if_neg fun hboth => hr (Prod.ext_iff.mpr hboth))

end Hub

/-- For a client it only matters which identifiers are its own. -/
theorem recipients_congr {members : List ClientRef} {byID byID' : String → Option ClientRef}
    {y : ClientRef} (hbyID : ∀ id, byID id = some y ↔ byID' id = some y)
    (activeVideo : Option String) (p : VideoPacket) (queue : QueueKind) :
    (p.recipients members byID activeVideo).filter (· = (y, queue)) =
      (p.recipients members byID' activeVideo).filter (· = (y, queue)) := by
  have htarget (id : String) :
      ((byID id).toList.map fun z => (z, QueueKind.highPri)).filter (· = (y, queue)) =
        ((byID' id).toList.map fun z => (z, QueueKind.highPri)).filter (· = (y, queue)) := by
    have hone (o : Option ClientRef) :
        (o.toList.map fun z => (z, QueueKind.highPri)).filter (· = (y, queue)) =
          if o = some y ∧ queue = .highPri then [(y, queue)] else [] := by
      cases o with
      | none => rfl
      | some z =>
        by_cases hz : z = y
        · cases queue <;> simp [hz]
        · simp [hz]
    rw [hone, hone]
    exact if_congr (and_congr_left' (hbyID id)) rfl rfl
  unfold VideoPacket.recipients
  cases p.message with
  | offer targetID inst =>
    dsimp only
    split_ifs
    · rfl
    · exact htarget targetID
  | answer targetID inst offered =>
    dsimp only
    split_ifs
    · rfl
    · exact htarget targetID
  | ice targetID inst remote =>
    dsimp only
    split_ifs
    · rfl
    · exact htarget targetID
  | _ => rfl

/-- What a client does of itself on its channel. -/
def VideoEvent.stays : VideoEvent → Bool
  | receive _ | changeChannel _ => false
  | _ => true

/-- `text` writes down the descriptions and candidates of messages, and `decode` is what a page
makes of the signals that are about video. -/
def videoHubStep (text : VideoMessage → String) (decode : Signal → Option VideoPacket)
    (s : VideoHub) : RoomEvent → Option VideoHub
  | .act x e =>
    if e.stays then (videoStep (s.client x) e).map fun t =>
      { s with client := Function.update s.client x t }
    else none
  | .relay x => (s.client x).sent[s.taken x]?.map fun m => { s with
    hub := Hub.after (Hub.handleSignal x (m.signal text (s.client x).currentChannelID) {}) s.hub
    taken := Function.update s.taken x (s.taken x + 1) }
  | .deliver x queue => (s.hub.queue x queue)[s.read x queue]?.map fun frame => { s with
    client := Function.update s.client x (match frame with
      | .json msg _ => (decode msg).elim (s.client x) fun p =>
        (s.client x).handleSignalingMessage p
      | .binary _ => s.client x)
    read := Function.update s.read x
      (Function.update (s.read x) queue (s.read x queue + 1)) }

def RoomEvent.actor : RoomEvent → ClientRef
  | act x _ | relay x | deliver x _ => x

/-- The room is what the hub and the pages of its members come to. -/
structure VideoRoom.Shows (text : VideoMessage → String) (r : VideoRoom) (s : VideoHub) :
    Prop where
  members : s.hub.subscribersOf r.channel = r.members
  tuned : ∀ x ∈ r.members, s.hub.channelOf x = some r.channel
  client : ∀ x ∈ r.members, s.client x = r.client x
  identity : ∀ x ∈ r.members, (r.client x).identity = ((s.hub.heap x).id, (s.hub.heap x).callsign)
  taken : ∀ x ∈ r.members, s.taken x = r.taken x
  byID : ∀ y ∈ r.members, ∀ id, s.hub.clientsByID id = some y ↔ r.byID id = some y
  activeVideo : (s.hub.activeVideoByChannel r.channel).map (fun v => v.senderID) = r.activeVideo
  -- what a member has not been handed yet
  inbox : ∀ y ∈ r.members, ∀ queue, ∃ past, past.length = s.read y queue ∧
    s.hub.queue y queue = past ++ (r.inbox y queue).map fun p =>
      .json (p.signal text) s.hub.unixMilli

/-- The pages have handled all that was sent before, and none of them is in a video call. -/
def VideoHub.init (channel : ChannelID) (h : Hub) : VideoHub where
  hub := h
  client := fun x => {
    myClientID := (h.heap x).id
    myCallsign := (h.heap x).callsign
    currentChannelID := channel }
  taken := fun _ => 0
  read := fun y queue => (h.queue y queue).length

def VideoRoom.ofHub (channel : ChannelID) (h : Hub) : VideoRoom :=
  VideoRoom.init channel (h.subscribersOf channel) (Hub.nodup_subscribersOf channel h)
    (fun x => (h.heap x).id) fun x => (h.heap x).callsign

section Refinement

variable {text : VideoMessage → String} {decode : Signal → Option VideoPacket}
  {r : VideoRoom} {s t : VideoHub} {x : ClientRef}

/-- A page of the channel goes on. -/
theorem VideoRoom.Shows.update (h : r.Shows text s) {v : VideoClient}
    (hv : v.identity = (r.client x).identity) :
    VideoRoom.Shows text { r with client := Function.update r.client x v }
      { s with client := Function.update s.client x v } where
  members := h.members
  tuned := h.tuned
  client := by
    intro z hz
    show Function.update s.client x v z = Function.update r.client x v z
    by_cases hzx : z = x
    · rw [hzx, Function.update_self, Function.update_self]
    · rw [Function.update_of_ne hzx, Function.update_of_ne hzx]
      exact h.client z hz
  identity := by
    intro z hz
    show (Function.update r.client x v z).identity = _
    rw [← h.identity z hz]
    by_cases hzx : z = x
    · rw [hzx, Function.update_self, hv]
    · rw [Function.update_of_ne hzx]
  taken := h.taken
  byID := h.byID
  activeVideo := h.activeVideo
  inbox := h.inbox

theorem VideoRoom.Shows.relay (h : r.Shows text s) (hx : x ∈ r.members) (ch : ChannelID)
    (m : VideoMessage) : (r.relay x m).Shows text { s with
      hub := Hub.after (Hub.handleSignal x (m.signal text ch) {}) s.hub
      taken := Function.update s.taken x (s.taken x + 1) } := by
  have hof := h.tuned x hx
  have hpacket : r.packet x m = ⟨r.channel, (s.hub.heap x).id, (s.hub.heap x).callsign, m⟩ := by
    obtain ⟨hid, hcallsign⟩ := Prod.ext_iff.mp (h.identity x hx)
    rw [VideoRoom.packet, show (r.client x).myClientID = _ from hid,
      show (r.client x).myCallsign = _ from hcallsign]
  have hsent := sent_videoMessage hof text ch m {}
  rw [h.members, h.activeVideo, ← hpacket] at hsent
  set hub' := Hub.after (Hub.handleSignal x (m.signal text ch) {}) s.hub
  obtain ⟨hchannels, hheap, hbyID, hnow⟩ := Hub.kept_videoMessage hof text ch m {}
  have hactive : _ = r.activeAfter ⟨_, _, (s.hub.heap x).callsign, m⟩ :=
    Hub.activeVideo_videoMessage hof text ch m {} h.activeVideo
  rw [← hpacket] at hactive
  have htime : hub'.unixMilli = s.hub.unixMilli := by
    rw [Hub.unixMilli, hnow, Hub.unixMilli]
  constructor
  case members =>
    refine Eq.trans ?_ h.members
    show hub'.subscribersOf r.channel = s.hub.subscribersOf r.channel
    unfold Hub.subscribersOf Hub.readChannel
    rw [hchannels]
  case tuned =>
    intro z hz
    refine Eq.trans ?_ (h.tuned z hz)
    show hub'.channelOf z = s.hub.channelOf z
    unfold Hub.channelOf
    rw [hchannels, hheap]
  case client => exact h.client
  case identity =>
    intro z hz
    rw [show (r.relay x m).client z = r.client z from rfl, h.identity z hz]
    show _ = ((hub'.heap z).id, (hub'.heap z).callsign)
    rw [hheap]
  case taken =>
    intro z hz
    show Function.update s.taken x (s.taken x + 1) z = Function.update r.taken x (r.taken x + 1) z
    rw [h.taken x hx]
    by_cases hzx : z = x
    · rw [hzx, Function.update_self, Function.update_self]
    · rw [Function.update_of_ne hzx, Function.update_of_ne hzx]
      exact h.taken z hz
  case byID =>
    intro y hy id
    show hub'.clientsByID id = some y ↔ r.byID id = some y
    rw [hbyID]
    exact h.byID y hy id
  case activeVideo => exact hactive
  case inbox =>
    intro y hy queue
    -- the handler's frames come behind what `y` has not been handed yet, in the same order
    obtain ⟨past, hpast, hqueue⟩ := h.inbox y hy queue
    refine ⟨past, hpast, ?_⟩
    show hub'.outbox.filterMap _ = past ++ (r.inbox y queue ++ _).map fun p =>
      Frame.json (p.signal text) hub'.unixMilli
    rw [Hub.outbox_after, List.filterMap_append, hsent, Hub.queued_enqueue,
      recipients_congr (h.byID y hy), htime, List.map_append, ← List.append_assoc, ← hqueue,
      List.map_map]
    rfl

theorem VideoRoom.Shows.deliver (hcodec : ∀ p, decode (p.signal text) = some p)
    (h : r.Shows text s) (hx : x ∈ r.members) {queue : QueueKind}
    (hstep : videoHubStep text decode s (.deliver x queue) = some t) :
    ∃ r', roomStep r (.deliver x queue) = some r' ∧ r'.Shows text t ∧ r'.members = r.members := by
  obtain ⟨frame, hframe, rfl⟩ := Option.map_eq_some_iff.mp hstep
  obtain ⟨past, hpast, hqueue⟩ := h.inbox x hx queue
  rw [hqueue, ← hpast, List.getElem?_append_right le_rfl, Nat.sub_self] at hframe
  cases hinbox : r.inbox x queue with
  | nil =>
    rw [hinbox] at hframe
    cases hframe
  | cons p rest =>
    rw [hinbox] at hframe
    obtain rfl := Option.some.inj hframe
    have hstepped : roomStep r (.deliver x queue) = some { r with
        client := Function.update r.client x ((r.client x).handleSignalingMessage p)
        inbox := Function.update r.inbox x (Function.update (r.inbox x) queue rest) } := by
      simp only [roomStep, hinbox]
    refine ⟨_, hstepped, ?_, rfl⟩
    -- what the page decodes is the packet at the head of the room's inbox
    have hhanded : (decode (p.signal text)).elim (s.client x)
        (fun p => (s.client x).handleSignalingMessage p) =
          (r.client x).handleSignalingMessage p := by
      rw [hcodec, Option.elim_some, h.client x hx]
    have hread := h.update (VideoClient.identity_handleSignalingMessage p (r.client x))
    show VideoRoom.Shows text _ { s with
      client := Function.update s.client x ((decode (p.signal text)).elim (s.client x)
        fun p => (s.client x).handleSignalingMessage p)
      read := Function.update s.read x (Function.update (s.read x) queue (s.read x queue + 1)) }
    rw [hhanded]
    refine ⟨hread.members, hread.tuned, hread.client, hread.identity, hread.taken, hread.byID,
      hread.activeVideo, fun y hy queue' => ?_⟩
    -- the frame handed over belongs to the past now
    show ∃ past', past'.length = Function.update s.read x _ y queue' ∧ s.hub.queue y queue' =
      past' ++ (Function.update r.inbox x _ y queue').map _
    by_cases hyx : y = x
    · subst hyx
      rw [Function.update_self, Function.update_self]
      by_cases hq : queue' = queue
      · subst hq
        rw [Function.update_self, Function.update_self]
        refine ⟨past ++ [.json (p.signal text) s.hub.unixMilli], ?_, ?_⟩
        · rw [List.length_append, hpast, List.length_singleton]
        · rw [hqueue, hinbox, List.map_cons, List.append_assoc, List.singleton_append]
      · rw [Function.update_of_ne hq, Function.update_of_ne hq]
        exact h.inbox y hy queue'
    · rw [Function.update_of_ne hyx, Function.update_of_ne hyx]
      exact h.inbox y hy queue'

/-- Whatever the hub and the pages of a channel do in a video call, the room can do as well. -/
theorem VideoRoom.Shows.step (hcodec : ∀ p, decode (p.signal text) = some p)
    (h : r.Shows text s) {e : RoomEvent} (he : e.actor ∈ r.members)
    (hstep : videoHubStep text decode s e = some t) :
    ∃ r', roomStep r e = some r' ∧ r'.Shows text t ∧ r'.members = r.members := by
  cases e with
  | act x e =>
    simp only [videoHubStep] at hstep
    split_ifs at hstep with hstays
    obtain ⟨v, hv, rfl⟩ := Option.map_eq_some_iff.mp hstep
    rw [h.client x he] at hv
    refine ⟨{ r with client := Function.update r.client x v }, ?_,
      h.update (VideoClient.identity_videoStep hv), rfl⟩
    have hact : roomStep r (.act x e) = (videoStep (r.client x) e).map fun v =>
        { r with client := Function.update r.client x v } := by
      cases e <;> first | rfl | cases hstays
    rw [hact, hv]
    rfl
  | relay x =>
    obtain ⟨m, hm, rfl⟩ := Option.map_eq_some_iff.mp hstep
    rw [h.client x he, h.taken x he] at hm
    refine ⟨r.relay x m, ?_, h.relay he _ m, rfl⟩
    show (r.client x).sent[r.taken x]?.map _ = _
    rw [hm]
    rfl
  | deliver x queue => exact h.deliver hcodec he hstep

/-- Every run of the hub and the pages is one of the room. -/
theorem run_room (hcodec : ∀ p, decode (p.signal text) = some p) {es : List RoomEvent}
    (hrun : Run (videoHubStep text decode) s es t) (hes : ∀ e ∈ es, e.actor ∈ r.members)
    (h : r.Shows text s) : ∃ r', Run roomStep r es r' ∧ r'.Shows text t := by
  induction hrun generalizing r with
  | nil s => exact ⟨r, Run.nil r, h⟩
  | @cons s u t e es hstep _ ih =>
    obtain ⟨r₁, hr₁, hshows, hmembers⟩ := h.step hcodec (hes e List.mem_cons_self) hstep
    -- nobody leaves, so who acts later is a member of the room reached as well
    obtain ⟨r', hrun', hshows'⟩ := ih (fun e' he' => by
      rw [hmembers]
      exact hes e' (List.mem_cons_of_mem _ he')) hshows
    exact ⟨r', Run.cons hr₁ hrun', hshows'⟩

theorem VideoRoom.shows_init {h : Hub} {channel : ChannelID}
    (htuned : ∀ x ∈ h.subscribersOf channel, h.channelOf x = some channel)
    (hbyID : ∀ x ∈ h.subscribersOf channel, ∀ id,
      h.clientsByID id = some x ↔ (h.heap x).id = id)
    (hvideo : h.activeVideoByChannel channel = none) :
    (VideoRoom.ofHub channel h).Shows text (VideoHub.init channel h) where
  members := rfl
  tuned := htuned
  client _ _ := rfl
  identity _ _ := rfl
  taken _ _ := rfl
  byID := by
    intro y hy id
    show h.clientsByID id = some y ↔
      (h.subscribersOf channel).find? (fun z => (h.heap z).id = id) = some y
    rw [hbyID y hy]
    constructor
    · rintro rfl
      cases hfind : (h.subscribersOf channel).find? (fun z => (h.heap z).id = (h.heap y).id) with
      | none => exact absurd (decide_eq_true rfl) (List.find?_eq_none.mp hfind y hy)
      | some z =>
        -- nobody else has the identifier
        have hz := (hbyID z (List.mem_of_find?_eq_some hfind) (h.heap y).id).mpr
          (of_decide_eq_true (List.find?_some hfind :))
        exact hz.symm.trans ((hbyID y hy (h.heap y).id).mpr rfl)
    · intro hfind
      exact of_decide_eq_true (List.find?_some hfind :)
  activeVideo := by
    show (h.activeVideoByChannel channel).map _ = none
    rw [hvideo]
    rfl
  inbox y _ queue := ⟨h.queue y queue, rfl, (List.append_nil _).symm⟩

/-- While the hub handles nothing but the video messages of a channel's members, and these stay,
every run of it and their pages is one of the channel's room, which begins without a call. -/
theorem run_room_of_hub (hcodec : ∀ p, decode (p.signal text) = some p) {h : Hub}
    {channel : ChannelID} (htuned : ∀ x ∈ h.subscribersOf channel, h.channelOf x = some channel)
    (hbyID : ∀ x ∈ h.subscribersOf channel, ∀ id,
      h.clientsByID id = some x ↔ (h.heap x).id = id)
    (hvideo : h.activeVideoByChannel channel = none) {es : List RoomEvent}
    (hrun : Run (videoHubStep text decode) (VideoHub.init channel h) es t)
    (hes : ∀ e ∈ es, e.actor ∈ h.subscribersOf channel) :
    ∃ r, Run roomStep (VideoRoom.ofHub channel h) es r ∧ r.Shows text t :=
  run_room hcodec hrun hes (VideoRoom.shows_init htuned hbyID hvideo)

end Refinement

end TwoWayRadio

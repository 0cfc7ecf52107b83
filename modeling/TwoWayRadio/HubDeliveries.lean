import TwoWayRadio.FloorNames
import TwoWayRadio.HubMembership
import Mathlib.Data.Fintype.Defs

/-! What the clients hear about floors: the messages a call delivers, to whom, and what each of
them says about its channel. -/
namespace TwoWayRadio

/-- The two ways in which a client follows a floor: `channel_activity`, which goes to every
client, and the messages that go to the listeners of the channel alone. -/
inductive Feed
  | activity | listening
deriving DecidableEq

instance : Fintype Feed := ⟨{.activity, .listening}, fun feed => by cases feed <;> decide⟩

namespace Signal

/-- The channel a message is about, if it belongs to the feed. -/
def about : Feed → Signal → Option ChannelID
  | .activity, .channelActivity ch _ _ => some ch
  | .listening, .userTalking p | .listening, .userStopped p => some p.channelID
  | .listening, .floorStatus p => if p.status = .idle then some p.channelID else none
  | _, _ => none

/-- The message is true of a floor with this speaker. -/
def Shows : Signal → Option Client → Prop
  | .channelActivity _ isBusy callsign, some speaker =>
    isBusy = true ∧ callsign = speaker.callsign
  | .channelActivity _ isBusy _, none => isBusy = false
  | .userTalking p, some speaker => p.userID = speaker.id ∧ p.callsign = speaker.callsign
  | .userTalking _, none => False
  | .userStopped _, speaker | .floorStatus _, speaker => speaker = none
  | _, _ => True

theorem announcesFloor_of_about {feed : Feed} {msg : Signal} {c : ChannelID}
    (h : msg.about feed = some c) : msg.announcesFloor = true := by
  cases feed <;> cases msg <;> first | rfl | cases h

end Signal

/-- The message a client hears from a delivery, if it is in the feed and about the channel. -/
def Delivery.heard (feed : Feed) (x : ClientRef) (c : ChannelID) : Delivery → Option Signal
  | .enqueue y _ (.json msg _) => if y = x ∧ msg.about feed = some c then some msg else none
  | _ => none

/-- The last message of the feed about channel `c` enqueued to `x` among the given deliveries. -/
def lastHeard (feed : Feed) (x : ClientRef) (c : ChannelID) (deliveries : List Delivery) :
    Option Signal :=
  (deliveries.filterMap (Delivery.heard feed x c)).getLast?

/-- The clients a feed about `c` goes to. -/
def Feed.Reaches (feed : Feed) (h : Hub) (x : ClientRef) (c : ChannelID) : Prop :=
  match feed with
  | activity => x ∈ h.clients
  | listening => h.Subscribed c x

namespace HubOp

/-- The clients that a call's message is sent to. -/
def receivers : HubOp → Hub → List ClientRef
  | broadcastAll _, h => h.clients.keys
  | broadcastSignal ch _, h => h.subscribersOf ch
  | sendJSON x _, _ | sendPriorityJSON x _, _ => [x]
  | _, _ => []

def broadcasts : HubOp → Bool
  | broadcastAll _ | broadcastSignal .. => true
  | _ => false

/-- The call by which `x` comes to be reached by a feed about `c`. -/
def joins (feed : Feed) (x : ClientRef) (c : ChannelID) : HubOp → Bool
  | register y _ => feed = .activity ∧ y = x
  | addSubscriber ch y => feed = .listening ∧ ch = c ∧ y = x
  | _ => false

variable {op : HubOp} {h : Hub} {feed : Feed} {x : ClientRef} {c : ChannelID}

theorem message_of_joins (hj : op.joins feed x c = true) : op.message = none := by
  cases op <;> first | rfl | cases hj

/-- What a call delivers: its message to its receivers, or nothing that belongs to a feed. -/
theorem outbox_run (op : HubOp) (h : Hub) : ∃ sent, (op.run h).2.outbox = h.outbox ++ sent ∧
    ((∃ msg queue, op.message = some msg ∧ sent = (op.receivers h).map fun y =>
        Delivery.enqueue y queue (.json msg h.unixMilli)) ∨
      (op.message = none ∧ ∀ d ∈ sent, ∀ feed x c, d.heard feed x c = none)) := by
  have hquiet : ∀ {op : HubOp}, op.message = none → (op.run h).2.outbox = h.outbox →
      ∃ sent, (op.run h).2.outbox = h.outbox ++ sent ∧
        ((∃ msg queue, op.message = some msg ∧ sent = (op.receivers h).map fun y =>
            Delivery.enqueue y queue (.json msg h.unixMilli)) ∨
          (op.message = none ∧ ∀ d ∈ sent, ∀ feed x c, d.heard feed x c = none)) :=
    fun hm ho => ⟨[], by rw [ho, List.append_nil], Or.inr ⟨hm, fun _ hd => by cases hd⟩⟩
  -- no feed has to do with audio
  have hbinary : ∀ (clients : List ClientRef) (data : Bytes),
      ∀ d ∈ clients.map fun y => Delivery.enqueue y .send (.binary data),
        ∀ feed x c, d.heard feed x c = none := by
    intro clients data d hd feed x c
    obtain ⟨y, _, rfl⟩ := List.mem_map.mp hd
    rfl
  cases op with
  | broadcastAll msg => exact ⟨_, rfl, Or.inl ⟨msg, .send, rfl, rfl⟩⟩
  | broadcastSignal ch msg => exact ⟨_, rfl, Or.inl ⟨msg, .send, rfl, rfl⟩⟩
  | sendJSON y msg => exact ⟨_, rfl, Or.inl ⟨msg, .send, rfl, rfl⟩⟩
  | sendPriorityJSON y msg => exact ⟨_, rfl, Or.inl ⟨msg, .highPri, rfl, rfl⟩⟩
  | allCallAudio sender data => exact ⟨_, rfl, Or.inr ⟨rfl, hbinary _ _⟩⟩
  | broadcastAudio ch sender data => exact ⟨_, rfl, Or.inr ⟨rfl, hbinary _ _⟩⟩
  | relay ch data =>
    refine ⟨_, rfl, Or.inr ⟨rfl, fun d hd feed x c => ?_⟩⟩
    rw [List.mem_singleton.mp hd]
    rfl
  | register y first =>
    refine hquiet rfl ?_
    show (h.register y first).2.outbox = h.outbox
    rw [Hub.register_eq]
  | endVideo y =>
    refine hquiet rfl ?_
    simp only [run]
    split_ifs <;> rfl
  | addSubscriber ch y => exact hquiet rfl (Hub.onChannel_outbox ..)
  | removeSubscriber ch y => exact hquiet rfl (Hub.onChannel_outbox ..)
  | requestFloor ch y => exact hquiet rfl (Hub.onChannel_outbox ..)
  | releaseFloor ch y => exact hquiet rfl (Hub.onChannel_outbox ..)
  | handleTOT ch timer => exact hquiet rfl (Hub.onChannel_outbox ..)
  | onTransmissionStart ch speaker => exact hquiet rfl (Hub.onRecorder_outbox ..)
  | appendAudio ch payload => exact hquiet rfl (Hub.onRecorder_outbox ..)
  | onTransmissionEnd ch => exact hquiet rfl (Hub.onRecorder_outbox ..)
  | _ => exact hquiet rfl rfl

theorem length_outbox_run (op : HubOp) (h : Hub) :
    h.outbox.length ≤ (op.run h).2.outbox.length := by
  obtain ⟨sent, hsent, _⟩ := outbox_run op h
  rw [hsent, List.length_append]
  omega

theorem heard_enqueue (feed : Feed) (x y : ClientRef) (c : ChannelID) (queue : QueueKind)
    (msg : Signal) (now : ℤ) : (Delivery.enqueue y queue (.json msg now)).heard feed x c =
      if y = x ∧ msg.about feed = some c then some msg else none := rfl

/-- A receiver has heard a message about the channel last. -/
theorem lastHeard_run_of_receives {msg : Signal} (hm : op.message = some msg)
    (habout : msg.about feed = some c) (hx : x ∈ op.receivers h) {n : ℕ}
    (hn : n ≤ h.outbox.length) :
    lastHeard feed x c ((op.run h).2.outbox.drop n) = some msg := by
  obtain ⟨sent, hsent, ⟨msg', queue, hm', heq⟩ | ⟨hnone, _⟩⟩ := outbox_run op h
  · rw [hm] at hm'
    obtain rfl := Option.some.inj hm'
    rw [lastHeard, hsent, List.drop_append_of_le_length hn, List.filterMap_append,
      List.getLast?_append]
    -- all that this call delivers of the feed is the one message
    have hall : ∀ msg' ∈ sent.filterMap (Delivery.heard feed x c), msg' = msg := by
      intro msg' hmem
      obtain ⟨d, hd, hheard⟩ := List.mem_filterMap.mp hmem
      rw [heq] at hd
      obtain ⟨y, _, rfl⟩ := List.mem_map.mp hd
      rw [heard_enqueue] at hheard
      split_ifs at hheard
      exact (Option.some.inj hheard).symm
    have hmem : msg ∈ sent.filterMap (Delivery.heard feed x c) := by
      refine List.mem_filterMap.mpr ⟨.enqueue x queue (.json msg h.unixMilli), ?_, ?_⟩
      · rw [heq]
        exact List.mem_map.mpr ⟨x, hx, rfl⟩
      · rw [heard_enqueue, if_pos ⟨rfl, habout⟩]
    cases hlast : (sent.filterMap (Delivery.heard feed x c)).getLast? with
    | none =>
      rw [List.getLast?_eq_none_iff.mp hlast] at hmem
      cases hmem
    | some msg' => rw [hall msg' (List.mem_of_getLast? hlast), Option.some_or]
  · rw [hm] at hnone
    cases hnone

/-- Whoever receives nothing about the channel has heard last what was heard last before. -/
theorem lastHeard_run_of_not_receives
    (hnot : ∀ msg, op.message = some msg → msg.about feed = some c → x ∉ op.receivers h) {n : ℕ}
    (hn : n ≤ h.outbox.length) : lastHeard feed x c ((op.run h).2.outbox.drop n) =
      lastHeard feed x c (h.outbox.drop n) := by
  obtain ⟨sent, hsent, hsent'⟩ := outbox_run op h
  have hnone : sent.filterMap (Delivery.heard feed x c) = [] := by
    refine List.filterMap_eq_nil_iff.mpr fun d hd => ?_
    rcases hsent' with ⟨msg, queue, hm, heq⟩ | ⟨_, hquiet⟩
    · rw [heq] at hd
      obtain ⟨y, hy, rfl⟩ := List.mem_map.mp hd
      rw [heard_enqueue, if_neg]
      rintro ⟨rfl, habout⟩
      exact hnot msg hm habout hy
    · exact hquiet d hd feed x c
  rw [lastHeard, hsent, List.drop_append_of_le_length hn, List.filterMap_append, hnone,
    List.append_nil]
  rfl

end HubOp

theorem Hub.subscribed_of_onChannel {α : Type} {ch c : ChannelID} {absent : α}
    {f : Channel → α × Channel} {h : Hub} {x : ClientRef}
    (hsub : ch = c → ∀ chan, x ∈ (f chan).2.subscribers → x ∈ chan.subscribers)
    (hs : (h.onChannel ch absent f).2.Subscribed c x) : h.Subscribed c x := by
  obtain ⟨chan, hchan, hx⟩ := hs
  rw [lookup_onChannel] at hchan
  split_ifs at hchan with heq
  · obtain ⟨chan', hchan', rfl⟩ := Option.map_eq_some_iff.mp hchan
    exact ⟨chan', by rw [heq, hchan'], hsub heq.symm chan' hx⟩
  · exact ⟨chan, hchan, hx⟩

/-- A client that a feed reaches after a call was reached before, or joins with it. -/
theorem HubOp.reaches_of_run {op : HubOp} {h : Hub} {feed : Feed} {x : ClientRef} {c : ChannelID}
    (hr : feed.Reaches (op.run h).2 x c) (hj : op.joins feed x c = false) :
    feed.Reaches h x c := by
  by_cases ht : op.touched = some x
  · -- a call that touches `x`: only joining puts it where the feed reaches
    cases feed with
    | activity =>
      show x ∈ h.clients
      have hx : x ∈ (op.run h).2.clients := hr
      cases op with
      | register y first =>
        obtain rfl := Option.some.inj ht
        simp [joins] at hj
      | unregister y =>
        obtain rfl := Option.some.inj ht
        exact ((AList.mem_erase).mp hx).2
      | addSubscriber ch y => rwa [run, Hub.onChannel_clients] at hx
      | removeSubscriber ch y => rwa [run, Hub.onChannel_clients] at hx
      | requestFloor ch y => rwa [run, Hub.onChannel_clients] at hx
      | setCurrentChannel y ch => exact hx
      | _ => cases ht
    | listening =>
      show h.Subscribed c x
      have hx : (op.run h).2.Subscribed c x := hr
      cases op with
      | register y first => rwa [Hub.Subscribed, channels_run rfl rfl] at hx
      | unregister y => exact hx
      | addSubscriber ch y =>
        obtain rfl := Option.some.inj ht
        refine Hub.subscribed_of_onChannel (fun heq => ?_) hx
        simp [joins, heq] at hj
      | removeSubscriber ch y =>
        refine Hub.subscribed_of_onChannel (fun _ chan hmem => ?_) hx
        rw [Channel.removeSubscriber_eq, Channel.releaseFloor_subscribers] at hmem
        exact ((AList.mem_erase).mp hmem).2
      | requestFloor ch y =>
        refine Hub.subscribed_of_onChannel (fun _ chan hmem => ?_) hx
        rwa [Channel.mem_subscribers_requestFloor] at hmem
      | setCurrentChannel y ch => exact hx
      | _ => cases ht
  · have he := elsewhere_run ht h
    cases feed with
    | activity => exact he.clients.mp hr
    | listening => exact (he.subscribed c).mp hr

end TwoWayRadio

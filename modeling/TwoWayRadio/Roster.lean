import TwoWayRadio.HubEffects
import TwoWayRadio.OwnChannel
import TwoWayRadio.SerialHub
import TwoWayRadio.UnlistedCalls

/-! The roster that a listener is shown against the subscribers of its channel. -/
namespace TwoWayRadio

open Interleaving Transition

/-- The payload of a `user_list`. -/
structure UserList where
  channelID : ChannelID
  users : List String
  userDetails : List ChannelUserInfo
  count : ℕ
deriving DecidableEq

def Signal.list : Signal → Option UserList
  | userList ch users details count => some ⟨ch, users, details, count⟩
  | _ => none

def Frame.list : Frame → Option UserList
  | .json msg _ => msg.list
  | .binary _ => none

/-- The lists that a client is sent, oldest first. -/
def lists (y : ClientRef) (deliveries : List Delivery) : List UserList :=
  (framesTo y deliveries).filterMap Frame.list

/-- Who a client is to the others. -/
def Hub.identity (h : Hub) (y : ClientRef) : String × String × String :=
  ((h.heap y).id, (h.heap y).callsign, (h.heap y).role)

/-- The list shows just these clients, whatever their positions are. -/
structure UserList.Shows (ch : ChannelID) (who : List (String × String × String)) (l : UserList) :
    Prop where
  channelID : l.channelID = ch
  users : l.users = who.map fun w => w.2.1
  details : l.userDetails.map (fun d => (d.id, d.callsign, d.role)) = who
  count : l.count = who.length

def Hub.roster (ch : ChannelID) (h : Hub) : List (String × String × String) :=
  (h.subscribersOf ch).map h.identity

/-- The last list that the subscribers of `ch` were sent shows who they are. -/
def Hub.Told (ch : ChannelID) (h : Hub) : Prop :=
  ∀ y, h.Subscribed ch y → ∃ l, (lists y h.outbox).getLast? = some l ∧ l.Shows ch (h.roster ch)

/-- Nobody is subscribed to two channels, and all but perhaps those of `stale` know who is on
their channel with them. -/
structure Hub.Rostered (stale : Option ChannelID) (h : Hub) : Prop where
  apart : ∀ y c c', h.Subscribed c y → h.Subscribed c' y → c = c'
  told : ∀ c, stale ≠ some c → h.Told c

/-- A call that leaves the rosters alone, and sends no list. -/
def HubOp.keepsRoster : HubOp → Bool
  | addSubscriber .. | removeSubscriber .. | setCallsign .. | setRole .. => false
  | op => (op.message.bind Signal.list).isNone

section Calls

variable {h : Hub} {op : HubOp} {x y : ClientRef} {c ch : ChannelID} {stale : Option ChannelID}

theorem subscribersOf_onChannel {α : Type} {absent : α} {f : Channel → α × Channel}
    (hf : c = ch → ∀ chan, (f chan).2.subscribers = chan.subscribers) :
    (h.onChannel ch absent f).2.subscribersOf c = h.subscribersOf c := by
  unfold Hub.subscribersOf Hub.readChannel
  rw [Hub.lookup_onChannel]
  split_ifs with heq
  · rw [heq]
    cases h.channels.lookup ch with
    | none => rfl
    | some chan => exact congrArg AList.keys (hf heq chan)
  · rfl

theorem subscribersOf_run (hop : op.keepsRoster = true) (c : ChannelID) :
    (op.run h).2.subscribersOf c = h.subscribersOf c := by
  by_cases htarget : op.target = none
  · by_cases hcreates : op.createsChannel = false
    · rw [Hub.subscribersOf, Hub.readChannel, HubOp.channels_run htarget hcreates]
      rfl
    · cases op with
      | createChannel p =>
        rw [Hub.subscribersOf, Hub.readChannel, HubOp.lookup_createChannel]
        split_ifs with heq
        · -- the new channel has no subscribers, and had none while it did not exist
          rw [Hub.subscribersOf, Hub.readChannel, heq, Hub.newChannelID_fresh]
          rfl
        · rfl
      | _ => exact absurd rfl hcreates
  · cases op with
    | addSubscriber ch x => cases hop
    | removeSubscriber ch x => cases hop
    | requestFloor ch x =>
      exact subscribersOf_onChannel fun _ chan =>
        Channel.mem_subscribers_requestFloor h.heap x chan
    | releaseFloor ch x =>
      exact subscribersOf_onChannel fun _ chan => Channel.releaseFloor_subscribers x chan
    | handleTOT ch timer =>
      refine subscribersOf_onChannel fun _ chan => ?_
      rcases chan.runTimer_getD timer with heq | ⟨-, -, -, hsub⟩
      · rw [heq]
      · exact hsub
    | _ => exact absurd rfl htarget

/-- A change of a client's other fields. -/
theorem identity_update (h : Hub) {u : Client}
    (hc : (u.id, u.callsign, u.role) = h.identity x) (y : ClientRef) :
    (h.setClient x u).identity y = h.identity y := by
  by_cases hy : y = x
  · subst hy
    have hheap : (h.setClient y u).heap y = u := Function.update_self ..
    rw [Hub.identity, hheap]
    exact hc
  · have hheap : (h.setClient x u).heap y = h.heap y := Function.update_of_ne hy ..
    rw [Hub.identity, hheap, Hub.identity]

theorem identity_run (hop : op.keepsRoster = true) (y : ClientRef) :
    (op.run h).2.identity y = h.identity y := by
  have hchannel : ∀ {α : Type} (ch : ChannelID) (absent : α) (f : Channel → α × Channel),
      (h.onChannel ch absent f).2.identity y = h.identity y :=
    fun ch absent f => Hub.onChannel_part (g := fun h => h.identity y) (fun _ _ => rfl) ..
  have hrecorder : ∀ {α : Type} (absent : α) (f : AudioRecorder → α × AudioRecorder),
      (h.onRecorder absent f).2.identity y = h.identity y :=
    fun absent f => Hub.onRecorder_part (g := fun h => h.identity y) (fun _ _ => rfl) ..
  cases op with
  | register x first =>
    show (h.register x first).2.identity y = h.identity y
    rw [Hub.register_eq]
    cases h.registrationChannel x first with
    | none => rfl
    | some id =>
      exact identity_update h (x := x) (u := { h.heap x with currentChannelID := id }) rfl y
  | setCallsign x callsign => cases hop
  | setRole x role => cases hop
  | setLocation x location =>
    exact identity_update h (x := x) (u := { h.heap x with location := some location }) rfl y
  | setCurrentChannel x ch =>
    exact identity_update h (x := x) (u := { h.heap x with currentChannelID := ch }) rfl y
  | endVideo x =>
    simp only [HubOp.run]
    split_ifs <;> rfl
  | addSubscriber ch x => exact hchannel ..
  | removeSubscriber ch x => exact hchannel ..
  | requestFloor ch x => exact hchannel ..
  | releaseFloor ch x => exact hchannel ..
  | handleTOT ch timer => exact hchannel ..
  | onTransmissionStart ch x => exact hrecorder ..
  | appendAudio ch payload => exact hrecorder ..
  | onTransmissionEnd ch => exact hrecorder ..
  | _ => rfl

/-- Only a message that is a list is a list for anybody. -/
theorem lists_run (hop : op.message.bind Signal.list = none) (y : ClientRef) :
    lists y (op.run h).2.outbox = lists y h.outbox := by
  have hnone : (framesTo y (op.sends h)).filterMap Frame.list = [] := by
    refine List.filterMap_eq_nil_iff.mpr fun frame hframe => ?_
    obtain ⟨queue, hd⟩ := mem_framesTo.mp hframe
    cases frame with
    | binary data => rfl
    | json msg now =>
      rw [(HubOp.message_of_sends hd).1] at hop
      exact hop
  rw [lists, HubOp.outbox_sends, framesTo_append, List.filterMap_append, hnone, List.append_nil,
    lists]

theorem message_of_keepsRoster (hop : op.keepsRoster = true) :
    op.message.bind Signal.list = none := by
  cases op <;> first | rfl | exact Option.isNone_iff_eq_none.mp hop

/-- A channel whose subscribers, and who they are, have not changed. -/
theorem Told.congr {h' : Hub} (ht : h.Told c) (hsub : h'.subscribersOf c = h.subscribersOf c)
    (hwho : ∀ y, h.Subscribed c y → h'.identity y = h.identity y)
    (hlists : ∀ y, lists y h'.outbox = lists y h.outbox) : h'.Told c := by
  have hroster : h'.roster c = h.roster c := by
    rw [Hub.roster, Hub.roster, hsub]
    exact List.map_congr_left fun y hy => hwho y (Hub.mem_subscribersOf.mp hy)
  intro y hy
  rw [← Hub.mem_subscribersOf, hsub, Hub.mem_subscribersOf] at hy
  rw [hlists, hroster]
  exact ht y hy

theorem rostered_run (hr : h.Rostered stale) (hop : op.keepsRoster = true) :
    (op.run h).2.Rostered stale := by
  have hsub (y : ClientRef) (c : ChannelID) :
      (op.run h).2.Subscribed c y ↔ h.Subscribed c y := by
    rw [← Hub.mem_subscribersOf, subscribersOf_run hop, Hub.mem_subscribersOf]
  refine ⟨fun y c c' hc hc' => hr.apart y c c' ((hsub y c).mp hc) ((hsub y c').mp hc'),
    fun c hc => ?_⟩
  exact Told.congr (hr.told c hc) (subscribersOf_run hop c) (fun y _ => identity_run hop y)
    (lists_run (message_of_keepsRoster hop))

theorem rostered_addSubscriber (hr : h.Rostered none) (hx : ∀ c, ¬ h.Subscribed c x) :
    ((HubOp.addSubscriber ch x).run h).2.Rostered (some ch) := by
  constructor
  · intro y c c' hc hc'
    obtain hc | hc := subscribed_run hc <;> obtain hc' | hc' := subscribed_run hc'
    · exact hr.apart y c c' hc hc'
    · obtain ⟨-, rfl⟩ := HubOp.addSubscriber.inj hc'
      exact absurd hc (hx c)
    · obtain ⟨-, rfl⟩ := HubOp.addSubscriber.inj hc
      exact absurd hc' (hx c')
    · exact (HubOp.addSubscriber.inj hc).1.symm.trans (HubOp.addSubscriber.inj hc').1
  · intro c hc
    have hne : c ≠ ch := fun heq => hc (congrArg some heq.symm)
    exact Told.congr (hr.told c (by simp)) (subscribersOf_onChannel fun heq => absurd heq hne)
      (fun y _ => by rw [HubOp.run, Hub.identity, Hub.onChannel_heap, Hub.identity])
      (lists_run rfl)

theorem rostered_removeSubscriber (hr : h.Rostered none) :
    ((HubOp.removeSubscriber ch x).run h).2.Rostered (some ch) := by
  constructor
  · have before {y : ClientRef} {c : ChannelID}
        (hc : ((HubOp.removeSubscriber ch x).run h).2.Subscribed c y) : h.Subscribed c y := by
      obtain hc | hc := subscribed_run hc
      · exact hc
      · cases hc
    exact fun y c c' hc hc' => hr.apart y c c' (before hc) (before hc')
  · intro c hc
    have hne : c ≠ ch := fun heq => hc (congrArg some heq.symm)
    exact Told.congr (hr.told c (by simp)) (subscribersOf_onChannel fun heq => absurd heq hne)
      (fun y _ => by rw [HubOp.run, Hub.identity, Hub.onChannel_heap, Hub.identity])
      (lists_run rfl)

/-- Whoever changes its name makes the list of its own channel stale, and no other. -/
theorem rostered_setClient {c' : Client} (hr : h.Rostered stale)
    (hx : ∀ c, h.Subscribed c x → stale = some c) : (h.setClient x c').Rostered stale := by
  refine ⟨hr.apart, fun c hc => Told.congr (hr.told c hc) rfl (fun y hy => ?_) fun y => rfl⟩
  have hne : y ≠ x := by
    rintro rfl
    exact hc (hx c hy)
  have hheap : (h.setClient x c').heap y = h.heap y := Function.update_of_ne hne ..
  rw [Hub.identity, hheap, Hub.identity]

/-- The list that is broadcast to `ch`. -/
def Hub.currentList (ch : ChannelID) (h : Hub) : UserList where
  channelID := ch
  users := h.readChannel ch [] fun c => c.getUserCallsigns h.heap
  userDetails := h.readChannel ch [] fun c => c.getSubscribersInfo h.heap
  count := (h.readChannel ch [] fun c => c.getUserCallsigns h.heap).length

theorem currentList_shows (ch : ChannelID) (h : Hub) :
    (h.currentList ch).Shows ch (h.roster ch) := by
  unfold Hub.currentList Hub.roster Hub.subscribersOf Hub.readChannel
  cases h.channels.lookup ch with
  | none => exact ⟨rfl, rfl, rfl, rfl⟩
  | some c =>
    refine ⟨rfl, ?_, ?_, ?_⟩
    · simp [Channel.getUserCallsigns, Hub.identity]
    · simp [Channel.getSubscribersInfo, Hub.identity]
    · simp [Channel.getUserCallsigns]

theorem lists_broadcastUserList (y : ClientRef) :
    lists y (Hub.after (Hub.broadcastUserList ch) h).outbox = lists y h.outbox ++
      List.replicate ((h.subscribersOf ch).count y) (h.currentList ch) := by
  have hafter : (Hub.after (Hub.broadcastUserList ch) h).outbox = h.outbox ++
      (h.subscribersOf ch).map fun z => .enqueue z .send (.json (.userList ch
        (h.currentList ch).users (h.currentList ch).userDetails (h.currentList ch).count)
          h.unixMilli) := rfl
  have hlist : Frame.list (.json (.userList ch (h.currentList ch).users
      (h.currentList ch).userDetails (h.currentList ch).count) h.unixMilli) =
        some (h.currentList ch) := rfl
  rw [lists, hafter, framesTo_append, framesTo_map, List.filterMap_append,
    List.filterMap_replicate_of_some hlist, lists]

theorem rostered_broadcastUserList (hr : h.Rostered stale) (hstale : ∀ c, stale = some c → c = ch) :
    (Hub.after (Hub.broadcastUserList ch) h).Rostered none := by
  have hroster (c : ChannelID) :
      (Hub.after (Hub.broadcastUserList ch) h).roster c = h.roster c := rfl
  refine ⟨hr.apart, fun c _ y hy => ?_⟩
  have hy : h.Subscribed c y := hy
  rw [lists_broadcastUserList, hroster]
  by_cases hc : c = ch
  · subst hc
    have hcount : 0 < (h.subscribersOf c).count y :=
      List.count_pos_iff.mpr (Hub.mem_subscribersOf.mpr hy)
    obtain ⟨n, hn⟩ := Nat.exists_eq_succ_of_ne_zero hcount.ne'
    refine ⟨_, ?_, currentList_shows c h⟩
    rw [hn, List.replicate_succ', ← List.append_assoc, List.getLast?_concat]
  · have hnone : (h.subscribersOf ch).count y = 0 :=
      List.count_eq_zero.mpr fun hmem => hc (hr.apart y c ch hy (Hub.mem_subscribersOf.mp hmem))
    rw [hnone, List.replicate_zero, List.append_nil]
    exact hr.told c (fun heq => hc (hstale c heq)) y hy

end Calls

section Handlers

open Hub Prog

variable {α β : Type} {h : Hub} {x y : ClientRef} {c ch new : ChannelID} {stale : Option ChannelID}

/-- A program that leaves the rosters alone, and sends no list. -/
abbrev Steady (p : HubProg α) : Prop := p.All fun op => op.keepsRoster = true

theorem rostered_steady {p : HubProg α} (hp : Steady p) (hr : h.Rostered stale) :
    (after p h).Rostered stale :=
  after_of_all (fun _ _ hop hr => rostered_run hr hop) hp hr

theorem subscribed_steady {p : HubProg α} (hp : Steady p) :
    (after p h).Subscribed c y ↔ h.Subscribed c y := by
  have hsame : (after p h).subscribersOf c = h.subscribersOf c :=
    after_of_all (I := fun h' => h'.subscribersOf c = h.subscribersOf c)
      (fun _ _ hop hsame => (subscribersOf_run hop c).trans hsame) hp rfl
  rw [← mem_subscribersOf, hsame, mem_subscribersOf]

/-- A handler that goes on without touching the rosters. -/
theorem rostered_then {p : HubProg α} {f : α → HubProg β} (hp : (after p h).Rostered stale)
    (hf : ∀ a, Steady (f a)) : (after (p >>= f) h).Rostered stale := by
  rw [after_bind]
  exact rostered_steady (hf _) hp

theorem keepsRoster_of_unlisted {op : HubOp} (hop : op.unlisted = true) :
    op.keepsRoster = true := by
  have hlist {msg : Signal} (hmsg : (!msg.isListing) = true) : msg.list.isNone = true := by
    cases msg <;> first | rfl | cases hmsg
  cases op with
  | broadcastAll msg => exact hlist hop
  | broadcastSignal ch msg => exact hlist hop
  | sendJSON y msg => exact hlist hop
  | sendPriorityJSON y msg => exact hlist hop
  | _ => first | rfl | cases hop

theorem steady_of_unlisted {p : HubProg α} (hp : Unlisted p) : Steady p :=
  hp.mono fun _ => keepsRoster_of_unlisted

theorem steady_endVideoOf (ch : ChannelID) (x : ClientRef) : Steady (endVideoOf ch x) :=
  steady_of_unlisted (unlisted_endVideoOf ch x)

theorem steady_finishRecording (ch : ChannelID) : Steady (finishRecording ch) :=
  steady_of_unlisted (unlisted_finishRecording ch)

theorem steady_announceIdle (ch : ChannelID) (c : Client) : Steady (announceIdle ch c) :=
  all_then rfl fun _ => all_then rfl fun _ => all_perform rfl

theorem steady_welcomeClient (x : ClientRef) : Steady (welcomeClient x) :=
  all_then rfl fun _ => all_then rfl fun _ => all_then rfl fun _ => all_then rfl fun _ =>
    all_then rfl fun _ => all_bind (all_when (all_perform rfl)) fun _ =>
      all_ifSome fun _ => all_perform rfl

/-- Whoever arrives is on the list of its channel, and the others hear of it. -/
theorem rostered_arrives (hr : h.Rostered none) (hx : ∀ c, ¬ h.Subscribed c x) :
    (after ((HubOp.addSubscriber ch x).call >>= fun _ => broadcastUserList ch) h).Rostered none :=
  rostered_broadcastUserList (rostered_addSubscriber hr hx) fun _ hc => (Option.some.inj hc).symm

theorem rostered_departs (hr : h.Rostered none) (f : Bool → HubProg Unit)
    (hf : ∀ released, Steady (f released)) :
    (after ((HubOp.removeSubscriber ch x).call >>= fun released =>
      broadcastUserList ch >>= fun _ => f released) h).Rostered none := by
  show (after (broadcastUserList ch >>= fun _ => f ((HubOp.removeSubscriber ch x).run h).1)
    ((HubOp.removeSubscriber ch x).run h).2).Rostered none
  exact rostered_then (rostered_broadcastUserList (rostered_removeSubscriber hr)
    fun _ hc => (Option.some.inj hc).symm) fun _ => hf _

theorem rostered_registerClient (first : ℕ) (hr : h.Rostered none)
    (hx : ∀ c, ¬ h.Subscribed c x) : (after (registerClient x first) h).Rostered none := by
  have hr' : ((HubOp.register x first).run h).2.Rostered none := rostered_run hr rfl
  have hx' (c : ChannelID) : ¬ ((HubOp.register x first).run h).2.Subscribed c x := by
    rw [← mem_subscribersOf, subscribersOf_run rfl, mem_subscribersOf]
    exact hx c
  show (after (Prog.ifSome ((HubOp.register x first).run h).1 (fun ch =>
    (HubOp.addSubscriber ch x).call >>= fun _ => broadcastUserList ch) >>= fun _ =>
      welcomeClient x) ((HubOp.register x first).run h).2).Rostered none
  refine rostered_then ?_ fun _ => steady_welcomeClient x
  cases ((HubOp.register x first).run h).1 with
  | none => exact hr'
  | some ch => exact rostered_arrives hr' hx'

theorem rostered_unregisterClient (hr : h.Rostered none) :
    (after (unregisterClient x) h).Rostered none := by
  have hr' : ((HubOp.unregister x).run h).2.Rostered none := rostered_run hr rfl
  show (after (Prog.ifSome ((HubOp.unregister x).run h).1 _)
    ((HubOp.unregister x).run h).2).Rostered none
  cases ((HubOp.unregister x).run h).1 with
  | none => exact hr'
  | some ch =>
    exact rostered_departs hr' _ fun released => all_bind (steady_endVideoOf ch x) fun _ =>
      all_when (all_then rfl fun c => steady_announceIdle ch c)

theorem rostered_leaveChannel (c : Client) (hr : h.Rostered none) :
    (after (leaveChannel x c ch) h).Rostered none :=
  rostered_departs hr _ fun _ => all_bind (all_when (steady_announceIdle ch c)) fun _ =>
    steady_endVideoOf ch x

/-- After leaving its only channel a client is on none. -/
theorem not_subscribed_leaveChannel (c' : Client) (hx : ∀ c, h.Subscribed c x → c = ch) :
    ∀ c, ¬ (after (leaveChannel x c' ch) h).Subscribed c x := by
  intro c hc
  let h' := ((HubOp.removeSubscriber ch x).run h).2
  have hrest : Steady (Prog.when ((HubOp.removeSubscriber ch x).run h).1 (announceIdle ch c') >>=
      fun _ => endVideoOf ch x) :=
    all_bind (all_when (steady_announceIdle ch c')) fun _ => steady_endVideoOf ch x
  have hafter : after (leaveChannel x c' ch) h = after (broadcastUserList ch >>= fun _ =>
      Prog.when ((HubOp.removeSubscriber ch x).run h).1 (announceIdle ch c') >>= fun _ =>
        endVideoOf ch x) h' := rfl
  rw [hafter, after_bind, subscribed_steady hrest] at hc
  have hc : h'.Subscribed c x := hc
  obtain hbefore | hjoins := subscribed_run hc
  · rw [hx c hbefore] at hc
    exact not_subscribed_removeSubscriber ch x h hc
  · cases hjoins

theorem rostered_enterChannel (hr : h.Rostered none) (hx : ∀ c, ¬ h.Subscribed c x) :
    (after (enterChannel x new) h).Rostered none := by
  have hr' : ((HubOp.setCurrentChannel x new).run h).2.Rostered none := rostered_run hr rfl
  exact rostered_then (p := (HubOp.addSubscriber new x).call >>= fun _ => broadcastUserList new)
    (f := fun _ => showChannel x new) (rostered_arrives hr' hx) fun _ =>
      steady_of_unlisted (unlisted_showChannel x new)

theorem rostered_switchChannel (password : String) (hr : h.Rostered none)
    (hx : ∀ c, h.Subscribed c x → h.channelOf x = some c) :
    (after (switchChannel x new password) h).Rostered none := by
  rcases after_switchChannel_cases x new password h with heq | ⟨text, heq⟩ | heq
  · rw [heq]
    exact hr
  · rw [heq]
    exact rostered_steady (all_perform rfl) hr
  · rw [heq]
    cases hold : h.channelOf x with
    | none =>
      refine rostered_enterChannel hr fun c hc => ?_
      rw [hx c hc] at hold
      cases hold
    | some old =>
      refine rostered_enterChannel (rostered_leaveChannel _ hr)
        (not_subscribed_leaveChannel _ fun c hc => ?_)
      exact Option.some.inj ((hx c hc).symm.trans hold)

/-- A client that has a new name is still on its channel, where the list is stale. -/
theorem rostered_renamed {u : Client} (hr : h.Rostered (h.channelOf x))
    (hx : ∀ c, h.Subscribed c x → h.channelOf x = some c)
    (hc : u.currentChannelID = (h.heap x).currentChannelID) :
    (h.setClient x u).channelOf x = h.channelOf x ∧
      (h.setClient x u).Rostered (h.channelOf x) := by
  have hheap : (h.setClient x u).heap x = u := Function.update_self ..
  refine ⟨?_, rostered_setClient hr hx⟩
  rw [channelOf, hheap, hc]
  rfl

theorem rostered_identifySignal (p : Decoded IdentifyPayload) (hr : h.Rostered none)
    (hx : ∀ c, h.Subscribed c x → h.channelOf x = some c) :
    (after (identifySignal x p) h).Rostered none := by
  unfold identifySignal
  rw [after_when]
  split_ifs
  swap
  · exact hr
  have tell {h' : Hub} (hof : h'.channelOf x = h.channelOf x)
      (hr' : h'.Rostered (h.channelOf x)) :
      (after ((HubOp.currentChannel x).call >>= fun ch => Prog.ifSome ch broadcastUserList)
        h').Rostered none := by
    show (after (Prog.ifSome (h'.channelOf x) broadcastUserList) h').Rostered none
    rw [hof]
    cases hc : h.channelOf x with
    | none =>
      rw [hc] at hr'
      exact hr'
    | some c =>
      exact rostered_broadcastUserList hr' fun c' hc' => Option.some.inj (hc'.symm.trans hc)
  have hr' : h.Rostered (h.channelOf x) := ⟨hr.apart, fun c _ => hr.told c (by simp)⟩
  obtain ⟨hof₁, hr₁⟩ := rostered_renamed (u := { h.heap x with callsign := p.value.callsign })
    hr' hx rfl
  rw [after_bind, after_bind, after_when]
  split_ifs
  · have hx₁ : ∀ c, ((HubOp.setCallsign x p.value.callsign).run h).2.Subscribed c x →
        ((HubOp.setCallsign x p.value.callsign).run h).2.channelOf x = some c :=
      fun c hc => hof₁.trans (hx c hc)
    obtain ⟨hof₂, hr₂⟩ := rostered_renamed (u := { ((HubOp.setCallsign x p.value.callsign).run
      h).2.heap x with role := p.value.role }) (hof₁ ▸ hr₁) hx₁ rfl
    exact tell (hof₂.trans hof₁) (hof₁ ▸ hr₂)
  · exact tell hof₁ hr₁

theorem rostered_createSignal (p : Decoded CreateChannelPayload) (hr : h.Rostered none)
    (hx : ∀ c, h.Subscribed c x → h.channelOf x = some c) :
    (after (createSignal x p) h).Rostered none := by
  unfold createSignal
  rw [after_when]
  split_ifs
  swap
  · exact hr
  let created := ((HubOp.createChannel p.value).run h).2
  let told := ((HubOp.broadcastAll (.channelList created.getChannelList)).run created).2
  have hr' : told.Rostered none := rostered_run (rostered_run hr rfl) rfl
  refine rostered_switchChannel (h := told) p.value.password hr' fun c hc => ?_
  -- creating a channel and listing it move nobody
  rw [← mem_subscribersOf, subscribersOf_run rfl, subscribersOf_run rfl, mem_subscribersOf] at hc
  have hof := hx c hc
  have hhas : told.HasChannel (h.heap x).currentChannelID := by
    refine HubOp.hasChannel_run _ (HubOp.hasChannel_run _ ?_)
    unfold channelOf at hof
    split_ifs at hof with hsome
    exact hsome
  rw [channelOf_eq hof]
  exact if_pos hhas

theorem steady_answerRequest (x : ClientRef) (ch : ChannelID) (reply : FloorReply) :
    Steady (answerRequest x ch reply) := by
  unfold answerRequest
  split_ifs
  · exact all_then rfl fun _ => all_bind (all_ifSome fun y =>
      steady_of_unlisted (unlisted_finalizePreempted ch x y)) fun _ => all_then rfl fun _ =>
      all_then rfl fun _ => all_then rfl fun _ => all_then rfl fun _ => all_perform rfl
  · exact all_perform rfl

theorem steady_handlePTTDown (x : ClientRef) : Steady (handlePTTDown x) := by
  refine all_then rfl fun ch => ?_
  cases ch with
  | none => exact all_perform rfl
  | some ch => exact all_then rfl fun reply => steady_answerRequest x ch reply

theorem steady_handlePTTUp (x : ClientRef) : Steady (handlePTTUp x) :=
  all_then rfl fun _ => all_ifSome fun ch => all_then rfl fun _ => all_when <|
    all_bind (steady_finishRecording ch) fun _ => all_then rfl fun c =>
    all_bind (all_ifSome fun _ => all_perform rfl) fun _ => steady_announceIdle ch c

theorem steady_totGoroutine (ch : ChannelID) (timer : ℕ) : Steady (totGoroutine ch timer) :=
  all_then rfl fun _ => all_ifSome fun _ => all_bind (steady_finishRecording ch) fun _ =>
    all_then rfl fun _ => all_then rfl fun c => steady_announceIdle ch c

theorem rostered_handleSignal (msg : ClientSignal) (choices : Choices) (hr : h.Rostered none)
    (hx : ∀ c, h.Subscribed c x → h.channelOf x = some c) :
    (after (handleSignal x msg choices) h).Rostered none := by
  cases msg with
  | identify p => exact rostered_identifySignal p hr hx
  | joinChannel p =>
    unfold handleSignal
    rw [after_when]
    split_ifs
    · exact rostered_switchChannel p.value.password hr hx
    · exact hr
  | createChannel p => exact rostered_createSignal p hr hx
  | pttDown => exact rostered_steady (steady_handlePTTDown x) hr
  | pttUp => exact rostered_steady (steady_handlePTTUp x) hr
  | other type => exact hr
  | _ => exact rostered_steady (steady_of_unlisted (unlisted_handleSignal x choices rfl)) hr

end Handlers

section Run

variable {γ : Type} {note : Request → Hub → Hub → γ → γ} {s t : SerialHub γ} {h : Hub}
  {x : ClientRef}

theorem channelOf_of_home (hx : Home x h) {c : ChannelID} (hc : h.Subscribed c x) :
    h.channelOf x = some c := by
  obtain ⟨ch, hp⟩ := hx
  obtain rfl := Option.some.inj ((hp.subscribed c).mp hc)
  exact hp.channelOf hp.hasChannel

theorem not_subscribed_of_away (hx : Away x h) (c : ChannelID) : ¬ h.Subscribed c x := by
  obtain ⟨cur, hp⟩ := hx
  intro hc
  cases (hp.subscribed c).mp hc

/-- Every handler leaves each channel with a list that is right. -/
theorem rostered_serve {r : Request} {phase : ClientRef → Phase} (hr : h.Rostered none)
    (hadm : r.admitted h phase = true)
    (hhome : ∀ x, if phase x = .live then Home x h else Away x h) :
    (Hub.after r.prog h).Rostered none := by
  cases r with
  | connect x first =>
    have hfresh : phase x = .fresh := of_decide_eq_true hadm
    have haway := hhome x
    rw [if_neg (by rw [hfresh]; exact Phase.noConfusion)] at haway
    exact rostered_registerClient first hr (not_subscribed_of_away haway)
  | signal x msg choices =>
    have hlive : phase x = .live := of_decide_eq_true hadm
    have hx := hhome x
    rw [if_pos hlive] at hx
    exact rostered_handleSignal msg choices hr fun c hc => channelOf_of_home hx hc
  | audio x data =>
    exact rostered_steady (steady_of_unlisted (Hub.unlisted_handleBinaryAudio x data)) hr
  | disconnect x => exact rostered_unregisterClient hr
  | totExpires ch timer => exact rostered_steady (steady_totGoroutine ch timer) hr
  | datagram data => exact rostered_steady (steady_of_unlisted (Hub.unlisted_roipDatagram data)) hr

/-- A timer that runs out takes nobody off a channel. -/
theorem rostered_fireTimer {ch : ChannelID} {timer : ℕ} {h' : Hub} (hr : h.Rostered none)
    (hf : h.fireTimer ch timer = some h') : h'.Rostered none := by
  obtain ⟨c, c', hc, hfire, rfl⟩ := Hub.fireTimer_eq hf
  obtain ⟨τ, _, _, _, rfl⟩ := Channel.fireTimer_eq hfire
  let fired : Channel := { c with timers := c.timers.modify timer Timer.fire }
  have hsub (d : ChannelID) :
      ({ h with channels := h.channels.insert ch fired } : Hub).subscribersOf d =
        h.subscribersOf d := by
    unfold Hub.subscribersOf Hub.readChannel
    by_cases hd : d = ch
    · rw [hd, AList.lookup_insert, hc]
    · rw [AList.lookup_insert_ne hd]
  refine ⟨fun y d d' hd hd' => hr.apart y d d' ?_ ?_, fun d _ =>
    Told.congr (hr.told d (by simp)) (hsub d) (fun y _ => rfl) fun y => rfl⟩
  · rwa [← Hub.mem_subscribersOf, hsub, Hub.mem_subscribersOf] at hd
  · rwa [← Hub.mem_subscribersOf, hsub, Hub.mem_subscribersOf] at hd'

theorem rostered_of_serial {cfg : Config} (hcfg : cfg.defaultChannels ≠ [])
    {recorder : Option AudioRecorder} {roipRelay : Bool} {heap : Clients} {now : ℤ} {g : γ}
    {es : List SerialEvent}
    (hrun : Run (serialStep note) (SerialHub.init (newHub cfg recorder roipRelay heap now) g) es
      s) : s.hub.Rostered none := by
  refine (hrun.invariant (I := fun s => (∃ es, Run (serialStep note)
    (SerialHub.init (newHub cfg recorder roipRelay heap now) g) es s) ∧ s.hub.Rostered none)
    (fun s e t hs hstep => ?_) ⟨⟨[], Run.nil _⟩, ?_⟩).2
  · obtain ⟨⟨es, hes⟩, hr⟩ := hs
    refine ⟨⟨es ++ [e], Run.snoc_iff.mpr ⟨s, hes, hstep⟩⟩, ?_⟩
    cases e with
    | serve r =>
      obtain ⟨hadm, hafter, _, _⟩ := serialStep_serve hstep
      rw [hafter]
      exact rostered_serve hr hadm (home_of_serial hcfg hes)
    | timerFires ch timer =>
      obtain ⟨h', hf, rfl⟩ := Option.map_eq_some_iff.mp hstep
      exact rostered_fireTimer hr hf
    | tick d =>
      obtain rfl := Option.some.inj hstep
      exact ⟨hr.apart, fun c hc => Told.congr (hr.told c hc) rfl (fun y _ => rfl) fun y => rfl⟩
  · -- nobody is on a channel of a new hub
    have haway (y : ClientRef) (c : ChannelID) :
        ¬ (newHub cfg recorder roipRelay heap now).Subscribed c y :=
      not_subscribed_of_away (newHub_away cfg recorder roipRelay heap now y) c
    exact ⟨fun y c _ hc => absurd hc (haway y c), fun c _ y hy => absurd hy (haway y c)⟩

/-- The callsigns that the page lists, where `shown` are those before. -/
def updateUserRoster (currentChannelID : ChannelID) (payload : UserList) (shown : List String) :
    List String :=
  if payload.channelID ≠ currentChannelID then shown else payload.users

/-- Whenever no handler runs, the last list sent to a client shows exactly the clients that are
tuned to its channel, under their present names and roles, each once, and so does its page. -/
theorem roster_agrees {cfg : Config} (hcfg : cfg.defaultChannels ≠ [])
    {recorder : Option AudioRecorder} {roipRelay : Bool} {heap : Clients} {now : ℤ} {g : γ}
    {es : List SerialEvent}
    (hrun : Run (serialStep note) (SerialHub.init (newHub cfg recorder roipRelay heap now) g) es
      s) {x : ClientRef} (hx : s.phase x = .live) :
    ∃ (l : UserList) (ys : List ClientRef),
      (lists x s.hub.outbox).getLast? = some l ∧
      l.Shows (s.hub.heap x).currentChannelID (ys.map s.hub.identity) ∧
      ys.Nodup ∧
      (∀ y, y ∈ ys ↔ s.phase y = .live ∧
        (s.hub.heap y).currentChannelID = (s.hub.heap x).currentChannelID) ∧
      ∀ shown, updateUserRoster (s.hub.heap x).currentChannelID l shown =
        ys.map fun y => (s.hub.heap y).callsign := by
  have hhome := home_of_serial hcfg hrun
  have live_iff (y : ClientRef) (c : ChannelID) : s.hub.Subscribed c y ↔
      s.phase y = .live ∧ (s.hub.heap y).currentChannelID = c := by
    have hy := hhome y
    split_ifs at hy with hlive
    · obtain ⟨ch, hp⟩ := hy
      rw [hp.subscribed, hp.current]
      simp [hlive]
    · exact iff_of_false (not_subscribed_of_away hy c) fun h => hlive h.1
  let ch := (s.hub.heap x).currentChannelID
  obtain ⟨l, hlast, hshows⟩ := (rostered_of_serial hcfg hrun).told ch (by simp) x
    ((live_iff x ch).mpr ⟨hx, rfl⟩)
  refine ⟨l, s.hub.subscribersOf ch, hlast, hshows, Hub.nodup_subscribersOf ch s.hub, fun y => ?_,
    fun shown => ?_⟩
  · rw [Hub.mem_subscribersOf, live_iff]
  · rw [updateUserRoster, if_neg (not_not_intro hshows.channelID), hshows.users, Hub.roster,
      List.map_map]
    rfl

/-- Unit 1 joins unit 0, who takes another name and leaves for channel 2. -/
def changingRoster : List SerialEvent :=
  [.serve (.connect 0 0), .serve (.connect 1 0),
   .serve (.signal 0 (.identify ⟨{ callsign := "DISPATCH", role := "dispatcher" }, true⟩) {}),
   .serve (.signal 0 (.joinChannel ⟨{ channelID := 2, password := "" }, true⟩) {})]

theorem roster_agrees_changingRoster :
    ∃ s, Run (serialStep noNote)
        (SerialHub.init (newHub defaultConfig none false sampleClients 0) ()) changingRoster s ∧
      ∃ (l : UserList) (ys : List ClientRef), (lists 1 s.hub.outbox).getLast? = some l ∧
        l.Shows 1 (ys.map s.hub.identity) ∧ 1 ∈ ys ∧ 0 ∉ ys := by
  have hrun := run_get (serialStep noNote)
    (SerialHub.init (newHub defaultConfig none false sampleClients 0) ()) changingRoster
    (by decide +kernel)
  obtain ⟨l, ys, hlast, hshows, -, hmem, -⟩ := roster_agrees (x := 1) (by decide) hrun
    (by decide +kernel)
  exact ⟨_, hrun, l, ys, hlast, hshows, (hmem 1).mpr (by decide +kernel),
    fun h0 => absurd ((hmem 0).mp h0) (by decide +kernel)⟩

end Run

end TwoWayRadio

import TwoWayRadio.AudioFanOut
import TwoWayRadio.HubRequests
import TwoWayRadio.OwnChannel

/-! The channel byte of the audio header, against channel IDs that the hub hands out without an
upper bound. -/
namespace TwoWayRadio
open Interleaving Transition

/-- The browser's packet, as the hub parses it. -/
theorem parse_buildAudioPacket (c flags seqNum : ℤ) (payload : Bytes) :
    ∃ seq, parseAudioHeaderQuick (buildAudioPacket c flags seqNum payload) =
      .ok ⟨lowByte c, lowByte flags, seq, payload⟩ := by
  refine ⟨bigEndianUint32 (lowByte (signedShiftRight seqNum 24))
    (lowByte (signedShiftRight seqNum 16)) (lowByte (signedShiftRight seqNum 8))
    (lowByte seqNum), ?_⟩
  simp [buildAudioPacket, parseAudioHeaderQuick, audioMagic0, audioMagic1]

theorem toNat_lowByte (n : ℤ) : ((lowByte n).toNat : ℤ) = n % 256 := by
  have hlt : (n % 256).toNat < 256 := by omega
  have hbyte : (lowByte n).toNat = (n % 256).toNat := UInt8.toNat_ofNat_of_lt' hlt
  rw [hbyte]
  omega

/-- The header names the channel if and only if its ID fits the byte. -/
theorem toNat_lowByte_eq {c : ℤ} (hpos : 0 < c) : ((lowByte c).toNat : ℤ) = c ↔ c ≤ 255 := by
  rw [toNat_lowByte]
  omega

section IDs

namespace Hub

/-- Every channel ID is positive. -/
def PositiveIDs (h : Hub) : Prop := ∀ c, h.HasChannel c → 0 < c

theorem le_nextFreeID (channels : ChannelMap) (fuel : ℕ) (id : ℤ) :
    id ≤ nextFreeID channels fuel id := by
  induction fuel generalizing id with
  | zero => exact le_refl id
  | succ fuel ih =>
    unfold nextFreeID
    split_ifs
    · exact (Int.le.intro 1 rfl).trans (ih (id + 1))
    · exact le_refl id

/-- The loop starts above the number of channels. -/
theorem length_lt_newChannelID (h : Hub) : (h.channels.entries.length : ℤ) < h.newChannelID := by
  have hle := le_nextFreeID h.channels h.channels.entries.length (h.channels.entries.length + 1)
  exact (Int.lt_succ _).trans_le hle

theorem hasChannel_of_onChannel {α : Type} {ch c : ChannelID} {absent : α}
    {f : Channel → α × Channel} {h : Hub} (hc : (h.onChannel ch absent f).2.HasChannel c) :
    h.HasChannel c := by
  rw [HasChannel, lookup_onChannel] at hc
  split_ifs at hc with heq
  · rwa [Option.isSome_map, ← heq] at hc
  · exact hc

end Hub

/-- A channel is there before a call or is the one that the call creates. -/
theorem HubOp.hasChannel_of_run {op : HubOp} {h : Hub} {c : ChannelID}
    (hc : (op.run h).2.HasChannel c) :
    h.HasChannel c ∨ (op.createsChannel = true ∧ c = h.newChannelID) := by
  by_cases ht : op.target = none
  · by_cases hcr : op.createsChannel = false
    · rw [Hub.HasChannel, channels_run ht hcr] at hc
      exact Or.inl hc
    · cases op with
      | createChannel p =>
        rw [Hub.HasChannel, lookup_createChannel] at hc
        split_ifs at hc with heq
        · exact Or.inr ⟨rfl, heq⟩
        · exact Or.inl hc
      | _ => exact absurd rfl hcr
  · cases op with
    | addSubscriber ch x => exact Or.inl (Hub.hasChannel_of_onChannel hc)
    | removeSubscriber ch x => exact Or.inl (Hub.hasChannel_of_onChannel hc)
    | requestFloor ch x => exact Or.inl (Hub.hasChannel_of_onChannel hc)
    | releaseFloor ch x => exact Or.inl (Hub.hasChannel_of_onChannel hc)
    | handleTOT ch timer => exact Or.inl (Hub.hasChannel_of_onChannel hc)
    | _ => exact absurd rfl ht

theorem HubOp.positiveIDs_run {op : HubOp} {h : Hub} (hpos : h.PositiveIDs) :
    (op.run h).2.PositiveIDs := by
  intro c hc
  rcases hasChannel_of_run hc with hold | ⟨-, rfl⟩
  · exact hpos c hold
  · exact (Int.natCast_nonneg _).trans_lt h.length_lt_newChannelID

theorem positiveIDs_step {γ : Type} {o : Observer γ} {s t : Server γ} {e : ServerEvent}
    (hs : s.hub.PositiveIDs) (h : serverStep o s e = some t) : t.hub.PositiveIDs := by
  cases e with
  | serve r =>
    rw [(serverStep_starts h).1]
    exact hs
  | advance i =>
    obtain ⟨op, k, _, _, hhub, _⟩ := serverStep_advance h
    rw [hhub]
    exact HubOp.positiveIDs_run hs
  | timerFires ch timer =>
    obtain ⟨hf, _⟩ := serverStep_timerFires h
    obtain ⟨chan, chan', hchan, _, heq⟩ := Hub.fireTimer_eq hf
    intro c hc
    refine hs c ?_
    rw [heq] at hc
    by_cases hne : c = ch
    · rw [hne, Hub.HasChannel, hchan]
      rfl
    · rwa [Hub.HasChannel, AList.lookup_insert_ne hne] at hc
  | tick d =>
    obtain ⟨hhub, _⟩ := serverStep_tick h
    rw [hhub]
    exact hs

theorem newHub_positiveIDs (recorder : Option AudioRecorder) (roipRelay : Bool) (heap : Clients)
    (now : ℤ) : (newHub defaultConfig recorder roipRelay heap now).PositiveIDs := by
  intro c hc
  obtain ⟨chan, hlookup⟩ := Option.isSome_iff_exists.mp hc
  obtain ⟨d, hd, hid, _⟩ := lookup_defaultChannelMap defaultConfig hlookup
  have hall : ∀ d ∈ defaultConfig.defaultChannels, 0 < d.id := by decide
  rw [← hid]
  exact hall d hd

end IDs

/-- The packet is accepted and handed to every other subscriber of the channel, once. -/
def Hub.Carries (x : ClientRef) (c : ChannelID) (data : Bytes) (h : Hub) : Prop :=
  (∃ packet, parseAudioHeaderQuick data = .ok packet ∧ h.Accepts x packet) ∧
    ∀ y, y ≠ x → h.Subscribed c y →
      (Hub.sent (Hub.handleBinaryAudio x data) h).count (.enqueue y .send (.binary data)) = 1

/-- A packet of the floor holder that is no All-Call is carried if its header names the channel. -/
theorem Hub.carries_iff {x : ClientRef} {c flags seqNum : ℤ} {payload : Bytes} {h : Hub}
    (hcur : (h.heap x).currentChannelID = c)
    (hfloor : (h.readChannel c false fun chan => chan.isFloorHolder x) = true)
    (hflags : lowByte flags &&& flagAudioAllCall = 0) :
    h.Carries x c (buildAudioPacket c flags seqNum payload) ↔ ((lowByte c).toNat : ℤ) = c := by
  obtain ⟨seq, hparse⟩ := parse_buildAudioPacket c flags seqNum payload
  constructor
  · rintro ⟨⟨packet, hpacket, hsame, _⟩, _⟩
    rw [hparse] at hpacket
    obtain rfl := Except.ok.inj hpacket
    exact hsame.symm.trans hcur
  · intro hnames
    have haccepts : h.Accepts x ⟨lowByte c, lowByte flags, seq, payload⟩ := by
      refine ⟨hcur.trans hnames.symm, ?_⟩
      rw [hnames]
      exact hfloor
    refine ⟨⟨_, hparse, haccepts⟩, fun y hne hy => ?_⟩
    rw [((Hub.handleBinaryAudio_cases hparse).1 haccepts).1]
    -- the packet is no All-Call, so it goes to the other subscribers of the channel
    have hown : h.audience x ((lowByte c).toNat : ChannelID) (lowByte flags) =
        (h.subscribersOf c).filter (some · ≠ some x) := by
      rw [Hub.audience, hflags, if_neg (fun hne => hne rfl), hnames]
    refine Hub.count_sent_dispatchAudio ?_ ?_
    · rw [hown]
      exact (Hub.nodup_subscribersOf c h).filter _
    · rw [hown, List.mem_filter, Hub.mem_subscribersOf]
      exact ⟨hy, by simp [hne]⟩

theorem Hub.hasChannel_of_isFloorHolder {x : ClientRef} {c : ChannelID} {h : Hub}
    (hfloor : (h.readChannel c false fun chan => chan.isFloorHolder x) = true) :
    h.HasChannel c := by
  unfold Hub.readChannel at hfloor
  split at hfloor
  · cases hfloor
  · rename_i chan hchan
    rw [Hub.HasChannel, hchan]
    rfl

/-- In every hub reached from the default channels, the voice of a floor holder is carried if and
only if its channel ID fits the byte of the header. -/
theorem voice_carried_iff {recorder : Option AudioRecorder} {roipRelay : Bool} {heap : Clients}
    {now : ℤ} {es : List ServerEvent} {s : Server Unit}
    (hrun : Run (serverStep noObserver)
      (Server.init (newHub defaultConfig recorder roipRelay heap now) ()) es s)
    {x : ClientRef} {c : ChannelID} (hcur : (s.hub.heap x).currentChannelID = c)
    (hfloor : (s.hub.readChannel c false fun chan => chan.isFloorHolder x) = true)
    {flags : ℤ} (hflags : lowByte flags &&& flagAudioAllCall = 0) (seqNum : ℤ) (payload : Bytes) :
    s.hub.Carries x c (buildAudioPacket c flags seqNum payload) ↔ c ≤ 255 := by
  have hpos : s.hub.PositiveIDs :=
    hrun.invariant (I := fun s => s.hub.PositiveIDs) (fun _ _ _ => positiveIDs_step)
      (newHub_positiveIDs recorder roipRelay heap now)
  rw [Hub.carries_iff hcur hfloor hflags]
  exact toNat_lowByte_eq (hpos c (Hub.hasChannel_of_isFloorHolder hfloor))

theorem voice_carried_keysUp :
    ∃ s, Run (serverStep noObserver)
        (Server.init (newHub defaultConfig none false sampleClients 0) ()) keysUp s ∧
      (s.hub.Carries 0 1 (buildAudioPacket 1 0x01 1 [0, 0]) ↔ (1 : ℤ) ≤ 255) := by
  have hrun := run_get (serverStep noObserver)
    (Server.init (newHub defaultConfig none false sampleClients 0) ()) keysUp (by decide)
  exact ⟨_, hrun,
    voice_carried_iff hrun (by decide +kernel) (by decide +kernel) (by decide) 1 [0, 0]⟩

section Crowded

namespace Hub

variable {x : ClientRef} {h : Hub}

theorem length_insert_of_mem {m : ChannelMap} {ch : ChannelID} (hch : ch ∈ m) (c : Channel) :
    (m.insert ch c).entries.length = m.entries.length := by
  have hkeys : ∀ m : ChannelMap, m.entries.length = m.keys.length := fun m =>
    (List.length_map _).symm
  have hmem : ch ∈ m.keys := AList.mem_keys.mp hch
  have hpos := List.length_pos_of_mem hmem
  rw [hkeys, hkeys, AList.keys_insert, List.length_cons, List.length_erase_of_mem hmem]
  omega

theorem length_onChannel {α : Type} (ch : ChannelID) (absent : α) (f : Channel → α × Channel)
    (h : Hub) : (h.onChannel ch absent f).2.channels.entries.length =
      h.channels.entries.length := by
  unfold onChannel
  split
  · rfl
  · rename_i c hc
    exact length_insert_of_mem (AList.lookup_isSome.mp (by rw [hc]; rfl)) _

theorem length_createChannel (p : CreateChannelPayload) (h : Hub) :
    ((HubOp.createChannel p).run h).2.channels.entries.length =
      h.channels.entries.length + 1 := by
  have hfresh : h.newChannelID ∉ h.channels := AList.lookup_eq_none.mp h.newChannelID_fresh
  show (h.channels.insert _ _).entries.length = _
  rw [AList.insert_of_notMem hfresh, List.length_cons]

/-- The number of channels changes only where one is created. -/
theorem length_run_of_not_creates {op : HubOp} (hcr : op.createsChannel = false) (h : Hub) :
    (op.run h).2.channels.entries.length = h.channels.entries.length := by
  by_cases ht : op.target = none
  · rw [HubOp.channels_run ht hcr]
  · cases op with
    | addSubscriber ch y => exact length_onChannel ..
    | removeSubscriber ch y => exact length_onChannel ..
    | requestFloor ch y => exact length_onChannel ..
    | releaseFloor ch y => exact length_onChannel ..
    | handleTOT ch timer => exact length_onChannel ..
    | _ => exact absurd rfl ht

/-- No handler removes a channel. -/
theorem length_le_after {α : Type} (p : HubProg α) (h : Hub) :
    h.channels.entries.length ≤ (after p h).channels.entries.length := by
  induction p generalizing h with
  | ret a => exact le_refl _
  | call op k ih =>
    refine le_trans ?_ (ih _ _)
    by_cases hcr : op.createsChannel = false
    · exact (length_run_of_not_creates hcr h).ge
    · cases op with
      | createChannel p =>
        rw [length_createChannel]
        omega
      | _ => exact absurd rfl hcr

/-- A client that goes to an open channel other than its own is then tuned to it. -/
theorem current_switchChannel {new : ChannelID} {password : String} {chan : Channel}
    (hchan : h.channels.lookup new = some chan) (hopen : chan.definition.isPrivate = false)
    (hne : (h.heap x).currentChannelID ≠ new) :
    ((after (switchChannel x new password) h).heap x).currentChannelID = new := by
  have hlook : (HubOp.lookupSwitch x new).run h = ((some chan.definition, h.channelOf x), h) := by
    simp only [HubOp.run, hchan, Option.map_some]
  have hfields : ∀ g : Hub, (HubOp.fields x).run g = (g.heap x, g) := fun _ => rfl
  simp only [switchChannel, Prog.perform_bind, after_call, hlook, hfields]
  rw [if_neg hne, if_neg (by simp [hopen]), after_bind]
  generalize after (Prog.ifSome (h.channelOf x) (leaveChannel x (h.heap x))) h = left
  simp only [enterChannel, Prog.perform_bind, after_call]
  -- once it is subscribed, the rest of the switch does not touch the client
  let joined := ((HubOp.addSubscriber new x).run
    ((HubOp.setCurrentChannel x new).run left).2).2
  have hjoined : (joined.heap x).currentChannelID = new := by
    show ((Hub.onChannel _ _ _ _).2.heap x).currentChannelID = new
    rw [Hub.onChannel_heap]
    simp [HubOp.run, Hub.setClient]
  have hrest : Elsewhere x joined
      (after (broadcastUserList new >>= fun _ => showChannel x new) joined) := by
    refine elsewhere_of_untouched (Prog.all_bind ?_ fun _ => untouched_showChannel x new) joined
    exact (background_broadcastUserList new).mono fun _ => touched_of_background
  exact hrest.current.trans hjoined

def openChannel : Decoded CreateChannelPayload := ⟨{ name := "TACTICAL", isPrivate := false }, true⟩

/-- Opening a channel puts the client on an ID above the number of channels. -/
theorem current_openChannel (hcur : h.HasChannel (h.heap x).currentChannelID) :
    ((after (createSignal x openChannel) h).heap x).currentChannelID = h.newChannelID ∧
      h.channels.entries.length <
        (after (createSignal x openChannel) h).channels.entries.length := by
  unfold createSignal
  rw [after_when, if_pos (by decide)]
  simp only [Prog.perform_bind, after_call]
  constructor
  · refine current_switchChannel (AList.lookup_insert _) rfl fun heq => ?_
    have hfree := h.newChannelID_fresh
    replace heq : (h.heap x).currentChannelID = h.newChannelID := heq
    rw [HasChannel, heq, hfree] at hcur
    cases hcur
  · have hone := length_createChannel openChannel.value h
    have hmore : ∀ (p : HubProg Unit) (g : Hub),
        g.channels = ((HubOp.createChannel openChannel.value).run h).2.channels →
        h.channels.entries.length < (after p g).channels.entries.length := by
      intro p g hg
      have hle := length_le_after p g
      rw [hg, hone] at hle
      exact Nat.lt_of_succ_le hle
    exact hmore _ _ rfl

/-- A client on a channel whose floor nobody else holds gets the floor. -/
theorem isFloorHolder_handlePTTDown {c : ChannelID} (hcur : (h.heap x).currentChannelID = c)
    (hc : h.HasChannel c) (hfree : ∀ y, h.holder c = some y → y = x) :
    ((after (handlePTTDown x) h).readChannel c false fun chan => chan.isFloorHolder x) = true ∧
      ((after (handlePTTDown x) h).heap x).currentChannelID = c := by
  have hof : (HubOp.currentChannel x).run h = (some c, h) :=
    Prod.ext (channelOf_some hcur hc) rfl
  simp only [handlePTTDown, Prog.perform_bind, after_call, hof]
  obtain ⟨chan, hchan⟩ := Option.isSome_iff_exists.mp hc
  let asked := ((HubOp.requestFloor c x).run h).2
  have hchannel : asked.channels.lookup c = some (chan.requestFloor h.heap x).2 := by
    show ((h.onChannel c _ _).2).channels.lookup c = _
    rw [lookup_onChannel, if_pos rfl, hchan, Option.map_some]
  have hspeaker : ∀ y, chan.activeSpeaker = some y → y = x := by
    intro y hy
    exact hfree y ((holder_of_lookup hchan).trans hy)
  have hholds : (chan.requestFloor h.heap x).2.isFloorHolder x = true := by
    unfold Channel.requestFloor
    split
    · rename_i speaker hbusy hsome
      rw [if_pos (hspeaker speaker hsome)]
      simp [Channel.isFloorHolder, hbusy, hsome, hspeaker speaker hsome]
    · simp [Channel.isFloorHolder]
  have hrest := untouched_answerRequest x c ((HubOp.requestFloor c x).run h).1
  -- the answer to the request is no call on a channel
  have hkept : (after (answerRequest x c ((HubOp.requestFloor c x).run h).1) asked).channels =
      asked.channels := by
    have hserves := ((makes_handlePTTDown x {}).2 (some c)).2 ((HubOp.requestFloor c x).run h).1
    refine after_of_all (P := fun op => op.target = none ∧ op.createsChannel = false)
      (I := fun g => g.channels = asked.channels) ?_ ?_ rfl
    · exact fun op g hop hg => (HubOp.channels_run hop.1 hop.2 g).trans hg
    · refine (hrest.and hserves).mono fun op hop => ?_
      cases op <;> first | exact ⟨rfl, rfl⟩ | exact (Bool.false_ne_true hop.2).elim | cases hop.1
  constructor
  · rw [readChannel, hkept, hchannel]
    exact hholds
  · rw [(elsewhere_of_untouched (x := x) hrest asked).current]
    show ((h.onChannel c _ _).2.heap x).currentChannelID = c
    rw [onChannel_heap]
    exact hcur

end Hub

/-- Unit 0 registers and opens `n` channels. -/
def opens (n : ℕ) : List SerialEvent :=
  .serve (.connect 0 0) :: List.replicate n (.serve (.signal 0 (.createChannel Hub.openChannel) {}))

/-- There is no largest channel ID. -/
theorem opens_channels (n : ℕ) :
    ∃ s, Run (serialStep noNote)
        (SerialHub.init (newHub defaultConfig none false sampleClients 0) ()) (opens n) s ∧
      s.phase = Function.update (fun _ => .fresh) 0 .live ∧ n ≤ s.hub.channels.entries.length ∧
      (n : ℤ) ≤ (s.hub.heap 0).currentChannelID := by
  -- each channel that unit 0 opens gets an ID above the number of channels there are
  induction n with
  | zero =>
    refine ⟨_, run_get _ _ (opens 0) (by decide +kernel), rfl, Nat.zero_le _, ?_⟩
    decide +kernel
  | succ n ih =>
    obtain ⟨s, hrun, hphase, hlen, hcur⟩ := ih
    have hhome := home_of_serial (by decide) hrun 0
    rw [hphase, if_pos (Function.update_self ..)] at hhome
    obtain ⟨ch, hplaced⟩ := hhome
    have hc : s.hub.HasChannel (s.hub.heap 0).currentChannelID := by
      rw [hplaced.current]
      exact hplaced.hasChannel
    obtain ⟨hnew, hmore⟩ := Hub.current_openChannel hc
    let r : Request := .signal 0 (.createChannel Hub.openChannel) {}
    let t : SerialHub Unit := ⟨Hub.after r.prog s.hub, s.phase, ()⟩
    have hstep : serialStep noNote s (.serve r) = some t := by
      have hadm : r.admitted s.hub s.phase = true := by
        rw [hphase]
        rfl
      exact if_pos hadm
    refine ⟨t, ?_, hphase, ?_, ?_⟩
    · rw [opens, List.replicate_succ', ← List.cons_append]
      exact Run.snoc_iff.mpr ⟨s, hrun, hstep⟩
    · exact Nat.succ_le_of_lt (hlen.trans_lt hmore)
    · have hlt := s.hub.length_lt_newChannelID
      have hle : (n : ℤ) ≤ s.hub.channels.entries.length := by exact_mod_cast hlen
      have hcur' : (t.hub.heap 0).currentChannelID = s.hub.newChannelID := hnew
      rw [hcur']
      push_cast
      exact Int.add_one_le_of_lt (hle.trans_lt hlt)

/-- Unit 0 has opened 256 channels and keys up on the last one: none of its packets is accepted. -/
theorem voice_carried_fails :
    ∃ s es u, Run (serialStep noNote)
        (SerialHub.init (newHub defaultConfig none false sampleClients 0) ())
        (opens 256 ++ [.serve (.signal 0 .pttDown {})]) s ∧
      Run (serverStep noObserver)
        (Server.init (newHub defaultConfig none false sampleClients 0) ()) es u ∧
      u.hub = s.hub ∧ ∃ c, (u.hub.heap 0).currentChannelID = c ∧
        (u.hub.readChannel c false fun chan => chan.isFloorHolder 0) = true ∧
        lowByte 0x01 &&& flagAudioAllCall = 0 ∧
        ∀ seqNum payload, ¬ u.hub.Carries 0 c (buildAudioPacket c 0x01 seqNum payload) := by
  obtain ⟨s, hrun, hphase, _, hbig⟩ := opens_channels 256
  have hlive : s.phase 0 = .live := by rw [hphase]; rfl
  have hhome := home_of_serial (by decide) hrun 0
  rw [if_pos hlive] at hhome
  obtain ⟨c, hplaced⟩ := hhome
  -- no other client has ever been registered, so nobody else holds the floor
  have hfree : ∀ y, s.hub.holder c = some y → y = 0 := by
    intro y hy
    by_contra hne
    have haway := home_of_serial (by decide) hrun y
    rw [hphase, Function.update_of_ne hne, if_neg (by decide)] at haway
    obtain ⟨cur, hnowhere⟩ := haway
    cases hnowhere.holder c hy
  obtain ⟨hholds, hcur⟩ := Hub.isFloorHolder_handlePTTDown hplaced.current hplaced.hasChannel hfree
  let r : Request := .signal 0 .pttDown {}
  let t : SerialHub Unit := ⟨Hub.after r.prog s.hub, s.phase, ()⟩
  have hstep : serialStep noNote s (.serve r) = some t := if_pos (decide_eq_true hlive)
  have hrun' := Run.snoc_iff.mpr ⟨s, hrun, hstep⟩
  obtain ⟨es, u, hserver, hrests⟩ := SerialHub.refines hrun'
  have hhub : u.hub = t.hub := hrests.hub
  rw [hplaced.current] at hbig
  refine ⟨t, es, u, hrun', hserver, hhub, c, ?_, ?_, by decide, fun seqNum payload hcarries => ?_⟩
  · rw [hhub]
    exact hcur
  · rw [hhub]
    exact hholds
  · rw [hhub] at hcarries
    have hnames := (Hub.carries_iff hcur hholds (by decide)).mp hcarries
    rw [toNat_lowByte] at hnames
    omega

end Crowded

end TwoWayRadio

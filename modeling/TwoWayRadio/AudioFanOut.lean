import TwoWayRadio.AudioEngine
import TwoWayRadio.SerialHub

/-! Audio packets: which of them the hub accepts, whom it hands them to, and which channels the
one byte of their header can name. -/
namespace TwoWayRadio
open Interleaving Transition

namespace Hub

/-- The packet names the channel that the client is tuned to, and the client holds its floor. -/
def Accepts (x : ClientRef) (packet : AudioPacket) (h : Hub) : Prop :=
  (h.heap x).currentChannelID = packet.channelID.toNat ∧
    (h.readChannel packet.channelID.toNat false fun c => c.isFloorHolder x) = true

/-- The clients that the packet is for. -/
def Hears (x : ClientRef) (packet : AudioPacket) (y : ClientRef) (h : Hub) : Prop :=
  y ≠ x ∧ if packet.flags &&& flagAudioAllCall ≠ 0 then y ∈ h.clients
    else h.Subscribed packet.channelID.toNat y

/-- The clients that the fan-out loops visit, in their order. -/
def audience (x : ClientRef) (ch : ChannelID) (flags : UInt8) (h : Hub) : List ClientRef :=
  if flags &&& flagAudioAllCall ≠ 0 then
    h.channels.entries.flatMap fun e => e.2.subscribers.keys.filter (· ≠ x)
  else (h.subscribersOf ch).filter (some · ≠ some x)

variable {x y : ClientRef} {ch : ChannelID} {flags : UInt8} {data : Bytes} {packet : AudioPacket}
  {h : Hub}

theorem sent_fanOut : sent (fanOut x ch flags data) h =
    (h.audience x ch flags).map fun y => .enqueue y .send (.binary data) := by
  unfold fanOut audience
  split_ifs <;> exact List.append_nil _

theorem after_fanOut_roipRelay : (after (fanOut x ch flags data) h).roipRelay = h.roipRelay := by
  unfold fanOut
  split_ifs <;> rfl

theorem audience_congr {g : Hub} (hg : g.channels = h.channels) :
    g.audience x ch flags = h.audience x ch flags := by
  unfold audience subscribersOf readChannel
  rw [hg]

/-- What becomes of a packet of the floor holder. -/
theorem sent_dispatchAudio : sent (dispatchAudio x ch flags data) h =
    ((h.audience x ch flags).map fun y => .enqueue y .send (.binary data)) ++
      if h.roipRelay then [.relay ch data] else [] := by
  let counted := ((HubOp.addAudioBytes data.length).run h).2
  let fed := after (Prog.when (audioHeaderSize < data.length)
    (HubOp.appendAudio ch (data.drop audioHeaderSize)).call) counted
  have hfed : fed.channels = h.channels ∧ fed.roipRelay = h.roipRelay := by
    simp only [fed, after_when]
    split_ifs
    · exact ⟨Hub.onRecorder_channels .., onRecorder_part (fun _ _ => rfl) () _ counted⟩
    · exact ⟨rfl, rfl⟩
  have hsilent : sent (Prog.when (audioHeaderSize < data.length)
      (HubOp.appendAudio ch (data.drop audioHeaderSize)).call) counted = [] := by
    rw [sent_when]
    split_ifs <;> rfl
  have hgate : ∀ g : Hub, (HubOp.getRelay.run g) = (g.roipRelay, g) := fun _ => rfl
  unfold dispatchAudio
  simp only [Prog.perform_bind, sent_call]
  rw [sent_bind, hsilent, sent_bind, sent_fanOut, audience_congr hfed.1, sent_call, hgate,
    after_fanOut_roipRelay, hfed.2, sent_when]
  simp [HubOp.sends, HubOp.call, Prog.perform]

/-- Whoever the fan-out visits once is handed the packet once. -/
theorem count_sent_dispatchAudio (hnodup : (h.audience x ch flags).Nodup)
    (hy : y ∈ h.audience x ch flags) :
    (sent (dispatchAudio x ch flags data) h).count (.enqueue y .send (.binary data)) = 1 := by
  have hinj : Function.Injective fun y => Delivery.enqueue y .send (.binary data) :=
    fun y y' heq => (Delivery.enqueue.inj heq).1
  have hrelay : (if h.roipRelay then [Delivery.relay ch data] else []).count
      (.enqueue y .send (.binary data)) = 0 := by
    split_ifs <;> simp
  rw [sent_dispatchAudio, List.count_append, hrelay, List.count_map_of_injective _ _ hinj]
  exact List.count_eq_one_of_mem hnodup hy

/-- The checks of the handler: it passes on what is accepted and does nothing else. -/
theorem handleBinaryAudio_cases (hparse : parseAudioHeaderQuick data = .ok packet) :
    (h.Accepts x packet → sent (handleBinaryAudio x data) h =
      sent (dispatchAudio x packet.channelID.toNat packet.flags data) h ∧
      after (handleBinaryAudio x data) h =
        after (dispatchAudio x packet.channelID.toNat packet.flags data) h) ∧
    (¬ h.Accepts x packet → sent (handleBinaryAudio x data) h = [] ∧
      after (handleBinaryAudio x data) h = h) := by
  have hfound : ∀ g : Hub, (HubOp.lookupChannel packet.channelID.toNat).run g =
    ((g.channels.lookup (packet.channelID.toNat : ChannelID)).isSome, g) := fun _ => rfl
  have hfields : ∀ g : Hub, (HubOp.fields x).run g = (g.heap x, g) := fun _ => rfl
  have hholds : ∀ g : Hub, (HubOp.isFloorHolder packet.channelID.toNat x).run g =
    (g.readChannel packet.channelID.toNat false fun c => c.isFloorHolder x, g) := fun _ => rfl
  unfold handleBinaryAudio
  simp only [hparse, Prog.perform_bind, sent_call, after_call, sent_when, after_when, hfound,
    hfields, hholds, HubOp.sends, List.nil_append]
  constructor
  · rintro ⟨hcur, hholder⟩
    -- who holds the floor of a channel has found that channel
    have hsome : (h.channels.lookup (packet.channelID.toNat : ChannelID)).isSome = true := by
      rw [readChannel] at hholder
      cases hc : h.channels.lookup (packet.channelID.toNat : ChannelID) with
      | none =>
        rw [hc] at hholder
        cases hholder
      | some c => rfl
    rw [if_pos hsome, if_pos hcur, if_pos hholder, if_pos hsome, if_pos hcur, if_pos hholder]
    exact ⟨rfl, rfl⟩
  · intro hnot
    split_ifs with hsome hcur hholder
    · exact absurd ⟨hcur, hholder⟩ hnot
    · exact ⟨rfl, rfl⟩
    · exact ⟨rfl, rfl⟩
    · exact ⟨rfl, rfl⟩

/-- Every client is tuned to its channel or nowhere, as it is when no handler is in progress. -/
def Calm (h : Hub) : Prop := ∀ y, Home y h ∨ Away y h

theorem Calm.subscribed_unique (hcalm : h.Calm) {c c' : ChannelID} (hc : h.Subscribed c y)
    (hc' : h.Subscribed c' y) : c = c' := by
  rcases hcalm y with ⟨ch, hp⟩ | ⟨cur, hp⟩
  · have hat := (hp.subscribed c).mp hc
    have hat' := (hp.subscribed c').mp hc'
    exact Option.some.inj (hat.symm.trans hat')
  · cases (hp.subscribed c).mp hc

theorem Calm.registered_iff (hcalm : h.Calm) : y ∈ h.clients ↔ ∃ c, h.Subscribed c y := by
  rcases hcalm y with ⟨ch, hp⟩ | ⟨cur, hp⟩
  · exact iff_of_true (hp.clients.mpr trivial) ⟨ch, (hp.subscribed ch).mpr rfl⟩
  · refine iff_of_false (fun hin => hp.clients.mp hin) ?_
    rintro ⟨c, hc⟩
    cases (hp.subscribed c).mp hc

theorem mem_subscribers_of_entry {e : Sigma fun _ : ChannelID => Channel}
    (he : e ∈ h.channels.entries) : y ∈ e.2.subscribers.keys ↔ h.Subscribed e.1 y := by
  have hlookup : h.channels.lookup e.1 = some e.2 := AList.mem_lookup_iff.mpr he
  rw [Subscribed, hlookup, ← AList.mem_keys]
  simp

theorem mem_allCall : (y ∈ h.channels.entries.flatMap fun e =>
    e.2.subscribers.keys.filter (· ≠ x)) ↔ y ≠ x ∧ ∃ c, h.Subscribed c y := by
  rw [List.mem_flatMap]
  constructor
  · rintro ⟨e, he, hy⟩
    obtain ⟨hkey, hne⟩ := List.mem_filter.mp hy
    exact ⟨of_decide_eq_true hne, e.1, (mem_subscribers_of_entry he).mp hkey⟩
  · rintro ⟨hne, c, chan, hlookup, hy⟩
    have he : ⟨c, chan⟩ ∈ h.channels.entries := AList.mem_lookup_iff.mp hlookup
    exact ⟨_, he, List.mem_filter.mpr ⟨AList.mem_keys.mp hy, decide_eq_true hne⟩⟩

/-- The fan-out reaches those that the packet is for. -/
theorem Calm.mem_audience (hcalm : h.Calm) :
    y ∈ h.audience x packet.channelID.toNat packet.flags ↔ h.Hears x packet y := by
  unfold audience Hears
  split_ifs
  · rw [hcalm.registered_iff, mem_allCall]
  · rw [List.mem_filter, mem_subscribersOf, and_comm]
    simp

/-- It visits nobody twice: nobody is subscribed to two channels. -/
theorem Calm.nodup_audience (hcalm : h.Calm) : (h.audience x ch flags).Nodup := by
  unfold audience
  split_ifs
  · refine List.nodup_flatMap.mpr ⟨fun e _ => (AList.keys_nodup _).filter _, ?_⟩
    have hkeys := List.nodupKeys_iff_pairwise.mp h.channels.nodupKeys
    refine hkeys.imp_of_mem fun {e e'} he he' hne => ?_
    intro y hy hy'
    have hc := (mem_subscribers_of_entry he).mp (List.mem_filter.mp hy).1
    have hc' := (mem_subscribers_of_entry he').mp (List.mem_filter.mp hy').1
    exact hne (hcalm.subscribed_unique hc hc')
  · exact (nodup_subscribersOf ch h).filter _

end Hub

section FanOut

variable {γ : Type} {note : Request → Hub → Hub → γ → γ}

theorem calm_of_serial {cfg : Config} (hcfg : cfg.defaultChannels ≠ [])
    {recorder : Option AudioRecorder} {roipRelay : Bool} {heap : Clients} {now : ℤ} {g : γ}
    {es : List SerialEvent} {s : SerialHub γ}
    (hrun : Run (serialStep note)
      (SerialHub.init (newHub cfg recorder roipRelay heap now) g) es s) : s.hub.Calm := by
  intro y
  have hplaced := home_of_serial hcfg hrun y
  split_ifs at hplaced
  · exact Or.inl hplaced
  · exact Or.inr hplaced

/-- With handlers run one at a time: a packet that does not parse, is not of its sender's channel
or not of the floor holder has no effect; any other is handed, as it is, to every client that it
is for exactly once, to no other, and to the relay exactly once if there is one. -/
theorem audio_fanOut {cfg : Config} (hcfg : cfg.defaultChannels ≠ [])
    {recorder : Option AudioRecorder} {roipRelay : Bool} {heap : Clients} {now : ℤ} {g : γ}
    {es : List SerialEvent} {s : SerialHub γ}
    (hrun : Run (serialStep note)
      (SerialHub.init (newHub cfg recorder roipRelay heap now) g) es s)
    (x : ClientRef) (data : Bytes) :
    ((∀ packet, parseAudioHeaderQuick data = .ok packet → ¬ s.hub.Accepts x packet) →
      Hub.sent (Hub.handleBinaryAudio x data) s.hub = [] ∧
      Hub.after (Hub.handleBinaryAudio x data) s.hub = s.hub) ∧
    ∀ packet, parseAudioHeaderQuick data = .ok packet → s.hub.Accepts x packet →
      (∀ y, s.hub.Hears x packet y → (Hub.sent (Hub.handleBinaryAudio x data) s.hub).count
        (.enqueue y .send (.binary data)) = 1) ∧
      (Hub.sent (Hub.handleBinaryAudio x data) s.hub).count
        (.relay packet.channelID.toNat data) = (if s.hub.roipRelay then 1 else 0) ∧
      ∀ d ∈ Hub.sent (Hub.handleBinaryAudio x data) s.hub,
        (∃ y, s.hub.Hears x packet y ∧ d = .enqueue y .send (.binary data)) ∨
        d = .relay packet.channelID.toNat data := by
  have hcalm := calm_of_serial hcfg hrun
  constructor
  · -- the handler returns at the parser or at one of its three checks
    intro hnot
    cases hparse : parseAudioHeaderQuick data with
    | error err =>
      unfold Hub.handleBinaryAudio
      rw [hparse]
      exact ⟨rfl, rfl⟩
    | ok packet => exact (Hub.handleBinaryAudio_cases hparse).2 (hnot packet hparse)
  · intro packet hparse haccepts
    rw [((Hub.handleBinaryAudio_cases hparse).1 haccepts).1]
    refine ⟨fun y hy => ?_, ?_, fun d hd => ?_⟩
    · exact Hub.count_sent_dispatchAudio hcalm.nodup_audience (hcalm.mem_audience.mpr hy)
    · -- the relay is not among the deliveries to the clients
      have hclients : ((s.hub.audience x packet.channelID.toNat packet.flags).map fun y =>
          Delivery.enqueue y .send (.binary data)).count
            (.relay packet.channelID.toNat data) = 0 := by
        refine List.count_eq_zero.mpr fun hmem => ?_
        obtain ⟨y, _, heq⟩ := List.mem_map.mp hmem
        cases heq
      rw [Hub.sent_dispatchAudio, List.count_append, hclients]
      split_ifs <;> simp
    · rw [Hub.sent_dispatchAudio] at hd
      rcases List.mem_append.mp hd with hmem | hmem
      · obtain ⟨y, hy, rfl⟩ := List.mem_map.mp hmem
        exact Or.inl ⟨y, hcalm.mem_audience.mp hy, rfl⟩
      · split_ifs at hmem
        · exact Or.inr (List.mem_singleton.mp hmem)
        · cases hmem

/-- Units 0 and 1 register and unit 0 keys up. -/
def onAir : List SerialEvent :=
  [.serve (.connect 0 0), .serve (.connect 1 0), .serve (.signal 0 .pttDown {})]

theorem audio_fanOut_onAir :
    ∃ s, Run (serialStep noNote)
        (SerialHub.init (newHub defaultConfig none false sampleClients 0) ()) onAir s ∧
      (Hub.sent (Hub.handleBinaryAudio 0 (encodeAudioPacket 1 flagAudioFirst 1 [])) s.hub).count
        (.enqueue 1 .send (.binary (encodeAudioPacket 1 flagAudioFirst 1 []))) = 1 := by
  have hrun := run_get (serialStep noNote)
    (SerialHub.init (newHub defaultConfig none false sampleClients 0) ()) onAir (by decide +kernel)
  refine ⟨_, hrun, ?_⟩
  have hfan := (audio_fanOut (by decide) hrun 0 (encodeAudioPacket 1 flagAudioFirst 1 [])).2
    ⟨1, flagAudioFirst, 1, []⟩ rfl ⟨by decide +kernel, by decide +kernel⟩
  refine hfan.1 1 ⟨by decide, ?_⟩
  rw [if_neg (by decide)]
  exact Hub.mem_subscribersOf.mp (by decide +kernel)

end FanOut

end TwoWayRadio

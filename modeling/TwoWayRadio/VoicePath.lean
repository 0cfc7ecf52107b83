import TwoWayRadio.CappedLog
import TwoWayRadio.InstantReplay
import TwoWayRadio.Packetizer
import TwoWayRadio.Rekeying
import TwoWayRadio.SwitchEffects
import TwoWayRadio.WavFormat

/-! The way of a voice: from the microphone of one page through the hub to the queue of a
listener and to the file that is archived. -/
namespace TwoWayRadio
open Interleaving Transition

section Microphone

variable {ch : ChannelID} {buffer cur : List Int16} {done : List (List Int16)}

theorem int16Bytes_append (vs ws : List Int16) :
    int16Bytes (vs ++ ws) = int16Bytes vs ++ int16Bytes ws :=
  List.flatMap_append

theorem length_int16Bytes (vs : List Int16) : (int16Bytes vs).length = 2 * vs.length := by
  induction vs with
  | nil => rfl
  | cons v vs ih =>
    have hcons : (int16Bytes (v :: vs)).length = 2 + (int16Bytes vs).length := by
      simp only [int16Bytes, List.flatMap_cons, List.length_append, List.length_cons,
        List.length_nil]
    rw [hcons, ih, List.length_cons]
    omega

theorem flatMap_payload_framePackets :
    (AudioEngine.framePackets ch done).flatMap (fun p => p.drop audioHeaderSize) =
      int16Bytes done.flatten := by
  induction done using List.reverseRecOn with
  | nil => rfl
  | append_singleton rest frame ih =>
    have hframe : (AudioEngine.framePacket ch rest.length false frame).drop audioHeaderSize =
        int16Bytes frame := rfl
    rw [AudioEngine.framePackets_append, List.flatMap_append, ih, List.flatten_append,
      int16Bytes_append, List.flatMap_singleton, hframe, List.flatten_singleton]

/-- The last packet carries the rest of the captured samples, and less than a frame of others
behind it. -/
theorem payload_lastPacket (hbuffer : buffer.length = packetSampleCount)
    (hfull : ∀ frame ∈ done, frame.length = packetSampleCount) :
    ∃ tail : List Int16, tail.length < packetSampleCount ∧
      (AudioEngine.lastPacket ch buffer done cur).drop audioHeaderSize =
        int16Bytes (cur ++ tail) := by
  unfold AudioEngine.lastPacket
  by_cases hcur : cur = []
  · rw [if_pos hcur, hcur]
    exact ⟨[0], by decide, rfl⟩
  · rw [if_neg hcur]
    refine ⟨(done.getLastD buffer).drop cur.length, ?_, rfl⟩
    have hpos := List.length_pos_iff.mpr hcur
    rw [List.length_drop, AudioEngine.length_getLastD hbuffer hfull]
    unfold packetSampleCount
    omega

/-- A packet for channel `ch` as the hub reads it. -/
def Names (ch : ChannelID) (data : Bytes) : Prop :=
  ∃ packet, parseAudioHeaderQuick data = .ok packet ∧ (packet.channelID.toNat : ℤ) = ch

instance (ch : ChannelID) (data : Bytes) : Decidable (Names ch data) :=
  match h : parseAudioHeaderQuick data with
  | .error _ => isFalse fun ⟨_, hp, _⟩ => by
      rw [h] at hp
      cases hp
  | .ok packet => decidable_of_iff ((packet.channelID.toNat : ℤ) = ch)
      ⟨fun heq => ⟨packet, h, heq⟩, fun ⟨_, hp, heq⟩ => by
        rw [h] at hp
        cases hp
        exact heq⟩

theorem names_buildAudioPacket (hch : 0 ≤ ch ∧ ch < 256) (flags : ℤ) (i : ℕ) (payload : Bytes) :
    Names ch (buildAudioPacket ch flags ((i + 1 : ℕ)) payload) := by
  refine ⟨_, AudioEngine.parse_framePacket i flags payload, ?_⟩
  show ((UInt8.ofNat (ch % 256).toNat).toNat : ℤ) = ch
  have hbyte : ch % 256 = ch := Int.emod_eq_of_lt hch.1 hch.2
  have hnat : ch.toNat < 2 ^ 8 := by
    have hlt := (Int.toNat_lt hch.1).mpr hch.2
    simpa using hlt
  rw [hbyte, UInt8.toNat_ofNat', Nat.mod_eq_of_lt hnat, Int.toNat_of_nonneg hch.1]

/-- What one press hands to the socket: packets for its channel, with all captured samples and
less than a frame of others behind them. -/
theorem voice_of_press (earlier : List EngineCall) (t : MicTransmission)
    (hch : 0 ≤ t.channelID ∧ t.channelID < 256) :
    (∀ p ∈ (AudioEngine.calls t.calls (AudioEngine.calls earlier {}).2).1,
      Names t.channelID p) ∧
    ∃ tail : List Int16, tail.length < packetSampleCount ∧
      (AudioEngine.calls t.calls (AudioEngine.calls earlier {}).2).1.flatMap
        (fun p => p.drop audioHeaderSize) = int16Bytes (t.captured ++ tail) ∧
      (AudioEngine.calls t.calls (AudioEngine.calls earlier {}).2).1.flatMap
        (fun p => int16View (p.drop audioHeaderSize)) = t.captured ++ tail := by
  have hbuffer : (AudioEngine.calls earlier {}).2.pcmBuffer.length = packetSampleCount :=
    (AudioEngine.length_pcmBuffer earlier {}).trans List.length_replicate
  obtain ⟨done, cur, out, b, hcaptured, hframing, hlive, hsent⟩ :=
    AudioEngine.framing_of_transmission hbuffer t
  rw [hsent, hframing.stopTransmission hlive]
  constructor
  · intro p hp
    rcases List.mem_append.mp hp with hp | hp
    · obtain ⟨i, hi, rfl⟩ := List.mem_mapIdx.mp hp
      exact names_buildAudioPacket hch _ i _
    · rw [List.mem_singleton.mp hp]
      unfold AudioEngine.lastPacket
      split_ifs
      · exact names_buildAudioPacket hch _ _ _
      · exact names_buildAudioPacket hch _ _ _
  · obtain ⟨tail, htail, hlast⟩ :=
      @payload_lastPacket t.channelID _ cur _ hbuffer hframing.full
    refine ⟨tail, htail, ?_, ?_⟩
    · rw [List.flatMap_append, flatMap_payload_framePackets, List.flatMap_singleton, hlast,
        ← int16Bytes_append, ← hcaptured, List.append_assoc]
    · rw [List.flatMap_append, AudioEngine.flatMap_framePackets, List.flatMap_singleton, hlast,
        int16View_int16Bytes, ← hcaptured, List.append_assoc]

/-- Samples are cut into frames in one way only. -/
theorem framed_unique {frames : List (List Int16)} {rest : List Int16}
    (hdone : ∀ frame ∈ done, frame.length = packetSampleCount)
    (hframes : ∀ frame ∈ frames, frame.length = packetSampleCount)
    (hcur : cur.length < packetSampleCount) (hrest : rest.length < packetSampleCount)
    (heq : done.flatten ++ cur = frames.flatten ++ rest) : done = frames ∧ cur = rest := by
  induction done generalizing frames with
  | nil =>
    cases frames with
    | nil => exact ⟨rfl, heq⟩
    | cons frame frames =>
      have hlength := congrArg List.length heq
      rw [List.flatten_cons, List.length_append, List.length_append, List.length_append,
        hframes frame List.mem_cons_self, List.flatten_nil, List.length_nil] at hlength
      omega
  | cons first done ih =>
    have hfirst := hdone first List.mem_cons_self
    cases frames with
    | nil =>
      have hlength := congrArg List.length heq
      rw [List.flatten_cons, List.length_append, List.length_append, List.length_append, hfirst,
        List.flatten_nil, List.length_nil] at hlength
      omega
    | cons frame frames =>
      rw [List.flatten_cons, List.flatten_cons, List.append_assoc, List.append_assoc] at heq
      obtain ⟨rfl, hothers⟩ :=
        List.append_inj heq (hfirst.trans (hframes frame List.mem_cons_self).symm)
      obtain ⟨rfl, rfl⟩ := ih (fun f hf => hdone f (List.mem_cons_of_mem _ hf))
        (fun f hf => hframes f (List.mem_cons_of_mem _ hf)) hothers
      exact ⟨rfl, rfl⟩

/-- The packets of a press whose samples make up these frames. -/
theorem sent_of_framed (t : MicTransmission) {frames : List (List Int16)} {rest : List Int16}
    (hframes : ∀ frame ∈ frames, frame.length = packetSampleCount)
    (hrest : rest.length < packetSampleCount) (hcaptured : t.captured = frames.flatten ++ rest) :
    (AudioEngine.calls t.calls {}).1 =
      AudioEngine.framePackets t.channelID frames ++
        [AudioEngine.lastPacket t.channelID ({} : AudioEngine).pcmBuffer frames rest] := by
  obtain ⟨done, cur, out, b, heq, hframing, hlive, hsent⟩ :=
    AudioEngine.framing_of_transmission (a := {}) List.length_replicate t
  obtain ⟨rfl, rfl⟩ :=
    framed_unique hframing.full hframes hframing.short hrest (heq.trans hcaptured)
  rw [hsent, hframing.stopTransmission hlive]

end Microphone

/-- The audio packets for a channel among the frames a client is sent. -/
def heardOn (ch : ChannelID) (frames : List Frame) : List Bytes :=
  frames.filterMap fun
    | .binary data => if Names ch data then some data else none
    | .json .. => none

theorem heardOn_append (ch : ChannelID) (frames more : List Frame) :
    heardOn ch (frames ++ more) = heardOn ch frames ++ heardOn ch more :=
  List.filterMap_append

/-- The packets for a channel that a request of `x` brings. -/
def Request.spokenBy (x : ClientRef) (ch : ChannelID) : Request → List Bytes
  | .audio z data => if z = x ∧ Names ch data then [data] else []
  | _ => []

def SerialEvent.spokenBy (x : ClientRef) (ch : ChannelID) : SerialEvent → List Bytes
  | .serve r => r.spokenBy x ch
  | _ => []

section Handler

open Hub Prog

variable {x y z : ClientRef} {ch : ChannelID} {h : Hub} {r : Request} {data : Bytes}
  {packet : AudioPacket}

theorem Hub.Calm.tuned_of_holder (hcalm : h.Calm) (hx : h.holder ch = some x) :
    (h.heap x).currentChannelID = ch := by
  rcases hcalm x with ⟨cur, hp⟩ | ⟨cur, hp⟩
  · rw [hp.current]
    exact Option.some.inj (hp.holder ch hx)
  · cases hp.holder ch hx

/-- While `x` holds the floor of `ch`, the hub takes from it what names `ch`, and takes nothing
for `ch` from anybody else. -/
theorem Hub.accepts_iff (hcalm : h.Calm) (hb : h.BusyAgrees) (hx : h.holder ch = some x)
    (hparse : parseAudioHeaderQuick data = .ok packet) :
    (h.Accepts x packet ↔ Names ch data) ∧
      (h.Accepts z packet → Names ch data → z = x) := by
  have hnames : Names ch data ↔ (packet.channelID.toNat : ℤ) = ch := by
    refine ⟨fun ⟨packet', hparse', heq⟩ => ?_, fun heq => ⟨packet, hparse, heq⟩⟩
    obtain rfl := Except.ok.inj (hparse.symm.trans hparse')
    exact heq
  constructor
  · rw [Accepts, HubOp.isFloorHolder_iff hb, hcalm.tuned_of_holder hx, hnames]
    refine ⟨fun hboth => hboth.1.symm, fun heq => ⟨heq.symm, ?_⟩⟩
    rw [heq]
    exact hx
  · rintro ⟨_, hz⟩ hname
    rw [HubOp.isFloorHolder_iff hb, hnames.mp hname, hx] at hz
    exact (Option.some.inj hz).symm

theorem framesTo_dispatchAudio {flags : UInt8} :
    framesTo y (sent (dispatchAudio x ch flags data) h) =
      List.replicate ((h.audience x ch flags).count y) (.binary data) := by
  have hrelay : framesTo y (if h.roipRelay then [.relay ch data] else []) = [] := by
    split_ifs <;> rfl
  rw [sent_dispatchAudio, framesTo_append, framesTo_map, hrelay, List.append_nil]

/-- A handler that is given no audio sends none. -/
theorem heard_of_not_audio (hr : r.sendsAudio = false) :
    heardOn ch (framesTo y (sent r.prog h)) = [] := by
  refine List.filterMap_eq_nil_iff.mpr fun f hf => ?_
  obtain ⟨queue, hd⟩ := mem_framesTo.mp hf
  cases f with
  | json msg timestamp => rfl
  | binary data =>
    have hnone : ∀ d ∈ sent r.prog h, d ≠ .enqueue y queue (.binary data) := by
      refine sent_of_all (P := fun op => op.servedBy r = true) (fun op g hop d hd heq => ?_)
        (serves_prog r)
      subst heq
      rcases HubOp.binary_of_sends hd with ⟨c, sender, rfl⟩ | ⟨sender, rfl⟩
      · exact Bool.false_ne_true (hr.symm.trans hop)
      · exact Bool.false_ne_true (hr.symm.trans hop)
    exact absurd rfl (hnone _ hd)

/-- One packet: what `x` says on the channel it holds comes to a listener once, and nobody else is
heard there. -/
theorem heard_audio (hcalm : h.Calm) (hb : h.BusyAgrees) (hx : h.holder ch = some x)
    (hy : h.Subscribed ch y) (hne : y ≠ x) (z : ClientRef) (data : Bytes) :
    heardOn ch (framesTo y (sent (handleBinaryAudio z data) h)) =
      (Request.audio z data).spokenBy x ch := by
  have hmany : ∀ n, heardOn ch (List.replicate n (.binary data)) =
      if Names ch data then List.replicate n data else [] := by
    intro n
    unfold heardOn
    by_cases hname : Names ch data
    · rw [if_pos hname]
      exact List.filterMap_replicate_of_some (if_pos hname)
    · rw [if_neg hname]
      exact List.filterMap_replicate_of_none (if_neg hname)
  cases hparse : parseAudioHeaderQuick data with
  | error err =>
    have hnot : ¬ Names ch data := by
      rintro ⟨packet, hp, _⟩
      rw [hparse] at hp
      cases hp
    have hsilent : sent (handleBinaryAudio z data) h = [] := by
      unfold handleBinaryAudio
      rw [hparse]
      rfl
    rw [hsilent, Request.spokenBy, if_neg fun hboth => hnot hboth.2]
    rfl
  | ok packet =>
    obtain ⟨hown, _⟩ := accepts_iff (z := x) hcalm hb hx hparse
    obtain ⟨_, hother⟩ := accepts_iff (z := z) hcalm hb hx hparse
    by_cases haccepts : h.Accepts z packet
    · rw [((handleBinaryAudio_cases hparse).1 haccepts).1, framesTo_dispatchAudio, hmany,
        Request.spokenBy]
      by_cases hname : Names ch data
      · obtain rfl := hother haccepts hname
        obtain ⟨packet', hparse', hbyte⟩ := hname
        obtain rfl := Except.ok.inj (hparse.symm.trans hparse')
        have hhears : h.Hears z packet y := by
          refine ⟨hne, ?_⟩
          split_ifs
          · exact hcalm.registered_iff.mpr ⟨ch, hy⟩
          · rwa [hbyte]
        have hmem := hcalm.mem_audience.mpr hhears
        rw [List.count_eq_one_of_mem hcalm.nodup_audience hmem, if_pos ⟨packet, hparse, hbyte⟩,
          if_pos ⟨rfl, packet, hparse, hbyte⟩]
        rfl
      · rw [if_neg hname, if_neg fun hboth => hname hboth.2]
    · rw [((handleBinaryAudio_cases hparse).2 haccepts).1, Request.spokenBy, if_neg]
      · rfl
      · rintro ⟨rfl, hname⟩
        exact haccepts (hown.mpr hname)

theorem heard_serve (hcalm : h.Calm) (hb : h.BusyAgrees) (hx : h.holder ch = some x)
    (hy : h.Subscribed ch y) (hne : y ≠ x) (hr : ∀ data, r ≠ .datagram data) :
    heardOn ch (framesTo y (sent r.prog h)) = r.spokenBy x ch := by
  cases r with
  | audio z data => exact heard_audio hcalm hb hx hy hne z data
  | datagram data => exact absurd rfl (hr data)
  | _ => exact heard_of_not_audio rfl

end Handler

section Recording

open Hub Prog

variable {x : ClientRef} {ch : ChannelID} {h : Hub} {r : Request}

theorem accepted_eq (hcalm : h.Calm) (hb : h.BusyAgrees) (hx : h.holder ch = some x) :
    r.accepted h ch = (r.spokenBy x ch).flatMap fun p => p.drop audioHeaderSize := by
  cases r with
  | audio z data =>
    show h.accepted z data ch = _
    rw [Hub.accepted, Request.spokenBy]
    cases hparse : parseAudioHeaderQuick data with
    | error err =>
      rw [if_neg]
      · rfl
      · rintro ⟨_, packet, hp, _⟩
        rw [hparse] at hp
        cases hp
    | ok packet =>
      obtain ⟨hown, _⟩ := accepts_iff (z := x) hcalm hb hx hparse
      obtain ⟨_, hother⟩ := accepts_iff (z := z) hcalm hb hx hparse
      by_cases hspoken : z = x ∧ Names ch data
      · obtain ⟨rfl, hname⟩ := hspoken
        obtain ⟨packet', hparse', hbyte⟩ := hname
        obtain rfl := Except.ok.inj (hparse.symm.trans hparse')
        dsimp only
        rw [if_pos ⟨hown.mpr ⟨packet, hparse, hbyte⟩, hbyte.symm⟩,
          if_pos ⟨rfl, packet, hparse, hbyte⟩, List.flatMap_singleton]
      · have hnot : ¬ (h.Accepts z packet ∧ ch = packet.channelID.toNat) := by
          rintro ⟨haccepts, hbyte⟩
          have hname : Names ch data := ⟨packet, hparse, hbyte.symm⟩
          exact hspoken ⟨hother haccepts hname, hname⟩
        dsimp only
        rw [if_neg hnot, if_neg hspoken]
        rfl
  | _ => rfl

/-- What a handler adds to the buffer of a hold that goes on. -/
def TransmissionBuffer.addAll (payloads : List Bytes) (tx : TransmissionBuffer) :
    TransmissionBuffer :=
  payloads.foldl (fun tx payload => tx.add payload) tx

theorem TransmissionBuffer.buffer_addAll (payloads : List Bytes) (tx : TransmissionBuffer) :
    (tx.addAll payloads).buffer = payloads.foldl (CappedLog.append maxBufferBytes) tx.buffer := by
  induction payloads generalizing tx with
  | nil => rfl
  | cons payload rest ih =>
    refine (ih (tx.add payload)).trans (congrArg (fun b => rest.foldl _ b) ?_)
    unfold TransmissionBuffer.add CappedLog.append
    split_ifs <;> rfl

/-- While `x` keeps the floor and does not ask for it again, the hub records what it says. -/
theorem activeTX_serve (hcalm : h.Calm) (hb : h.BusyAgrees) (hrec : h.recording = true)
    (hx : h.holder ch = some x) (hx' : (after r.prog h).holder ch = some x)
    (hr : ∀ choices, r ≠ .signal x .pttDown choices) :
    (after r.prog h).activeTX ch = (h.activeTX ch).map fun tx =>
      tx.addAll ((r.spokenBy x ch).map fun p => p.drop audioHeaderSize) := by
  cases holdStep_serve hb hrec hx' with
  | goesOn hheld htx =>
    rw [htx, accepted_eq hcalm hb hx]
    cases h.activeTX ch with
    | none => rfl
    | some tx =>
      -- at most one packet comes with a request
      have hone : r.spokenBy x ch = [] ∨ ∃ data, r.spokenBy x ch = [data] := by
        cases r with
        | audio z data =>
          rw [Request.spokenBy]
          split_ifs
          · exact Or.inr ⟨data, rfl⟩
          · exact Or.inl rfl
        | _ => exact Or.inl rfl
      rcases hone with hnone | ⟨data, hsome⟩
      · rw [hnone]
        exact congrArg some (TransmissionBuffer.add_nil tx)
      · rw [hsome, List.flatMap_singleton]
        rfl
  | rekeyed choices heq => exact absurd heq (hr choices)
  | begins hfree => exact absurd hx hfree

/-- A `ptt_down` that leaves `x` with the floor leaves it with an empty buffer. -/
theorem opened_by_pttDown (hcalm : h.Calm) (hb : h.BusyAgrees) (hrec : h.recording = true)
    (hx' : (after (handlePTTDown x) h).holder ch = some x) :
    ∃ tx, (after (handlePTTDown x) h).activeTX ch = some tx ∧ tx.buffer = [] := by
  -- if the floor of `ch` was decided before, then `x` had it and asked for it
  have hasked : h.holder ch = some x → h.channelOf x = some ch := fun hx => by
    have htuned := hcalm.tuned_of_holder hx
    rw [← htuned] at hx ⊢
    exact channelOf_of_holder hx
  have hof : h.channelOf x = some ch := by
    cases hof : h.channelOf x with
    | none =>
      have hafter : (after (handlePTTDown x) h).holder ch = h.holder ch := by
        simp only [handlePTTDown, perform_bind, after_call]
        rw [show ((HubOp.currentChannel x).run h).1 = none from hof]
        rfl
      rw [hasked (hafter.symm.trans hx')] at hof
      cases hof
    | some c =>
      by_contra hne
      have hafter : (after (handlePTTDown x) h).holder ch = h.holder ch := by
        rw [after_handlePTTDown hof, holder_answerRequest]
        exact HubOp.holder_run_of_ne fun heq => hne heq
      exact hne (hof.symm.trans (hasked (hafter.symm.trans hx')))
  rw [after_handlePTTDown hof] at hx' ⊢
  rw [holder_answerRequest] at hx'
  have hrequested := HubOp.requestFloor_run ch x hb
  have hrec' : ((HubOp.requestFloor ch x).run h).2.recording = true :=
    (HubOp.switches_run _).1.trans hrec
  have hgranted : ((HubOp.requestFloor ch x).run h).1.granted = true := by
    rw [hx'] at hrequested
    generalize h.holder ch = before at hrequested
    generalize ((HubOp.requestFloor ch x).run h).1 = reply at hrequested
    cases hrequested with
    | free => rfl
    | held => rfl
    | preempts y hne hp => rfl
    | denied y hne hp => exact absurd rfl hne
  have hopened := @activeTX_answerRequest ((HubOp.requestFloor ch x).run h).2 x ch _ hgranted ch
  rwa [if_pos ⟨rfl, hrec'⟩] at hopened

/-- Calls that record nothing leave the recorder as it is. -/
theorem recorder_after {α : Type} {p : HubProg α} (hp : p.All fun op => op.records = false) :
    (after p h).recorder = h.recorder :=
  after_of_all (I := fun h' => h'.recorder = h.recorder)
    (fun _ _ hop hI => (HubOp.recorder_run_of_not_records hop).trans hI) hp rfl

/-- The release of a held floor ends its transmission. -/
theorem recorder_handlePTTUp (hof : h.channelOf x = some ch) (hx : h.holder ch = some x) :
    (after (handlePTTUp x) h).recorder =
      h.recorder.map fun r => (r.onTransmissionEnd ch h.now).2 := by
  let h₁ := ((HubOp.releaseFloor ch x).run h).2
  have hreleased : ((HubOp.releaseFloor ch x).run h).1 = true := by
    rcases HubOp.releaseFloor_run h ch x with ⟨_, hr, _⟩ | ⟨hno, _, _⟩
    · exact hr
    · exact absurd hx hno
  have hstart : after (handlePTTUp x) h = after (finishRelease x ch) h₁ := by
    show after (ifSome (h.channelOf x) _) h = _
    rw [hof]
    show after (when (((HubOp.releaseFloor ch x).run h).1 = true) _) _ = _
    rw [after_when, if_pos hreleased]
  have hrecorder : h₁.recorder = h.recorder := Hub.onChannel_recorder ..
  have hnow : h₁.now = h.now := onChannel_part (fun _ _ => rfl) ..
  rw [hstart]
  show (after (finishRecording ch >>= _) h₁).recorder = _
  rw [after_bind, recorder_after]
  · -- announcing what was saved is no matter of the recorder
    show (after (ifSome ((HubOp.onTransmissionEnd ch).run h₁).1 _ >>= _)
      ((HubOp.onTransmissionEnd ch).run h₁).2).recorder = _
    rw [recorder_after]
    · show (h₁.onRecorder none _).2.recorder = _
      rw [onRecorder_recorder, hrecorder, hnow]
    · exact all_bind (all_ifSome fun _ => all_perform rfl) fun _ => trivial
  · refine all_then rfl fun c => all_bind (all_ifSome fun _ => all_perform rfl) fun _ => ?_
    exact all_then rfl fun _ => all_then rfl fun _ => all_perform rfl

/-- The transmission ends in a file as long as none has to make room for it. -/
theorem AudioRecorder.archived {rec_ : AudioRecorder} {tx : TransmissionBuffer} (now : ℤ)
    (he : rec_.enabled = true) (htx : rec_.activeTX ch = some tx)
    (hlong : minRecordingBytes ≤ tx.buffer.length) (hdisk : rec_.disk.writable = true)
    (hroom : rec_.recordings.length < rec_.maxHistory) :
    let after := (rec_.onTransmissionEnd ch now).2
    after.recordings = rec_.recordings ++ [recordingOf tx ch now] ∧
      after.storageDir = rec_.storageDir ∧
      after.disk.files (Filepath.join [rec_.storageDir, recordingName ch tx.callsign now]) =
        some (encodeWAV 16000 1 16 tx.buffer) := by
  have hexcess : (rec_.recordings ++ [recordingOf tx ch now]).length - rec_.maxHistory = 0 := by
    rw [List.length_append, List.length_singleton]
    omega
  unfold onTransmissionEnd
  rw [he, htx]
  simp only [Bool.not_true, Bool.false_eq_true, if_false, if_neg (Nat.not_lt.mpr hlong), hdisk,
    hexcess, List.drop_zero, List.take_zero]
  exact ⟨trivial, trivial, Function.update_self ..⟩

end Recording

/-- What holds always along a list of events can be checked step by step. -/
instance Always.decidable {σ ε : Type*} {next : σ → ε → Option σ} {Q : σ → Prop} [DecidablePred Q]
    (s : σ) (es : List ε) : Decidable (Always next Q s es) :=
  have : ∀ s e, Decidable (∀ t, next s e = some t → Q t) := fun s e =>
    inferInstanceAs (Decidable (∀ t ∈ next s e, Q t))
  inferInstanceAs (Decidable (_ ∧ _))

section Talk

open Hub

variable {γ : Type} {note : Request → Hub → Hub → γ → γ} {s t : SerialHub γ} {e : SerialEvent}
  {x y : ClientRef} {ch : ChannelID}

/-- `x` is on the air on `ch`, and `y` listens there. -/
def StillOnAir (x y : ClientRef) (ch : ChannelID) (s : SerialHub γ) : Prop :=
  s.hub.holder ch = some x ∧ s.hub.Subscribed ch y

instance : DecidablePred (StillOnAir (γ := γ) x y ch) := fun s =>
  decidable_of_iff (s.hub.holder ch = some x ∧ y ∈ s.hub.subscribersOf ch)
    (and_congr_right fun _ => mem_subscribersOf)

/-- The holder asks for the floor again, or a peer of the relay sends a packet. -/
def SerialEvent.disturbs (x : ClientRef) : SerialEvent → Bool
  | .serve (.signal z .pttDown _) => z = x
  | .serve (.datagram _) => true
  | _ => false

/-- A step brings the listener what `x` says in it, and the recorder likewise. -/
theorem talk_step (hcalm : s.hub.Calm) (hb : s.hub.BusyAgrees) (hair : StillOnAir x y ch s)
    (hair' : StillOnAir x y ch t) (hne : y ≠ x) (he : e.disturbs x = false)
    (h : serialStep note s e = some t) :
    (∃ sent, t.hub.outbox = s.hub.outbox ++ sent ∧
      heardOn ch (framesTo y sent) = e.spokenBy x ch) ∧
    t.hub.recording = s.hub.recording ∧
    (s.hub.recording = true → t.hub.activeTX ch = (s.hub.activeTX ch).map fun tx =>
      tx.addAll ((e.spokenBy x ch).map fun p => p.drop audioHeaderSize)) := by
  have hsame : (s.hub.activeTX ch).map (fun tx => tx.addAll []) = s.hub.activeTX ch := by
    cases s.hub.activeTX ch <;> rfl
  cases e with
  | serve r =>
    obtain ⟨_, hhub, _, _⟩ := serialStep_serve h
    have hquiet : (∀ data, r ≠ .datagram data) ∧ ∀ choices, r ≠ .signal x .pttDown choices := by
      constructor
      · rintro data rfl
        cases he
      · rintro choices rfl
        exact absurd (decide_eq_true rfl) (Bool.eq_false_iff.mp he)
    refine ⟨⟨sent r.prog s.hub, ?_, ?_⟩, ?_, fun hrec => ?_⟩
    · rw [hhub, outbox_after]
    · exact heard_serve hcalm hb hair.1 hair.2 hne hquiet.1
    · rw [hhub, recording_after]
    · rw [hhub]
      refine activeTX_serve hcalm hb hrec hair.1 ?_ hquiet.2
      rw [← hhub]
      exact hair'.1
  | timerFires c n =>
    obtain ⟨h', hf, rfl⟩ := Option.map_eq_some_iff.mp h
    obtain ⟨_, _, _, _, heq⟩ := fireTimer_eq hf
    refine ⟨⟨[], ?_, rfl⟩, ?_, fun _ => ?_⟩
    · rw [heq, List.append_nil]
    · rw [heq, recording, recording]
    · exact (congrArg (fun h : Hub => h.activeTX ch) heq).trans hsame.symm
  | tick d =>
    obtain rfl := Option.some.inj h
    exact ⟨⟨[], (List.append_nil _).symm, rfl⟩, rfl, fun _ => hsame.symm⟩

theorem TransmissionBuffer.addAll_append (ps qs : List Bytes) (tx : TransmissionBuffer) :
    tx.addAll (ps ++ qs) = (tx.addAll ps).addAll qs :=
  List.foldl_append

/-- A whole run while `x` stays on the air. -/
theorem talk_run {es : List SerialEvent} (hrun : Run (serialStep note) s es t)
    (hsettled : ∀ u pre, pre <+: es → Run (serialStep note) s pre u →
      u.hub.Calm ∧ u.hub.BusyAgrees)
    (hne : y ≠ x) (hes : ∀ e ∈ es, e.disturbs x = false)
    (hair : Always (serialStep note) (StillOnAir x y ch) s es) :
    (∃ sent, t.hub.outbox = s.hub.outbox ++ sent ∧
      heardOn ch (framesTo y sent) = es.flatMap fun e => e.spokenBy x ch) ∧
    t.hub.recording = s.hub.recording ∧
    (s.hub.recording = true → t.hub.activeTX ch = (s.hub.activeTX ch).map fun tx =>
      tx.addAll ((es.flatMap fun e => e.spokenBy x ch).map fun p => p.drop audioHeaderSize)) := by
  rw [always_iff] at hair
  induction es using List.reverseRecOn generalizing t with
  | nil =>
    obtain rfl := Run.nil_iff.mp hrun
    refine ⟨⟨[], (List.append_nil _).symm, rfl⟩, rfl, fun _ => ?_⟩
    show t.hub.activeTX ch = (t.hub.activeTX ch).map fun tx => tx
    rw [Option.map_id']
  | append_singleton pre e ih =>
    obtain ⟨u, hpre, hlast⟩ := Run.snoc_iff.mp hrun
    have hshort : ∀ {ps : List SerialEvent}, ps <+: pre → ps <+: pre ++ [e] :=
      fun hps => hps.trans (List.prefix_append pre [e])
    obtain ⟨⟨sent, hsent, hheard⟩, hrec, htx⟩ := ih hpre
      (fun v ps hps => hsettled v ps (hshort hps))
      (fun e' he' => hes e' (List.mem_append_left _ he'))
      (fun ps qs v heq hv => hair ps (qs ++ [e]) v (by rw [heq, List.append_assoc]) hv)
    obtain ⟨hcalm, hb⟩ := hsettled u pre (List.prefix_append pre [e]) hpre
    obtain ⟨⟨more, hmore, hheard'⟩, hrec', htx'⟩ := talk_step hcalm hb
      (hair pre [e] u rfl hpre) (hair (pre ++ [e]) [] t (List.append_nil _).symm hrun) hne
      (hes e (List.mem_append_right _ List.mem_cons_self)) hlast
    refine ⟨⟨sent ++ more, ?_, ?_⟩, hrec'.trans hrec, fun hon => ?_⟩
    · rw [hmore, hsent, List.append_assoc]
    · rw [framesTo_append, heardOn_append, hheard, hheard', List.flatMap_append,
        List.flatMap_singleton]
    · rw [htx' (hrec.trans hon), htx hon, Option.map_map, List.flatMap_append,
        List.flatMap_singleton, List.map_append]
      simp only [Function.comp_def, TransmissionBuffer.addAll_append]

/-- The audio message of `x` that an event is. -/
def SerialEvent.audioOf (x : ClientRef) : SerialEvent → Option Bytes
  | .serve (.audio z data) => if z = x then some data else none
  | _ => none

theorem flatMap_spokenBy {es : List SerialEvent}
    (hnames : ∀ p ∈ es.filterMap (SerialEvent.audioOf x), Names ch p) :
    (es.flatMap fun e => e.spokenBy x ch) = es.filterMap (SerialEvent.audioOf x) := by
  induction es with
  | nil => rfl
  | cons e es ih =>
    rw [List.filterMap_cons] at hnames ⊢
    rw [List.flatMap_cons]
    cases ha : e.audioOf x with
    | none =>
      rw [ha] at hnames
      have hsilent : e.spokenBy x ch = [] := by
        cases e with
        | serve r =>
          cases r with
          | audio z data =>
            have hz : z ≠ x := by
              intro heq
              rw [SerialEvent.audioOf, if_pos heq] at ha
              cases ha
            exact if_neg fun hboth => hz hboth.1
          | _ => rfl
        | _ => rfl
      rw [hsilent, ih hnames]
      rfl
    | some data =>
      rw [ha] at hnames
      have hsaid : e.spokenBy x ch = [data] := by
        cases e with
        | serve r =>
          cases r with
          | audio z data' =>
            rw [SerialEvent.audioOf] at ha
            split_ifs at ha with hz
            obtain rfl := Option.some.inj ha
            exact if_pos ⟨hz, hnames data' List.mem_cons_self⟩
          | _ => cases ha
        | _ => cases ha
      rw [hsaid, ih fun p hp => hnames p (List.mem_cons_of_mem _ hp)]
      rfl

/-- Two units are registered, and what is said is recorded. -/
def twoUnits : List SerialEvent := [.serve (.connect 0 0), .serve (.connect 1 0)]

def twoUnitsReady : SerialHub Unit :=
  (twoUnits.foldlM (serialStep noNote) (SerialHub.init (newHub defaultConfig
    (some (newAudioRecorder "./data/recordings" 50 true {})) false sampleClients 0) ())).get
      (by decide +kernel)

def unitOnAir : SerialHub Unit :=
  (serialStep noNote twoUnitsReady (.serve (.signal 0 .pttDown {}))).get (by decide +kernel)

/-- A tenth of a second, just enough to be archived. -/
def tenthOfSecond : List Int16 := List.replicate 1600 7

/-- What the page of unit 0 sends of a press in which this is captured: two full frames, and one
that is filled up from the second. -/
def tenthTalk : List SerialEvent :=
  let frame := List.replicate packetSampleCount 7
  [AudioEngine.framePacket 1 0 false frame, AudioEngine.framePacket 1 1 false frame,
    AudioEngine.framePacket 1 2 true frame].map fun p => .serve (.audio 0 p)

def tenthSaid : SerialHub Unit :=
  (tenthTalk.foldlM (serialStep noNote) unitOnAir).get (by decide +kernel)

end Talk

end TwoWayRadio

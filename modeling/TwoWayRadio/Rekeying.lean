import TwoWayRadio.AudioFanOut
import TwoWayRadio.RecordingAttribution
import TwoWayRadio.VoiceTranscript

/-! A `ptt_down` of the client that already holds the floor: what it changes, and what is left of
the recording of the hold. -/
namespace TwoWayRadio
open Interleaving Transition

namespace Hub

/-- What is buffered of the transmission being recorded on a channel. -/
def buffered (c : ChannelID) (h : Hub) : Bytes := (h.activeTX c).elim [] fun tx => tx.buffer

/-- A `ptt_down` of `x` leaves the floor of its channel with its timers, the audio buffered for it
and both counters as they were. -/
structure RekeyingIdle (x : ClientRef) (h : Hub) : Prop where
  floor : (after (handlePTTDown x) h).channels.lookup (h.heap x).currentChannelID =
    h.channels.lookup (h.heap x).currentChannelID
  buffered : (after (handlePTTDown x) h).buffered (h.heap x).currentChannelID =
    h.buffered (h.heap x).currentChannelID
  totalTransmissions : (after (handlePTTDown x) h).totalTransmissions = h.totalTransmissions
  totalPreemptions : (after (handlePTTDown x) h).totalPreemptions = h.totalPreemptions

instance (x : ClientRef) (packet : AudioPacket) (h : Hub) : Decidable (h.Accepts x packet) :=
  inferInstanceAs (Decidable ((h.heap x).currentChannelID = packet.channelID.toNat ∧
    (h.readChannel packet.channelID.toNat false fun c => c.isFloorHolder x) = true))

/-- The payload that the hub takes for channel `c` from a packet of `x`. -/
def accepted (x : ClientRef) (data : Bytes) (c : ChannelID) (h : Hub) : Bytes :=
  match parseAudioHeaderQuick data with
  | .error _ => []
  | .ok packet =>
    if h.Accepts x packet ∧ c = packet.channelID.toNat then data.drop audioHeaderSize else []

end Hub

def Request.accepted : Request → Hub → ChannelID → Bytes
  | .audio x data, h, c => h.accepted x data c
  | _, _, _ => []

/-- The payloads accepted for each channel since its holder got the floor, joined. -/
def noteHeld : Request → Hub → Hub → (ChannelID → Bytes) → ChannelID → Bytes :=
  fun r h h' held c => if h'.holder c = h.holder c then held c ++ r.accepted h c else []

/-- While a recorder is on, the buffer of every held floor has all that was accepted in the hold,
unless that is more than it can take. -/
def HoldsWhole (s : SerialHub (ChannelID → Bytes)) : Prop :=
  s.hub.recording = true → ∀ c x, s.hub.holder c = some x →
    (s.history c).length ≤ maxBufferBytes → s.hub.buffered c = s.history c

/-- A `ptt_down` of a holder comes before anything was accepted in its hold, or after more than
the buffer takes. -/
def RekeyedEarly (s : SerialHub (ChannelID → Bytes)) (e : SerialEvent) : Prop :=
  ∀ x choices c, e = .serve (.signal x .pttDown choices) → s.hub.recording = true →
    s.hub.channelOf x = some c → s.hub.holder c = some x →
    s.history c = [] ∨ maxBufferBytes < (s.history c).length

section Held

open Hub Prog

variable {h : Hub} {x : ClientRef} {c : ChannelID}

theorem channelOf_of_holder (hx : h.holder (h.heap x).currentChannelID = some x) :
    h.channelOf x = some (h.heap x).currentChannelID := by
  rw [channelOf, if_pos]
  cases hc : h.channels.lookup (h.heap x).currentChannelID with
  | none =>
    rw [holder, hc] at hx
    cases hx
  | some ch => rfl

/-- A handler that finds its client on a channel goes on with the answer of that channel. -/
theorem after_handlePTTDown (hof : h.channelOf x = some c) : after (handlePTTDown x) h =
    after (answerRequest x c ((HubOp.requestFloor c x).run h).1)
      ((HubOp.requestFloor c x).run h).2 := by
  simp only [handlePTTDown, perform_bind, after_call]
  rw [show ((HubOp.currentChannel x).run h).1 = some c from hof]
  rfl

/-- The holder of a floor is granted it again, and the channel stays as it was. -/
theorem requestFloor_held (hb : h.BusyAgrees) (hx : h.holder c = some x) :
    ((HubOp.requestFloor c x).run h).1 = ⟨true, "", "", none⟩ ∧
      ∀ c', ((HubOp.requestFloor c x).run h).2.channels.lookup c' = h.channels.lookup c' := by
  cases hc : h.channels.lookup c with
  | none =>
    rw [holder, hc] at hx
    cases hx
  | some ch =>
    rw [holder_of_lookup hc] at hx
    have hsame : ch.requestFloor h.heap x = (⟨true, "", "", none⟩, ch) := by
      have hout := Channel.requestFloor_outcome h.heap x (hb c ch hc)
      unfold Channel.requestFloor
      rw [(hb c ch hc).mpr (by rw [hx]; exact Option.some_ne_none x), hx]
      exact if_pos rfl
    refine ⟨?_, fun c' => ?_⟩
    · show (h.onChannel c _ _).1 = _
      rw [onChannel_fst hc, hsame]
    · show (h.onChannel c _ _).2.channels.lookup c' = _
      rw [lookup_onChannel, hc, Option.map_some, hsame]
      split_ifs with heq
      · rw [heq, hc]
      · rfl

/-- Calls that record nothing leave the buffers alone. -/
theorem activeTX_after {α : Type} {p : HubProg α} (hp : p.All fun op => op.records = false) :
    (after p h).activeTX c = h.activeTX c :=
  after_of_all (I := fun h' => h'.activeTX c = h.activeTX c)
    (fun _ _ hop hI => (HubOp.activeTX_run_of_not_records hop c).trans hI) hp rfl

theorem holder_after {α : Type} {p : HubProg α} (hp : p.All fun op => op.target = none) :
    (after p h).holder c = h.holder c :=
  after_of_all (I := fun h' => h'.holder c = h.holder c)
    (fun _ _ hop hI => (HubOp.holder_run_of_ne (by
      rw [hop]
      exact (Option.some_ne_none c).symm)).trans hI) hp rfl

theorem recording_after {α : Type} (p : HubProg α) (h : Hub) :
    (after p h).recording = h.recording :=
  after_of_all (P := fun _ => True) (I := fun h' => h'.recording = h.recording)
    (fun op _ _ hI => (HubOp.switches_run op).1.trans hI) (all_of_forall (fun _ => trivial) p) rfl

/-- A granted request leaves an empty buffer on its channel and no trace on the others. -/
theorem activeTX_answerRequest {reply : FloorReply} (hreply : reply.granted = true)
    (c' : ChannelID) : if c' = c ∧ h.recording = true then
      ∃ tx, (after (answerRequest x c reply) h).activeTX c' = some tx ∧ tx.buffer = []
    else (after (answerRequest x c reply) h).activeTX c' = h.activeTX c' := by
  let opening : HubProg Unit := do
    HubOp.addTransmission.call
    ifSome reply.preempted (finalizePreempted c x)
  let start := HubOp.onTransmissionStart c x
  have hafter : (after (answerRequest x c reply) h).activeTX c' =
      (start.run (after opening h)).2.activeTX c' := by
    rw [answerRequest, if_pos hreply]
    show (after (ifSome reply.preempted _ >>= fun _ => _) _).activeTX c' = _
    rw [after_bind, perform_bind, after_call, activeTX_after]
    · rfl
    · exact all_then rfl fun _ => all_then rfl fun _ => all_then rfl fun _ => all_perform rfl
  rw [hafter, HubOp.onTransmissionStart_run, recording_after]
  by_cases hon : c' = c ∧ h.recording = true
  · rw [if_pos hon, if_pos hon]
    exact ⟨_, rfl, rfl⟩
  rw [if_neg hon, if_neg hon]
  -- the transmission that a preempting grant ends is one of channel `c`
  refine after_of_all (P := fun op => op.records = false ∨ op = .onTransmissionEnd c)
    (I := fun h' => h'.recording = h.recording ∧ h'.activeTX c' = h.activeTX c') ?_ ?_ ⟨rfl, rfl⟩
    |>.2
  · rintro op h' hop ⟨hrec, htx⟩
    refine ⟨(HubOp.switches_run op).1.trans hrec, ?_⟩
    rcases hop with hop | rfl
    · rw [HubOp.activeTX_run_of_not_records hop, htx]
    · rw [HubOp.onTransmissionEnd_run, hrec, if_neg hon, htx]
  · refine all_then (Or.inl rfl) fun _ => all_ifSome fun y => all_then (Or.inl rfl) fun _ => ?_
    refine all_bind ?_ fun _ => all_then (Or.inl rfl) fun _ => all_perform (Or.inl rfl)
    exact all_then (Or.inr rfl) fun _ =>
      all_bind (all_ifSome fun _ => all_perform (Or.inl rfl)) fun _ => trivial

/-- What a repeated `ptt_down` does: one more transmission is counted, and the buffer is emptied. -/
theorem rekeyed (hb : h.BusyAgrees) (hof : h.channelOf x = some c) (hx : h.holder c = some x) :
    (∀ c', (after (handlePTTDown x) h).channels.lookup c' = h.channels.lookup c') ∧
      (after (handlePTTDown x) h).totalPreemptions = h.totalPreemptions ∧
      (after (handlePTTDown x) h).totalTransmissions = h.totalTransmissions + 1 ∧
      (after (handlePTTDown x) h).buffered c =
        if h.recording = true then [] else h.buffered c := by
  obtain ⟨hreply, hlookup⟩ := requestFloor_held hb hx
  have hcounts : ((HubOp.requestFloor c x).run h).2.totalTransmissions = h.totalTransmissions ∧
      ((HubOp.requestFloor c x).run h).2.totalPreemptions = h.totalPreemptions :=
    ⟨onChannel_part (fun _ _ => rfl) .., onChannel_part (fun _ _ => rfl) ..⟩
  have hrec : ((HubOp.requestFloor c x).run h).2.recorder = h.recorder :=
    HubOp.recorder_run_of_not_records rfl
  have hbuffer := @activeTX_answerRequest ((HubOp.requestFloor c x).run h).2 x c
    ⟨true, "", "", none⟩ rfl c
  rw [after_handlePTTDown hof, hreply]
  -- the request itself does not matter any more, only that the hub is as it was
  generalize ((HubOp.requestFloor c x).run h).2 = h₁ at *
  have hparts : (after (answerRequest x c ⟨true, "", "", none⟩) h₁).channels = h₁.channels ∧
      (after (answerRequest x c ⟨true, "", "", none⟩) h₁).totalPreemptions =
        h₁.totalPreemptions ∧
      (after (answerRequest x c ⟨true, "", "", none⟩) h₁).totalTransmissions =
        h₁.totalTransmissions + 1 := by
    obtain ⟨-, -, -, -, -, -, -, recorder, -, -, -, -, -, -⟩ := h₁
    cases recorder with
    | none => exact ⟨rfl, rfl, rfl⟩
    | some r => exact ⟨rfl, rfl, rfl⟩
  refine ⟨fun c' => ?_, ?_, ?_, ?_⟩
  · rw [hparts.1, hlookup]
  · rw [hparts.2.1, hcounts.2]
  · rw [hparts.2.2, hcounts.1]
  · have hrec' : h₁.recording = h.recording := by rw [recording, hrec, recording]
    have htx : h₁.activeTX c = h.activeTX c := by rw [activeTX, hrec, activeTX]
    rw [hrec'] at hbuffer
    by_cases hon : h.recording = true
    · rw [if_pos ⟨rfl, hon⟩] at hbuffer
      obtain ⟨tx, heq, hnil⟩ := hbuffer
      rw [if_pos hon, buffered, heq]
      exact hnil
    · rw [if_neg fun hboth => hon hboth.2] at hbuffer
      rw [if_neg hon, buffered, hbuffer, htx, buffered]

end Held

section Serve

open Hub Prog

variable {h : Hub} {r : Request}

/-- Between two hubs every hold of the second is one of the first, with the same buffer. -/
def Hub.HoldsFrom (h h' : Hub) : Prop :=
  ∀ c x, h'.holder c = some x → h.holder c = some x ∧ h'.activeTX c = h.activeTX c

/-- The call neither grants a floor nor touches a buffer. -/
def HubOp.uneventful (op : HubOp) : Prop := op.begins = false ∧ op.records = false

theorem Hub.HoldsFrom.call {h' : Hub} {op : HubOp} (hop : op.uneventful) (hh : h.HoldsFrom h') :
    h.HoldsFrom (op.run h').2 := by
  intro c x hx
  obtain ⟨hheld, htx⟩ := hh c x (holder_before hop.1 hx)
  exact ⟨hheld, (HubOp.activeTX_run_of_not_records hop.2 c).trans htx⟩

theorem Hub.HoldsFrom.refl (h : Hub) : h.HoldsFrom h := fun _ _ hx => ⟨hx, rfl⟩

/-- A handler that grants nothing may end the transmission of a channel whose floor is free. -/
theorem Hub.HoldsFrom.release {h' : Hub} {c : ChannelID} {p : HubProg Unit}
    (hp : p.All fun op => op.uneventful ∨ op = .onTransmissionEnd c) (hh : h.HoldsFrom h')
    (hfree : h'.holder c = none) : h.HoldsFrom (after p h') := by
  refine (after_of_all (I := fun h' => h.HoldsFrom h' ∧ h'.holder c = none) ?_ hp ⟨hh, hfree⟩).1
  rintro op h₁ hop ⟨hh₁, hfree₁⟩
  rcases hop with hop | rfl
  · refine ⟨hh₁.call hop, ?_⟩
    by_contra hheld
    obtain ⟨x, hx⟩ := Option.ne_none_iff_exists'.mp hheld
    rw [holder_before hop.1 hx] at hfree₁
    cases hfree₁
  · have hholder : ∀ c', ((HubOp.onTransmissionEnd c).run h₁).2.holder c' = h₁.holder c' :=
      fun c' => HubOp.holder_run_of_ne (Option.some_ne_none c').symm
    refine ⟨fun c' x hx => ?_, (hholder c).trans hfree₁⟩
    rw [hholder] at hx
    rw [HubOp.onTransmissionEnd_run, if_neg]
    · exact hh₁ c' x hx
    · rintro ⟨rfl, _⟩
      rw [hfree₁] at hx
      cases hx

theorem holdsFrom_of_uneventful {α : Type} {p : HubProg α} (hp : p.All HubOp.uneventful) :
    h.HoldsFrom (after p h) :=
  after_of_all (I := h.HoldsFrom) (fun _ _ hop hh => hh.call hop) hp (HoldsFrom.refl h)

theorem holdsFrom_handlePTTUp (x : ClientRef) : h.HoldsFrom (after (handlePTTUp x) h) := by
  show h.HoldsFrom (after (ifSome (h.channelOf x) _) h)
  cases h.channelOf x with
  | none => exact HoldsFrom.refl h
  | some c =>
    show h.HoldsFrom (after (when (((HubOp.releaseFloor c x).run h).1 = true) _)
      ((HubOp.releaseFloor c x).run h).2)
    have hsection : h.HoldsFrom ((HubOp.releaseFloor c x).run h).2 :=
      (HoldsFrom.refl h).call ⟨rfl, rfl⟩
    rw [after_when]
    rcases HubOp.releaseFloor_run h c x with ⟨_, hreleased, hfree⟩ | ⟨_, hreleased, _⟩
    · rw [if_pos hreleased]
      refine hsection.release ?_ hfree
      refine all_bind (all_then (Or.inr rfl) fun _ => ?_) fun _ => all_then (Or.inl ⟨rfl, rfl⟩)
        fun _ => all_bind (all_ifSome fun _ => all_perform (Or.inl ⟨rfl, rfl⟩)) fun _ => ?_
      · exact all_bind (all_ifSome fun _ => all_perform (Or.inl ⟨rfl, rfl⟩)) fun _ => trivial
      · exact all_then (Or.inl ⟨rfl, rfl⟩) fun _ => all_then (Or.inl ⟨rfl, rfl⟩) fun _ =>
          all_perform (Or.inl ⟨rfl, rfl⟩)
    · rw [hreleased, if_neg Bool.false_ne_true]
      exact hsection

theorem holdsFrom_totGoroutine (c : ChannelID) (timer : ℕ) :
    h.HoldsFrom (after (totGoroutine c timer) h) := by
  show h.HoldsFrom (after (ifSome ((HubOp.handleTOT c timer).run h).1 (handleTOTExpired c))
    ((HubOp.handleTOT c timer).run h).2)
  have hsection : h.HoldsFrom ((HubOp.handleTOT c timer).run h).2 :=
    (HoldsFrom.refl h).call ⟨rfl, rfl⟩
  rcases HubOp.handleTOT_run h c timer with ⟨hnone, _⟩ | ⟨y, hsome, _, hfree⟩
  · rw [hnone]
    exact hsection
  · rw [hsome]
    refine hsection.release ?_ hfree
    refine all_bind (all_then (Or.inr rfl) fun _ => ?_) fun _ => all_then (Or.inl ⟨rfl, rfl⟩)
      fun _ => all_then (Or.inl ⟨rfl, rfl⟩) fun _ => all_then (Or.inl ⟨rfl, rfl⟩) fun _ =>
      all_then (Or.inl ⟨rfl, rfl⟩) fun _ => all_perform (Or.inl ⟨rfl, rfl⟩)
    exact all_bind (all_ifSome fun _ => all_perform (Or.inl ⟨rfl, rfl⟩)) fun _ => trivial

/-- Only a `ptt_down` begins a hold, and only a packet adds to one. -/
theorem holdsFrom_serve (hdown : ∀ x choices, r ≠ .signal x .pttDown choices)
    (haudio : ∀ x data, r ≠ .audio x data) : h.HoldsFrom (after r.prog h) := by
  by_cases hends : r.endsTransmission = true
  · cases r with
    | signal x msg choices =>
      cases msg with
      | pttDown => exact absurd rfl (hdown x choices)
      | pttUp => exact holdsFrom_handlePTTUp x
      | _ => cases hends
    | totExpires c timer => exact holdsFrom_totGoroutine c timer
    | _ => cases hends
  · by_cases hsends : r.sendsAudio = true
    · cases r with
      | audio x data => exact absurd rfl (haudio x data)
      | datagram data =>
        refine holdsFrom_of_uneventful ?_
        show Prog.All _ (roipDatagram data)
        unfold roipDatagram
        dsimp only
        split
        · trivial
        · exact all_then ⟨rfl, rfl⟩ fun _ => all_when (all_perform ⟨rfl, rfl⟩)
      | _ => cases hsends
    · refine holdsFrom_of_uneventful ((serves_prog r).mono fun op hop => ?_)
      cases op with
      | requestFloor ch y =>
        simp only [HubOp.servedBy] at hop
        cases hop
      | onTransmissionStart ch y =>
        simp only [HubOp.servedBy] at hop
        cases hop
      | onTransmissionEnd ch => exact absurd hop hends
      | appendAudio ch payload => exact absurd hop hsends
      | _ => exact ⟨rfl, rfl⟩

/-- The buffer of a transmission that a payload is added to, as far as it fits. -/
def TransmissionBuffer.add (payload : Bytes) (tx : TransmissionBuffer) : TransmissionBuffer :=
  if maxBufferBytes < tx.buffer.length + payload.length then tx
  else { tx with buffer := tx.buffer ++ payload }

theorem TransmissionBuffer.add_nil (tx : TransmissionBuffer) : tx.add [] = tx := by
  unfold add
  rw [List.append_nil]
  split_ifs <;> rfl

theorem activeTX_dispatchAudio (x : ClientRef) (ch : ChannelID) (flags : UInt8) (data : Bytes)
    (c : ChannelID) (hrec : h.recording = true) :
    (after (dispatchAudio x ch flags data) h).activeTX c =
      if c = ch then (h.activeTX c).map (TransmissionBuffer.add (data.drop audioHeaderSize))
      else h.activeTX c := by
  let counted := ((HubOp.addAudioBytes data.length).run h).2
  have hsent : (after (dispatchAudio x ch flags data) h).activeTX c =
      (after (when (audioHeaderSize < data.length)
        (HubOp.appendAudio ch (data.drop audioHeaderSize)).call) counted).activeTX c := by
    unfold dispatchAudio
    rw [perform_bind, after_call, after_bind]
    refine activeTX_after (all_bind ?_ fun _ => all_then rfl fun _ => all_when (all_perform rfl))
    unfold fanOut
    split_ifs
    · exact all_perform rfl
    · exact all_perform rfl
  rw [hsent, after_when]
  split_ifs with hlong hc hc
  · show ((HubOp.appendAudio ch _).run counted).2.activeTX c = _
    rw [HubOp.appendAudio_run, if_pos ⟨hc, hrec⟩, hc]
    rfl
  · show ((HubOp.appendAudio ch _).run counted).2.activeTX c = _
    rw [HubOp.appendAudio_run, if_neg fun hboth => hc hboth.1]
    rfl
  · rw [List.drop_eq_nil_of_le (not_lt.mp hlong)]
    show h.activeTX c = _
    cases h.activeTX c with
    | none => rfl
    | some tx => rw [Option.map_some, TransmissionBuffer.add_nil]
  · rfl

/-- A packet goes to the buffer of the channel it is accepted for, and to no other. -/
theorem activeTX_handleBinaryAudio (x : ClientRef) (data : Bytes) (c : ChannelID)
    (hrec : h.recording = true) : (after (handleBinaryAudio x data) h).activeTX c =
      (h.activeTX c).map (TransmissionBuffer.add (h.accepted x data c)) := by
  have hnothing : (h.activeTX c).map (TransmissionBuffer.add []) = h.activeTX c := by
    cases h.activeTX c with
    | none => rfl
    | some tx => rw [Option.map_some, TransmissionBuffer.add_nil]
  cases hparse : parseAudioHeaderQuick data with
  | error e =>
    have hafter : after (handleBinaryAudio x data) h = h := by
      unfold handleBinaryAudio
      rw [hparse]
      rfl
    rw [hafter, Hub.accepted, hparse]
    exact hnothing.symm
  | ok packet =>
    rw [Hub.accepted, hparse]
    dsimp only
    by_cases haccepts : h.Accepts x packet
    · rw [((handleBinaryAudio_cases hparse).1 haccepts).2, activeTX_dispatchAudio _ _ _ _ _ hrec]
      by_cases hc : c = packet.channelID.toNat
      · rw [if_pos hc, if_pos ⟨haccepts, hc⟩]
      · rw [if_neg hc, if_neg fun hboth => hc hboth.2, hnothing]
    · rw [((handleBinaryAudio_cases hparse).2 haccepts).2, if_neg fun hboth => haccepts hboth.1,
        hnothing]

/-- Packets neither take the floor nor release it. -/
theorem holder_handleBinaryAudio (x : ClientRef) (data : Bytes) (c : ChannelID) :
    (after (handleBinaryAudio x data) h).holder c = h.holder c := by
  refine holder_after ((serves_prog (.audio x data)).mono fun op hop => ?_)
  cases op <;> first | rfl | cases hop

/-- What a handler can do to the hold that a channel is left with. -/
inductive HoldStep (h : Hub) (r : Request) (c : ChannelID) (x : ClientRef) (h' : Hub) : Prop
  | goesOn (hheld : h.holder c = some x)
      (htx : h'.activeTX c = (h.activeTX c).map (TransmissionBuffer.add (r.accepted h c)))
  | rekeyed (choices : Choices) (hr : r = .signal x .pttDown choices)
      (hof : h.channelOf x = some c) (hheld : h.holder c = some x)
      (htx : ∃ tx, h'.activeTX c = some tx ∧ tx.buffer = [])
  | begins (hfree : h.holder c ≠ some x) (htx : ∃ tx, h'.activeTX c = some tx ∧ tx.buffer = [])

/-- A handler that is no packet accepts nothing. -/
theorem HoldStep.unfed {h' : Hub} {c : ChannelID} {x : ClientRef}
    (haccepted : r.accepted h c = []) (hheld : h.holder c = some x)
    (htx : h'.activeTX c = h.activeTX c) : HoldStep h r c x h' := by
  refine .goesOn hheld ?_
  rw [htx, haccepted]
  cases h.activeTX c with
  | none => rfl
  | some tx => rw [Option.map_some, TransmissionBuffer.add_nil]

/-- The floor is decided before the request is answered. -/
theorem holder_answerRequest {y : ClientRef} {ch c : ChannelID} {reply : FloorReply} :
    (after (answerRequest y ch reply) h).holder c = h.holder c := by
  refine holder_after ?_
  unfold answerRequest
  split_ifs
  · refine all_then rfl fun _ => all_bind (all_ifSome fun y => ?_) fun _ => all_then rfl
      fun _ => all_then rfl fun c => all_then rfl fun _ => all_then rfl fun _ =>
      all_perform rfl
    exact all_then rfl fun _ => all_bind (all_then rfl fun _ => all_bind
      (all_ifSome fun _ => all_perform rfl) fun _ => trivial) fun _ => all_then rfl fun c =>
      all_perform rfl
  · exact all_perform rfl

theorem holdStep_handlePTTDown (hb : h.BusyAgrees) (hrec : h.recording = true) (y : ClientRef)
    (choices : Choices) {c : ChannelID} {x : ClientRef}
    (hx : (after (handlePTTDown y) h).holder c = some x) :
    HoldStep h (.signal y .pttDown choices) c x (after (handlePTTDown y) h) := by
  cases hof : h.channelOf y with
  | none =>
    have hafter : after (handlePTTDown y) h =
        after ((HubOp.sendJSON y (.error "channel not found")).call : HubProg Unit) h := by
      simp only [handlePTTDown, perform_bind, after_call]
      rw [show ((HubOp.currentChannel y).run h).1 = none from hof]
      rfl
    rw [hafter] at hx ⊢
    exact .unfed rfl hx rfl
  | some c' =>
    rw [after_handlePTTDown hof] at hx ⊢
    have hrequested := HubOp.requestFloor_run c' y hb
    have htx : ∀ ch, ((HubOp.requestFloor c' y).run h).2.activeTX ch = h.activeTX ch :=
      HubOp.activeTX_run_of_not_records rfl
    have hothers : ∀ ch, ch ≠ c' →
        ((HubOp.requestFloor c' y).run h).2.holder ch = h.holder ch :=
      fun ch hne => HubOp.holder_run_of_ne fun heq => hne (Option.some.inj heq).symm
    have hrec' : ((HubOp.requestFloor c' y).run h).2.recording = true :=
      (HubOp.switches_run _).1.trans hrec
    rw [holder_answerRequest] at hx
    have hgranted := @activeTX_answerRequest ((HubOp.requestFloor c' y).run h).2 y c'
      ((HubOp.requestFloor c' y).run h).1
    generalize ((HubOp.requestFloor c' y).run h).2 = h₁ at *
    generalize ((HubOp.requestFloor c' y).run h).1 = reply at *
    by_cases hc : c = c'
    · -- on the channel of the request, a granted one starts a new transmission
      subst hc
      have hstart : reply.granted = true →
          ∃ tx, (after (answerRequest y c reply) h₁).activeTX c = some tx ∧ tx.buffer = [] := by
        intro hg
        have hon := hgranted hg c
        rwa [if_pos ⟨rfl, hrec'⟩] at hon
      generalize hbefore : h.holder c = before at hrequested
      generalize h₁.holder c = now at hrequested hx
      cases hrequested with
      | absent => cases hx
      | free => exact .begins (by rw [hbefore]; exact (Option.some_ne_none x).symm) (hstart rfl)
      | held =>
        obtain rfl := Option.some.inj hx
        exact .rekeyed choices rfl hof hbefore (hstart rfl)
      | preempts z hne hp =>
        obtain rfl := Option.some.inj hx
        exact .begins (by rw [hbefore]; exact fun heq => hne (Option.some.inj heq)) (hstart rfl)
      | denied z hne hp => exact .unfed rfl (hbefore.trans hx) (htx c)
    · -- and on any other channel nothing changes
      have hkeep : (after (answerRequest y c' reply) h₁).activeTX c = h.activeTX c := by
        by_cases hg : reply.granted = true
        · have := hgranted hg c
          rw [if_neg fun hboth => hc hboth.1] at this
          rw [this, htx]
        · rw [answerRequest, if_neg hg]
          exact htx c
      exact .unfed rfl ((hothers c hc).symm.trans hx) hkeep

theorem holdStep_serve (hb : h.BusyAgrees) (hrec : h.recording = true) {c : ChannelID}
    {x : ClientRef} (hx : (after r.prog h).holder c = some x) :
    HoldStep h r c x (after r.prog h) := by
  by_cases hdown : ∃ y choices, r = .signal y .pttDown choices
  · obtain ⟨y, choices, rfl⟩ := hdown
    exact holdStep_handlePTTDown hb hrec y choices hx
  by_cases haudio : ∃ y data, r = .audio y data
  · obtain ⟨y, data, rfl⟩ := haudio
    refine .goesOn ?_ (activeTX_handleBinaryAudio y data c hrec)
    exact (holder_handleBinaryAudio y data c).symm.trans hx
  have hnone : r.accepted h c = [] := by
    cases r with
    | audio y data => exact absurd ⟨y, data, rfl⟩ haudio
    | _ => rfl
  obtain ⟨hheld, htx⟩ := holdsFrom_serve (fun y choices heq => hdown ⟨y, choices, heq⟩)
    (fun y data heq => haudio ⟨y, data, heq⟩) c x hx
  exact .unfed hnone hheld htx

end Serve

section Run

open Hub

variable {s t : SerialHub (ChannelID → Bytes)} {e : SerialEvent}

/-- While a recorder is on, every held floor has a buffer. -/
structure Opened (s : SerialHub (ChannelID → Bytes)) : Prop where
  busy : s.hub.BusyAgrees
  opened : s.hub.recording = true → ∀ c x, s.hub.holder c = some x →
    ∃ tx, s.hub.activeTX c = some tx

/-- Steps that are no handlers leave the floors, the recorder and the history alone. -/
theorem serialStep_environment (h : serialStep noteHeld s e = some t) (he : ∀ r, e ≠ .serve r) :
    (∀ c, t.hub.holder c = s.hub.holder c) ∧ t.hub.recorder = s.hub.recorder ∧
      t.history = s.history ∧ (s.hub.BusyAgrees → t.hub.BusyAgrees) := by
  cases e with
  | serve r => exact absurd rfl (he r)
  | timerFires ch timer =>
    obtain ⟨h', hf, rfl⟩ := Option.map_eq_some_iff.mp h
    obtain ⟨_, _, _, _, heq⟩ := fireTimer_eq hf
    refine ⟨fireTimer_holder hf, ?_, rfl, fun hb => fireTimer_busyAgrees hb hf⟩
    rw [heq]
  | tick d =>
    obtain rfl := Option.some.inj h
    exact ⟨fun _ => rfl, rfl, rfl, id⟩

theorem Opened.step (hs : Opened s) (h : serialStep noteHeld s e = some t) : Opened t := by
  by_cases he : ∃ r, e = .serve r
  swap
  · obtain ⟨hholder, hrec, _, hbusy⟩ :=
      serialStep_environment h fun r heq => he ⟨r, heq⟩
    refine ⟨hbusy hs.busy, fun hon c x hx => ?_⟩
    rw [hholder] at hx
    rw [recording, hrec] at hon
    rw [activeTX, hrec]
    exact hs.opened hon c x hx
  obtain ⟨r, rfl⟩ := he
  obtain ⟨_, hhub, _⟩ := serialStep_serve h
  refine ⟨?_, ?_⟩ <;> rw [hhub]
  · exact after_busyAgrees hs.busy
  · intro hon c x hx
    rw [recording_after] at hon
    cases holdStep_serve hs.busy hon hx with
    | goesOn hheld htx =>
      obtain ⟨tx, hopen⟩ := hs.opened hon c x hheld
      exact ⟨_, htx.trans (congrArg _ hopen)⟩
    | rekeyed choices hr hof hheld htx => exact ⟨_, htx.choose_spec.1⟩
    | begins hfree htx => exact ⟨_, htx.choose_spec.1⟩

/-- A handler that is no late `ptt_down` of a holder keeps the recordings of all holds whole. -/
theorem HoldsWhole.serve (ho : Opened s) (hs : HoldsWhole s)
    (h : serialStep noteHeld s (.serve r) = some t) (hearly : RekeyedEarly s (.serve r)) :
    HoldsWhole t := by
  intro hon c x hx hlen
  obtain ⟨_, hhub, _, hhist⟩ := serialStep_serve h
  rw [hhub] at hon hx
  rw [recording_after] at hon
  have hheld : t.history c = if (after r.prog s.hub).holder c = s.hub.holder c then
      s.history c ++ r.accepted s.hub c else [] := by
    rw [hhist, hhub]
    rfl
  rw [buffered, hhub]
  cases holdStep_serve ho.busy hon hx with
  | goesOn hsame htx =>
    -- what the hold is fed fits into its buffer
    rw [if_pos (hx.trans hsame.symm)] at hheld
    rw [hheld, List.length_append] at hlen
    obtain ⟨tx, hopen⟩ := ho.opened hon c x hsame
    have hbuffer : tx.buffer = s.history c := by
      have hwhole := hs hon c x hsame (Nat.le_trans (Nat.le_add_right _ _) hlen)
      rwa [buffered, hopen] at hwhole
    have hfits : ¬ maxBufferBytes < tx.buffer.length + (r.accepted s.hub c).length := by
      rw [hbuffer]
      exact not_lt.mpr hlen
    rw [htx, hopen, hheld, ← hbuffer, Option.map_some, TransmissionBuffer.add, if_neg hfits]
    rfl
  | rekeyed choices hr hof hsame htx =>
    -- the buffer is emptied, but nothing was in it, or more than it can hold was due
    subst hr
    rw [if_pos (hx.trans hsame.symm)] at hheld
    have hheld' : t.history c = s.history c := hheld.trans (List.append_nil _)
    obtain ⟨tx, hopen, hnil⟩ := htx
    rcases hearly x choices c rfl hon hof hsame with hempty | hfull
    · rw [hopen, hheld', hempty]
      exact hnil
    · rw [hheld'] at hlen
      exact absurd hlen (not_le.mpr hfull)
  | begins hfree htx =>
    rw [if_neg fun heq => hfree (heq.symm.trans hx)] at hheld
    obtain ⟨tx, hopen, hnil⟩ := htx
    rw [hopen, hheld]
    exact hnil

/-- A late `ptt_down` of a holder empties a buffer that was not empty. -/
theorem RekeyedEarly.of_whole (ho : Opened s) (h : serialStep noteHeld s (.serve r) = some t)
    (hwhole : HoldsWhole t) : RekeyedEarly s (.serve r) := by
  rintro x choices c heq hon hof hx
  obtain rfl := SerialEvent.serve.inj heq
  obtain ⟨_, hhub, _, hhist⟩ := serialStep_serve h
  by_contra hlate
  obtain ⟨hfed, hfits⟩ := not_or.mp hlate
  obtain ⟨hlookup, _, _, hempty⟩ := rekeyed ho.busy hof hx
  have hx' : t.hub.holder c = some x := by
    rw [hhub]
    show (after (handlePTTDown x) s.hub).holder c = some x
    rw [holder, hlookup, ← holder]
    exact hx
  have hheld : t.history c = s.history c := by
    rw [hhist]
    show (if t.hub.holder c = s.hub.holder c then s.history c ++ [] else []) = _
    rw [if_pos (hx'.trans hx.symm), List.append_nil]
  have hon' : t.hub.recording = true := by
    rw [hhub, recording_after]
    exact hon
  have hbuffer := hwhole hon' c x hx' (by rw [hheld]; exact not_lt.mp hfits)
  rw [hheld, hhub] at hbuffer
  rw [if_pos hon] at hempty
  exact hfed (hbuffer.symm.trans hempty)

/-- One step keeps the recordings of all holds whole exactly if it is no late `ptt_down` of a
holder. -/
theorem HoldsWhole.step (ho : Opened s) (hs : HoldsWhole s)
    (h : serialStep noteHeld s e = some t) : RekeyedEarly s e ↔ HoldsWhole t := by
  by_cases he : ∃ r, e = .serve r
  · obtain ⟨r, rfl⟩ := he
    exact ⟨hs.serve ho h, RekeyedEarly.of_whole ho h⟩
  obtain ⟨hholder, hrec, hhist, _⟩ := serialStep_environment h fun r heq => he ⟨r, heq⟩
  refine iff_of_true (fun x choices c heq => absurd ⟨_, heq⟩ he) fun hon c x hx hlen => ?_
  rw [hholder] at hx
  rw [recording, hrec] at hon
  rw [hhist] at hlen ⊢
  rw [buffered, activeTX, hrec]
  exact hs hon c x hx hlen

theorem Opened.init (cfg : Config) (recorder : Option AudioRecorder) (roipRelay : Bool)
    (heap : Clients) (now : ℤ) :
    Opened (SerialHub.init (newHub cfg recorder roipRelay heap now) fun _ => []) where
  busy := newHub_busyAgrees cfg recorder roipRelay heap now
  opened := fun _ c x hx => by
    rw [SerialHub.init, newHub_holder] at hx
    cases hx

end Run

/-- A `ptt_down` of the client that holds its channel's floor never goes unnoticed: the floor, its
timers and the preemptions stay, but one more transmission is counted and the buffer is emptied.
The recordings of all holds stay whole just when no holder sends `ptt_down` after its first
payload. -/
theorem rekeying_noticed (cfg : Config) (recorder : Option AudioRecorder) (roipRelay : Bool)
    (heap : Clients) (now : ℤ) :
    (∀ (es : List ServerEvent) (s : Server Unit),
      Run (serverStep noObserver) (Server.init (newHub cfg recorder roipRelay heap now) ()) es s →
      ∀ x, s.hub.holder (s.hub.heap x).currentChannelID = some x →
      ¬ s.hub.RekeyingIdle x ∧
      (∀ c, (Hub.after (Hub.handlePTTDown x) s.hub).channels.lookup c =
        s.hub.channels.lookup c) ∧
      (Hub.after (Hub.handlePTTDown x) s.hub).totalPreemptions = s.hub.totalPreemptions ∧
      (Hub.after (Hub.handlePTTDown x) s.hub).totalTransmissions =
        s.hub.totalTransmissions + 1 ∧
      ((Hub.after (Hub.handlePTTDown x) s.hub).buffered (s.hub.heap x).currentChannelID =
        s.hub.buffered (s.hub.heap x).currentChannelID ↔
        (s.hub.recording = true → s.hub.buffered (s.hub.heap x).currentChannelID = []))) ∧
    ∀ es : List SerialEvent,
      Always (serialStep noteHeld) HoldsWhole
        (SerialHub.init (newHub cfg recorder roipRelay heap now) fun _ => []) es ↔
      Guarded (serialStep noteHeld) RekeyedEarly
        (SerialHub.init (newHub cfg recorder roipRelay heap now) fun _ => []) es := by
  refine ⟨fun es s hrun x hx => ?_, fun es => ?_⟩
  · have hbusy : s.hub.BusyAgrees := hrun.invariant (I := fun s => s.hub.BusyAgrees)
      (fun s e t hs h => busyAgrees_step hs h) (newHub_busyAgrees cfg recorder roipRelay heap now)
    obtain ⟨hlookup, hpreemptions, htransmissions, hbuffer⟩ :=
      rekeyed hbusy (channelOf_of_holder hx) hx
    refine ⟨fun hidle => ?_, hlookup, hpreemptions, htransmissions, ?_⟩
    · have hsame := htransmissions.symm.trans hidle.totalTransmissions
      exact absurd (UInt64.add_eq_left.mp hsame) (by decide)
    · rw [hbuffer]
      split_ifs with hon
      · exact ⟨fun heq _ => heq.symm, fun hnil => (hnil hon).symm⟩
      · exact iff_of_true rfl fun hon' => absurd hon' hon
  · have hopened := Opened.init cfg recorder roipRelay heap now
    have hwhole : HoldsWhole
        (SerialHub.init (newHub cfg recorder roipRelay heap now) fun _ => []) := by
      intro _ c x hx
      rw [SerialHub.init, newHub_holder] at hx
      cases hx
    rw [← always_and_iff (I := Opened) (fun s e t hs h => hs.step h) hopened]
    refine always_iff_guarded (fun s e t hs h => ?_) ⟨hopened, hwhole⟩
    rw [HoldsWhole.step hs.1 hs.2 h]
    exact ⟨fun hq => ⟨hs.1.step h, hq⟩, fun hboth => hboth.2⟩

/-- Unit 0 has the floor of channel 1 and has spoken for 100 ms. -/
def onAirFor100ms : List ServerEvent :=
  uninterrupted (.connect 0 0) 10 ++ uninterrupted (.signal 0 .pttDown {}) 8 ++
    uninterrupted (silence 0) 7

/-- What unit 0 has said is gone when it sends `ptt_down` again, and it is counted twice. -/
theorem rekeying_noticed_fails :
    ∃ s, Run (serverStep noObserver) (Server.init (newHub defaultConfig
        (some (newAudioRecorder "recordings" 100 true {})) false sampleClients 0) ())
        onAirFor100ms s ∧
      s.hub.holder (s.hub.heap 0).currentChannelID = some 0 ∧ (s.hub.buffered 1).length = 3200 ∧
      (Hub.after (Hub.handlePTTDown 0) s.hub).buffered 1 = [] ∧ ¬ s.hub.RekeyingIdle 0 := by
  have hrun := run_get (serverStep noObserver) (Server.init (newHub defaultConfig
    (some (newAudioRecorder "recordings" 100 true {})) false sampleClients 0) ()) onAirFor100ms
    (by decide +kernel)
  refine ⟨_, hrun, by decide +kernel, by decide +kernel, by decide +kernel, fun hidle => ?_⟩
  exact absurd hidle.totalTransmissions (by decide +kernel)

end TwoWayRadio

import TwoWayRadio.AudioFormat
import Mathlib.Algebra.BigOperators.Group.List.Lemmas

/-! The packets that `RadioAudioEngine` makes of what it captures in one transmission. -/
namespace TwoWayRadio

/-- The calls of the transmitting side of the engine. -/
inductive EngineCall
  | startPreBuffering (channelID : ChannelID)
  | startTransmission (channelID : ChannelID)
  | onAudioProcess (samples : List Int16)
  | confirmTransmission
  | stopTransmission

namespace AudioEngine

/-- The part of `startTransmission` after its `await`. -/
def startTransmission (channelID : ChannelID) (a : AudioEngine) : AudioEngine :=
  { a with
    currentChannel := channelID, isTransmitting := true, isFirstChunk := true, seqCounter := 0,
    pcmBufferIndex := 0 }

def call (a : AudioEngine) : EngineCall → List Bytes × AudioEngine
  | .startPreBuffering channelID => ([], a.startPreBuffering channelID)
  | .startTransmission channelID => ([], a.startTransmission channelID)
  | .onAudioProcess samples => a.onAudioProcess samples
  | .confirmTransmission => a.confirmTransmission
  | .stopTransmission => a.stopTransmission

/-- The packets handed to `sendPacket` by a sequence of calls, and the engine after them. -/
def calls : List EngineCall → AudioEngine → List Bytes × AudioEngine
  | [], a => ([], a)
  | c :: rest, a =>
    let r := a.call c
    let q := calls rest r.2
    (r.1 ++ q.1, q.2)

end AudioEngine

/-- One transmission: the sample blocks of the callbacks before and after the floor is granted, the
former short of sixteen frames. -/
structure MicTransmission where
  channelID : ChannelID
  before : List (List Int16)
  after : List (List Int16)
  early : before.flatten.length < 16 * packetSampleCount

namespace MicTransmission

def calls (t : MicTransmission) : List EngineCall :=
  .startPreBuffering t.channelID :: t.before.map .onAudioProcess ++
    .confirmTransmission :: t.after.map .onAudioProcess ++ [.stopTransmission]

def captured (t : MicTransmission) : List Int16 := t.before.flatten ++ t.after.flatten

end MicTransmission

/-- The packets are numbered from 1 on, the first and no other carries the first flag, the last and
no other carries the last flag, and their samples are the captured ones followed by zeros. -/
structure PacketsExact (captured : List Int16) (packets : List Bytes) : Prop where
  headers : ∀ i p, packets[i]? = some p → ∃ frame, parseAudioHeaderQuick p = .ok frame ∧
    frame.seqNum = UInt32.ofNat (i + 1) ∧ (frame.flags &&& flagAudioFirst ≠ 0 ↔ i = 0) ∧
    (frame.flags &&& flagAudioLast ≠ 0 ↔ i + 1 = packets.length)
  samples : ∃ k, packets.flatMap (fun p => int16View (p.drop audioHeaderSize)) =
    captured ++ List.replicate k 0

/-- What is left in the frame buffer behind the last captured sample: the samples that came one
frame before, with `buffer` before the first. -/
def staleSamples (buffer captured : List Int16) : List Int16 :=
  ((buffer ++ captured).drop captured.length).take
    ((packetSampleCount - captured.length % packetSampleCount) % packetSampleCount)

namespace AudioEngine

variable {ch : ChannelID} {buffer cur : List Int16} {done : List (List Int16)} {out : List Bytes}
  {a : AudioEngine} {v : Int16}

/-- The packet of the frame at position `i` of a transmission. -/
def framePacket (ch : ChannelID) (i : ℕ) (isLast : Bool) (frame : List Int16) : Bytes :=
  buildAudioPacket ch ((if i = 0 then 0x01 else 0) + (if isLast then 0x02 else 0)) ((i + 1 : ℕ))
    (int16Bytes frame)

def framePackets (ch : ChannelID) (done : List (List Int16)) : List Bytes :=
  done.mapIdx fun i frame => framePacket ch i false frame

theorem framePackets_append (frame : List Int16) : framePackets ch (done ++ [frame]) =
    framePackets ch done ++ [framePacket ch done.length false frame] :=
  List.mapIdx_concat

/-- The engine has captured the frames `done` and then `cur`, and has handed out `out`; the rest of
the frame buffer is still that of the frame before, or of `buffer`. -/
structure Framing (ch : ChannelID) (buffer : List Int16) (done : List (List Int16))
    (cur : List Int16) (out : List Bytes) (a : AudioEngine) : Prop where
  full : ∀ frame ∈ done, frame.length = packetSampleCount
  short : cur.length < packetSampleCount
  currentChannel : a.currentChannel = ch
  seqCounter : a.seqCounter = done.length
  isFirstChunk : a.isFirstChunk = decide (done.length = 0)
  pcmBufferIndex : a.pcmBufferIndex = cur.length
  pcmBuffer : a.pcmBuffer = cur ++ (done.getLastD buffer).drop cur.length
  handed : out ++ a.preBufferQueue = framePackets ch done
  live : a.isTransmitting = true → a.preBufferQueue = []

/-- A frame that is full next is either sent or has room in the pre-buffer. -/
def Room (captured : ℕ) (a : AudioEngine) : Prop :=
  a.isTransmitting = true ∨ (a.isPreBuffering = true ∧ captured < 16 * packetSampleCount)

theorem length_flatten (hfull : ∀ frame ∈ done, frame.length = packetSampleCount) :
    done.flatten.length = packetSampleCount * done.length := by
  induction done with
  | nil => rfl
  | cons frame rest ih =>
    rw [List.flatten_cons, List.length_append, hfull frame List.mem_cons_self,
      ih fun f hf => hfull f (List.mem_cons_of_mem _ hf), List.length_cons, Nat.mul_succ,
      Nat.add_comm]

theorem length_getLastD (hbuffer : buffer.length = packetSampleCount)
    (hfull : ∀ frame ∈ done, frame.length = packetSampleCount) :
    (done.getLastD buffer).length = packetSampleCount := by
  rw [List.getLastD_eq_getLast?]
  cases hlast : done.getLast? with
  | none => exact hbuffer
  | some frame => exact hfull frame (List.mem_of_getLast? hlast)

/-- Overwriting the first sample that is left of the frame before. -/
theorem set_stale (last : List Int16) (hcur : cur.length < last.length) :
    (cur ++ last.drop cur.length).set cur.length v = cur ++ [v] ++ last.drop (cur.length + 1) := by
  rw [List.set_append_right _ _ le_rfl, Nat.sub_self, List.drop_eq_getElem_cons hcur,
    List.set_cons_zero, List.append_assoc, List.singleton_append]

/-- What flushing a full frame does, where the packet has somewhere to go. -/
theorem Framing.flushPCMPacket {frame : List Int16} (h : Framing ch buffer done cur out a)
    (hframe : frame.length = packetSampleCount)
    (hroom : Room (packetSampleCount * (done.length + 1)) a) (b : AudioEngine)
    (hb : b = { a with pcmBuffer := frame, pcmBufferIndex := packetSampleCount }) :
    Framing ch buffer (done ++ [frame]) [] (out ++ (b.flushPCMPacket false).1)
      (b.flushPCMPacket false).2 := by
  have hpacket : buildAudioPacket b.currentChannel
      ((if b.isFirstChunk then 0x01 else 0) + (if false then 0x02 else 0)) (b.seqCounter + 1 : ℕ)
      (int16Bytes b.pcmBuffer) = framePacket ch done.length false frame := by
    rw [hb, framePacket]
    show buildAudioPacket a.currentChannel (_ + _) (a.seqCounter + 1 : ℕ) (int16Bytes frame) = _
    rw [h.currentChannel, h.seqCounter, h.isFirstChunk]
    simp
  have hfull : ∀ f ∈ done ++ [frame], f.length = packetSampleCount := by
    intro f hf
    rcases List.mem_append.mp hf with hf | hf
    · exact h.full f hf
    · rw [List.mem_singleton.mp hf]
      exact hframe
  have hbuffer : frame = [] ++ ((done ++ [frame]).getLastD buffer).drop 0 := by
    rw [List.getLastD_concat]
    rfl
  have hfirst : (false : Bool) = decide ((done ++ [frame]).length = 0) := by simp
  have hcount : a.seqCounter + 1 = (done ++ [frame]).length := by
    rw [h.seqCounter, List.length_append]
    rfl
  unfold AudioEngine.flushPCMPacket
  dsimp only
  rw [hpacket]
  subst hb
  dsimp only
  split_ifs with htransmitting hqueue
  · refine ⟨hfull, by decide, h.currentChannel, hcount, hfirst, rfl, hbuffer, ?_, h.live⟩
    have hhanded := h.handed
    dsimp only at htransmitting ⊢
    rw [h.live htransmitting, List.append_nil] at hhanded ⊢
    rw [framePackets_append, hhanded]
  · refine ⟨hfull, by decide, h.currentChannel, hcount, hfirst, rfl, hbuffer, ?_,
      fun ht => absurd ht htransmitting⟩
    rw [List.append_nil, framePackets_append, ← h.handed, List.append_assoc]
  · -- the sixteenth frame would be the first without room
    rcases hroom with ht | ⟨hpre, hlt⟩
    · exact absurd ht htransmitting
    · have hlength := congrArg List.length h.handed
      rw [List.length_append, framePackets, List.length_mapIdx] at hlength
      refine absurd ⟨hpre, ?_⟩ hqueue
      show a.preBufferQueue.length < 15
      unfold packetSampleCount at hlt
      omega

/-- One more sample is captured, and a frame that it fills is handed out or queued. -/
theorem Framing.pushSample (hbuffer : buffer.length = packetSampleCount)
    (h : Framing ch buffer done cur out a)
    (hroom : Room (done.flatten ++ cur ++ [v]).length a) :
    ∃ done' cur', done'.flatten ++ cur' = done.flatten ++ cur ++ [v] ∧
      Framing ch buffer done' cur' (out ++ (a.pushSample v).1) (a.pushSample v).2 := by
  have hlast := length_getLastD hbuffer h.full
  have hset : a.pcmBuffer.set a.pcmBufferIndex v =
      cur ++ [v] ++ (done.getLastD buffer).drop (cur.length + 1) := by
    rw [h.pcmBuffer, h.pcmBufferIndex]
    exact set_stale _ (hlast ▸ h.short)
  unfold AudioEngine.pushSample
  dsimp only
  rw [hset, h.pcmBufferIndex]
  split_ifs with hfills
  · -- the frame is full: it covers the whole buffer, so that nothing stale is left behind it
    have hlength : (cur ++ [v]).length = packetSampleCount := by
      rw [List.length_append]
      exact le_antisymm h.short hfills
    refine ⟨done ++ [cur ++ [v]], [], ?_, h.flushPCMPacket hlength ?_ _ ?_⟩
    · simp
    · rw [List.length_append, List.length_append, length_flatten h.full] at hroom
      rw [List.length_append] at hlength
      rwa [Nat.add_assoc, hlength, ← Nat.mul_succ] at hroom
    · have hdrop : (done.getLastD buffer).drop (cur.length + 1) = [] :=
        List.drop_eq_nil_of_le (hlast.trans_le hfills)
      rw [hdrop, List.append_nil, show cur.length + 1 = packetSampleCount from
        le_antisymm h.short hfills]
  · refine ⟨done, cur ++ [v], by simp, h.full, ?_, h.currentChannel, h.seqCounter, h.isFirstChunk,
      ?_, ?_, ?_, h.live⟩
    · rw [List.length_append]
      exact not_le.mp hfills
    · rw [List.length_append]
      rfl
    · rw [List.length_append]
      rfl
    · rw [List.append_nil]
      exact h.handed

theorem Room.mono {m n : ℕ} (hroom : Room n a) (hmn : m ≤ n) : Room m a :=
  hroom.imp id fun hpre => ⟨hpre.1, hmn.trans_lt hpre.2⟩

theorem Room.of_flags {b : AudioEngine} {n : ℕ} (hroom : Room n a)
    (hflags : b.isTransmitting = a.isTransmitting ∧ b.isPreBuffering = a.isPreBuffering) :
    Room n b := by
  rwa [Room, hflags.1, hflags.2]

theorem Framing.pushSamples (hbuffer : buffer.length = packetSampleCount) (vs : List Int16)
    (h : Framing ch buffer done cur out a) (hroom : Room (done.flatten ++ cur ++ vs).length a) :
    ∃ done' cur', done'.flatten ++ cur' = done.flatten ++ cur ++ vs ∧
      Framing ch buffer done' cur' (out ++ (a.pushSamples vs).1) (a.pushSamples vs).2 := by
  induction vs generalizing done cur out a with
  | nil =>
    refine ⟨done, cur, (List.append_nil _).symm, ?_⟩
    show Framing ch buffer done cur (out ++ []) a
    rwa [List.append_nil]
  | cons v vs ih =>
    have hsplit : done.flatten ++ cur ++ v :: vs = done.flatten ++ cur ++ [v] ++ vs := by simp
    rw [hsplit] at hroom ⊢
    obtain ⟨done₁, cur₁, heq₁, h₁⟩ := h.pushSample hbuffer (v := v)
      (hroom.mono ((List.prefix_append _ vs).length_le))
    rw [← heq₁] at hroom ⊢
    obtain ⟨done₂, cur₂, heq₂, h₂⟩ := ih h₁ (hroom.of_flags (pushSample_flags v a))
    refine ⟨done₂, cur₂, heq₂, ?_⟩
    show Framing ch buffer done₂ cur₂ (out ++ ((a.pushSample v).1 ++ _)) _
    rwa [← List.append_assoc]

theorem onAudioProcess_of_room {n : ℕ} (hroom : Room n a) (vs : List Int16) :
    a.onAudioProcess vs = a.pushSamples vs := by
  unfold onAudioProcess
  rcases hroom with h | ⟨h, _⟩ <;> simp [h]

theorem calls_append (cs ds : List EngineCall) (a : AudioEngine) :
    calls (cs ++ ds) a =
      ((calls cs a).1 ++ (calls ds (calls cs a).2).1, (calls ds (calls cs a).2).2) := by
  induction cs generalizing a with
  | nil => rfl
  | cons c rest ih =>
    show ((a.call c).1 ++ (calls (rest ++ ds) (a.call c).2).1,
      (calls (rest ++ ds) (a.call c).2).2) = _
    rw [ih, ← List.append_assoc]
    rfl

/-- The callbacks of one stretch of a transmission, whatever blocks they come in. -/
theorem Framing.blocks (hbuffer : buffer.length = packetSampleCount) (blocks : List (List Int16))
    (h : Framing ch buffer done cur out a)
    (hroom : Room (done.flatten ++ cur ++ blocks.flatten).length a) :
    let r := calls (blocks.map .onAudioProcess) a
    (∃ done' cur', done'.flatten ++ cur' = done.flatten ++ cur ++ blocks.flatten ∧
      Framing ch buffer done' cur' (out ++ r.1) r.2) ∧
    r.2.isTransmitting = a.isTransmitting ∧ r.2.isPreBuffering = a.isPreBuffering := by
  induction blocks generalizing done cur out a with
  | nil =>
    refine ⟨⟨done, cur, (List.append_nil _).symm, ?_⟩, rfl, rfl⟩
    show Framing ch buffer done cur (out ++ []) a
    rwa [List.append_nil]
  | cons vs blocks ih =>
    intro r
    rw [List.flatten_cons, ← List.append_assoc] at hroom ⊢
    obtain ⟨done₁, cur₁, heq₁, h₁⟩ := h.pushSamples hbuffer vs
      (hroom.mono ((List.prefix_append _ blocks.flatten).length_le))
    rw [← heq₁] at hroom ⊢
    have hflags := pushSamples_flags vs a
    have hcall : a.call (.onAudioProcess vs) = a.pushSamples vs := onAudioProcess_of_room hroom vs
    obtain ⟨⟨done₂, cur₂, heq₂, h₂⟩, hflags₂⟩ := ih h₁ (hroom.of_flags hflags)
    have hr : r = ((a.pushSamples vs).1 ++ (calls (blocks.map .onAudioProcess)
        (a.pushSamples vs).2).1, (calls (blocks.map .onAudioProcess) (a.pushSamples vs).2).2) := by
      show ((a.call (.onAudioProcess vs)).1 ++ _, _) = _
      rw [hcall]
    rw [hr]
    refine ⟨⟨done₂, cur₂, heq₂, ?_⟩, hflags₂.1.trans hflags.1, hflags₂.2.trans hflags.2⟩
    rwa [← List.append_assoc]

/-- The calls of a transmission before its stop. -/
theorem framing_of_transmission (hbuffer : a.pcmBuffer.length = packetSampleCount)
    (t : MicTransmission) :
    ∃ done cur out b, done.flatten ++ cur = t.captured ∧
      Framing t.channelID a.pcmBuffer done cur out b ∧ b.isTransmitting = true ∧
      (calls t.calls a).1 = out ++ b.stopTransmission.1 := by
  have hstart : Framing t.channelID a.pcmBuffer [] [] [] (a.startPreBuffering t.channelID) :=
    ⟨fun _ hf => (List.not_mem_nil hf).elim, by decide, rfl, rfl, rfl, rfl, rfl, rfl, fun _ => rfl⟩
  -- before the floor is granted the frames go to the pre-buffer, which has room for all of them
  obtain ⟨⟨done₁, cur₁, heq₁, h₁⟩, _⟩ :=
    hstart.blocks hbuffer t.before (Or.inr ⟨rfl, t.early⟩)
  let b₁ := (calls (t.before.map .onAudioProcess) (a.startPreBuffering t.channelID)).2
  have hconfirm : Framing t.channelID a.pcmBuffer done₁ cur₁
      (framePackets t.channelID done₁) b₁.confirmTransmission.2 :=
    ⟨h₁.full, h₁.short, h₁.currentChannel, h₁.seqCounter, h₁.isFirstChunk, h₁.pcmBufferIndex,
      h₁.pcmBuffer, List.append_nil _, fun _ => rfl⟩
  obtain ⟨⟨done₂, cur₂, heq₂, h₂⟩, hlive, _⟩ := hconfirm.blocks hbuffer t.after (Or.inl rfl)
  refine ⟨done₂, cur₂, _, _, ?_, h₂, hlive, ?_⟩
  · rw [heq₂, heq₁]
    rfl
  · rw [← h₁.handed]
    simp only [MicTransmission.calls, calls_append, calls, List.nil_append, List.append_nil]
    show _ ++ (b₁.confirmTransmission.1 ++ _) ++ _ = _
    simp only [List.append_assoc]
    rfl

/-- The packet that ends a transmission: the frame begun, or two bytes of silence. -/
def lastPacket (ch : ChannelID) (buffer : List Int16) (done : List (List Int16))
    (cur : List Int16) : Bytes :=
  if cur = [] then buildAudioPacket ch 0x02 ((done.length + 1 : ℕ)) [0, 0]
  else framePacket ch done.length true (cur ++ (done.getLastD buffer).drop cur.length)

theorem Framing.stopTransmission (h : Framing ch buffer done cur out a)
    (hlive : a.isTransmitting = true) :
    out ++ a.stopTransmission.1 =
      framePackets ch done ++ [lastPacket ch buffer done cur] := by
  have hqueue := h.handed
  rw [h.live hlive, List.append_nil] at hqueue
  have hlast : a.stopTransmission.1 = [lastPacket ch buffer done cur] := by
    unfold AudioEngine.stopTransmission lastPacket
    dsimp only
    rw [if_pos hlive, h.pcmBufferIndex]
    by_cases hcur : cur = []
    · rw [if_pos hcur, if_neg (by simp [hcur]), h.currentChannel, h.seqCounter]
    · rw [if_neg hcur, if_pos (List.length_pos_iff.mpr hcur)]
      unfold AudioEngine.flushPCMPacket framePacket
      dsimp only
      rw [if_pos hlive, h.currentChannel, h.seqCounter, h.isFirstChunk, h.pcmBuffer]
      simp
  rw [hlast, hqueue]

theorem parse_framePacket (i : ℕ) (flags : ℤ) (payload : Bytes) :
    parseAudioHeaderQuick (buildAudioPacket ch flags ((i + 1 : ℕ)) payload) =
      .ok ⟨lowByte ch, lowByte flags, UInt32.ofNat (i + 1), payload⟩ := by
  obtain ⟨h24, h16, h8, h0⟩ := lowByte_signedShiftRight (i + 1)
  have hword : UInt32.ofNat ((i + 1) % 2 ^ 32) = UInt32.ofNat (i + 1) := by
    apply UInt32.toNat_inj.mp
    simp
  rw [buildAudioPacket, h24, h16, h8, h0, hword]
  exact parseAudioHeaderQuick_encodeAudioPacket _ _ _ _

theorem flatMap_framePackets :
    (framePackets ch done).flatMap (fun p => int16View (p.drop audioHeaderSize)) =
      done.flatten := by
  induction done using List.reverseRecOn with
  | nil => rfl
  | append_singleton rest frame ih =>
    rw [framePackets_append, List.flatMap_append, ih, List.flatten_append]
    have hframe : (framePacket ch rest.length false frame).drop audioHeaderSize =
      int16Bytes frame := rfl
    simp [hframe, int16View_int16Bytes]

/-- The samples behind the last captured one in the frame begun are those of the frame before. -/
theorem staleSamples_eq (hbuffer : buffer.length = packetSampleCount)
    (hfull : ∀ frame ∈ done, frame.length = packetSampleCount)
    (hshort : cur.length < packetSampleCount) : staleSamples buffer (done.flatten ++ cur) =
      if cur = [] then [] else (done.getLastD buffer).drop cur.length := by
  have hlength : (done.flatten ++ cur).length = packetSampleCount * done.length + cur.length := by
    rw [List.length_append, length_flatten hfull]
  have hmod : (done.flatten ++ cur).length % packetSampleCount = cur.length := by
    rw [hlength, Nat.mul_add_mod, Nat.mod_eq_of_lt hshort]
  unfold staleSamples
  rw [hmod]
  by_cases hcur : cur = []
  · rw [if_pos hcur, hcur]
    rfl
  have hpos := List.length_pos_iff.mpr hcur
  rw [if_neg hcur, Nat.mod_eq_of_lt (Nat.sub_lt (by decide) hpos)]
  -- what is kept of the samples one frame before the last captured one
  have hbehind : (buffer ++ (done.flatten ++ cur)).drop (done.flatten ++ cur).length =
      (done.getLastD buffer).drop cur.length ++ cur := by
    have hlast := length_getLastD hbuffer hfull
    have hwhole : ∃ before, before.length = done.flatten.length ∧
        buffer ++ (done.flatten ++ cur) = before ++ (done.getLastD buffer ++ cur) := by
      rcases List.eq_nil_or_concat done with rfl | ⟨rest, frame, rfl⟩
      · exact ⟨[], rfl, rfl⟩
      · refine ⟨buffer ++ rest.flatten, ?_, ?_⟩
        · simp [hbuffer, hfull frame (by simp), Nat.add_comm]
        · simp
    obtain ⟨before, hbefore, heq⟩ := hwhole
    rw [heq, List.length_append, ← hbefore, ← List.drop_drop, List.drop_left,
      List.drop_append_of_le_length (hlast ▸ hshort.le)]
  rw [hbehind, List.take_left']
  rw [List.length_drop, length_getLastD hbuffer hfull]

/-- The headers of a frame: its number, and the first flag on frame 0 alone. -/
theorem header_framePacket (i : ℕ) (isLast : Bool) (frame : List Int16) :
    ∃ header, parseAudioHeaderQuick (framePacket ch i isLast frame) = .ok header ∧
      header.seqNum = UInt32.ofNat (i + 1) ∧ (header.flags &&& flagAudioFirst ≠ 0 ↔ i = 0) ∧
      (header.flags &&& flagAudioLast ≠ 0 ↔ isLast = true) := by
  have hflags : ∀ first isLast : Bool,
      (lowByte ((if first then 0x01 else 0) + (if isLast then 0x02 else 0)) &&&
        flagAudioFirst ≠ 0 ↔ first = true) ∧
      (lowByte ((if first then 0x01 else 0) + (if isLast then 0x02 else 0)) &&&
        flagAudioLast ≠ 0 ↔ isLast = true) := by
    decide
  have hboth := hflags (decide (i = 0)) isLast
  simp only [decide_eq_true_eq] at hboth
  exact ⟨_, parse_framePacket i _ _, rfl, hboth⟩

/-- Behind whole frames, which are as they should be, all depends on the last packet. -/
theorem packetsExact_concat_iff {packet : Bytes} :
    PacketsExact (done.flatten ++ cur) (framePackets ch done ++ [packet]) ↔
      (∃ header, parseAudioHeaderQuick packet = .ok header ∧
        header.seqNum = UInt32.ofNat (done.length + 1) ∧
        (header.flags &&& flagAudioFirst ≠ 0 ↔ done.length = 0) ∧
        header.flags &&& flagAudioLast ≠ 0) ∧
      ∃ k, int16View (packet.drop audioHeaderSize) = cur ++ List.replicate k 0 := by
  have hcount : (framePackets ch done).length = done.length := List.length_mapIdx
  have hlength : (framePackets ch done ++ [packet]).length = done.length + 1 := by
    rw [List.length_append, hcount]
    rfl
  have hframes : ∀ i p, (framePackets ch done)[i]? = some p →
      ∃ header, parseAudioHeaderQuick p = .ok header ∧ header.seqNum = UInt32.ofNat (i + 1) ∧
        (header.flags &&& flagAudioFirst ≠ 0 ↔ i = 0) ∧
        (header.flags &&& flagAudioLast ≠ 0 ↔ i + 1 = done.length + 1) := by
    intro i p hp
    have hi : i < done.length := by
      rw [← hcount]
      exact (List.getElem?_eq_some_iff.mp hp).1
    rw [framePackets, List.getElem?_mapIdx] at hp
    obtain ⟨frame, _, rfl⟩ := Option.map_eq_some_iff.mp hp
    obtain ⟨header, hparse, hseq, hfirst, hlast⟩ := @header_framePacket ch i false frame
    refine ⟨header, hparse, hseq, hfirst, hlast.trans ?_⟩
    exact iff_of_false Bool.false_ne_true (by omega)
  constructor
  · rintro ⟨hheaders, k, hsamples⟩
    constructor
    · obtain ⟨header, hparse, hseq, hfirst, hlast⟩ :=
        hheaders done.length packet (by simp [← hcount])
      exact ⟨header, hparse, hseq, hfirst, hlast.mpr hlength.symm⟩
    · rw [List.flatMap_append, flatMap_framePackets, List.append_assoc] at hsamples
      exact ⟨k, by simpa using List.append_cancel_left hsamples⟩
  · rintro ⟨⟨header, hparse, hseq, hfirst, hlast⟩, k, hsamples⟩
    refine ⟨fun i p hp => ?_, k, ?_⟩
    · rw [hlength]
      rcases Nat.lt_trichotomy i done.length with hi | rfl | hi
      · rw [List.getElem?_append_left (hcount ▸ hi)] at hp
        exact hframes i p hp
      · rw [List.getElem?_append_right hcount.le, hcount, Nat.sub_self] at hp
        obtain rfl := Option.some.inj hp
        exact ⟨header, hparse, hseq, hfirst, iff_of_true hlast rfl⟩
      · rw [List.getElem?_eq_none (by rw [hlength]; exact hi)] at hp
        cases hp
    · rw [List.flatMap_append, flatMap_framePackets, List.append_assoc, ← hsamples]
      simp

/-- An empty tail is one sample of silence without the first flag. -/
theorem packetsExact_silence_iff (hfull : ∀ frame ∈ done, frame.length = packetSampleCount) :
    PacketsExact (done.flatten ++ [])
        (framePackets ch done ++ [buildAudioPacket ch 0x02 ((done.length + 1 : ℕ)) [0, 0]]) ↔
      done.flatten ≠ [] := by
  have hsilence : int16View ((buildAudioPacket ch 0x02 ((done.length + 1 : ℕ)) [0, 0]).drop
    audioHeaderSize) = [0] := rfl
  have hframes : done.flatten ≠ [] ↔ done.length ≠ 0 := by
    rw [← List.length_pos_iff, length_flatten hfull, ← Nat.pos_iff_ne_zero,
      Nat.mul_pos_iff_of_pos_left (by decide)]
  have hflags : ¬ (lowByte 2 &&& flagAudioFirst ≠ 0) ∧ lowByte 2 &&& flagAudioLast ≠ 0 := by
    decide
  rw [packetsExact_concat_iff, parse_framePacket, hsilence, hframes]
  constructor
  · rintro ⟨⟨header, hparse, _, hfirst, _⟩, _⟩
    obtain rfl := Except.ok.inj hparse
    exact fun hzero => hflags.1 (hfirst.mpr hzero)
  · intro hsome
    exact ⟨⟨_, rfl, rfl, iff_of_false hflags.1 hsome, hflags.2⟩, 1, rfl⟩

/-- The packets of a transmission with frames `done` and `cur` are exact where nothing stale is
sent along, and where there is a first frame at all. -/
theorem packetsExact_iff (hfull : ∀ frame ∈ done, frame.length = packetSampleCount) :
    PacketsExact (done.flatten ++ cur)
        (framePackets ch done ++ [lastPacket ch buffer done cur]) ↔
      done.flatten ++ cur ≠ [] ∧
        ∀ v ∈ (if cur = [] then [] else (done.getLastD buffer).drop cur.length), v = 0 := by
  by_cases hcur : cur = []
  · have hlast : lastPacket ch buffer done cur =
        buildAudioPacket ch 0x02 ((done.length + 1 : ℕ)) [0, 0] := if_pos hcur
    rw [hlast, if_pos hcur, hcur, packetsExact_silence_iff hfull, List.append_nil]
    exact (and_iff_left fun v hv => (List.not_mem_nil hv).elim).symm
  · have hlast : lastPacket ch buffer done cur =
        framePacket ch done.length true (cur ++ (done.getLastD buffer).drop cur.length) :=
      if_neg hcur
    obtain ⟨header, hparse, hseq, hfirst, hlast'⟩ := @header_framePacket ch done.length true
      (cur ++ (done.getLastD buffer).drop cur.length)
    have hpayload : (framePacket ch done.length true
        (cur ++ (done.getLastD buffer).drop cur.length)).drop audioHeaderSize =
      int16Bytes (cur ++ (done.getLastD buffer).drop cur.length) := rfl
    rw [packetsExact_concat_iff, hlast, if_neg hcur, hpayload, int16View_int16Bytes,
      and_iff_right ⟨header, hparse, hseq, hfirst, hlast'.mpr rfl⟩, and_iff_right (by simp [hcur])]
    -- the rest of the frame buffer is what the last packet adds to the samples
    constructor
    · rintro ⟨k, hk⟩ v hv
      rw [List.append_cancel_left hk] at hv
      exact List.eq_of_mem_replicate hv
    · intro hzero
      exact ⟨_, congrArg (cur ++ ·) (List.eq_replicate_of_mem hzero)⟩

theorem length_flushPCMPacket (isLast : Bool) (a : AudioEngine) :
    (a.flushPCMPacket isLast).2.pcmBuffer.length = a.pcmBuffer.length := by
  unfold AudioEngine.flushPCMPacket
  dsimp only
  split_ifs <;> rfl

theorem length_pushSamples (vs : List Int16) (a : AudioEngine) :
    (a.pushSamples vs).2.pcmBuffer.length = a.pcmBuffer.length := by
  induction vs generalizing a with
  | nil => rfl
  | cons v vs ih =>
    have hsample : (a.pushSample v).2.pcmBuffer.length = a.pcmBuffer.length := by
      unfold AudioEngine.pushSample
      dsimp only
      split_ifs
      · rw [length_flushPCMPacket]
        exact List.length_set
      · exact List.length_set
    exact (ih _).trans hsample

/-- The frame buffer is an `Int16Array`: whatever is called, it keeps its length. -/
theorem length_call (c : EngineCall) (a : AudioEngine) :
    (a.call c).2.pcmBuffer.length = a.pcmBuffer.length := by
  cases c with
  | startPreBuffering channelID => rfl
  | startTransmission channelID => rfl
  | onAudioProcess samples =>
    show (a.onAudioProcess samples).2.pcmBuffer.length = _
    unfold onAudioProcess
    split_ifs
    · rfl
    · exact length_pushSamples samples a
  | confirmTransmission => rfl
  | stopTransmission =>
    show (AudioEngine.stopTransmission a).2.pcmBuffer.length = _
    unfold AudioEngine.stopTransmission
    dsimp only
    split_ifs
    · exact length_flushPCMPacket true _
    · rfl
    · rfl

theorem length_pcmBuffer (earlier : List EngineCall) (a : AudioEngine) :
    (calls earlier a).2.pcmBuffer.length = a.pcmBuffer.length := by
  induction earlier generalizing a with
  | nil => rfl
  | cons c rest ih => exact (ih _).trans (length_call c a)

end AudioEngine

/-- After any calls, the packets of a transmission are exact if and only if something was captured
and nothing but zeros is left in the frame buffer behind the last sample. -/
theorem packets_exact_iff (earlier : List EngineCall) (t : MicTransmission) :
    PacketsExact t.captured (AudioEngine.calls t.calls (AudioEngine.calls earlier {}).2).1 ↔
      t.captured ≠ [] ∧
        ∀ v ∈ staleSamples (AudioEngine.calls earlier {}).2.pcmBuffer t.captured, v = 0 := by
  have hbuffer : (AudioEngine.calls earlier {}).2.pcmBuffer.length = packetSampleCount :=
    (AudioEngine.length_pcmBuffer earlier {}).trans List.length_replicate
  obtain ⟨done, cur, out, b, hcaptured, hframing, hlive, hsent⟩ :=
    AudioEngine.framing_of_transmission hbuffer t
  rw [hsent, hframing.stopTransmission hlive, ← hcaptured,
    AudioEngine.staleSamples_eq hbuffer hframing.full hframing.short]
  exact AudioEngine.packetsExact_iff hframing.full

/-- A press in which one block of samples is captured. -/
def press (samples : List Int16) : MicTransmission where
  channelID := 1
  before := []
  after := [samples]
  early := by decide

/-- The frame of a press with one sample is filled up with what the press before has left in the
buffer, and the only packet of an empty press is not flagged as the first. -/
theorem packets_exact_fails :
    ¬ PacketsExact (press [7]).captured
        (AudioEngine.calls (press [7]).calls (AudioEngine.calls (press [7, 7]).calls {}).2).1 ∧
      ¬ PacketsExact (press []).captured (AudioEngine.calls (press []).calls {}).1 := by
  constructor
  · rintro ⟨_, k, hsamples⟩
    have hzero : ∀ v ∈ ((AudioEngine.calls (press [7]).calls
        (AudioEngine.calls (press [7, 7]).calls {}).2).1.flatMap
          fun p => int16View (p.drop audioHeaderSize)).drop (press [7]).captured.length, v = 0 := by
      rw [hsamples, List.drop_left]
      exact fun v hv => List.eq_of_mem_replicate hv
    exact absurd (hzero 7 (by decide +kernel)) (by decide)
  · rintro ⟨hheaders, _⟩
    have hpacket : (AudioEngine.calls (press []).calls {}).1[0]? =
        some (encodeAudioPacket 1 flagAudioLast 1 [0, 0]) := by
      decide +kernel
    obtain ⟨header, hparse, _, hfirst, _⟩ := hheaders 0 _ hpacket
    rw [parseAudioHeaderQuick_encodeAudioPacket] at hparse
    obtain rfl := Except.ok.inj hparse
    exact absurd (hfirst.mpr rfl) (by decide)

end TwoWayRadio

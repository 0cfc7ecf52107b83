import TwoWayRadio.Protocol
import Mathlib.Algebra.Group.Int.Defs
import Mathlib.Data.List.Basic

/-! The transmitting side of `RadioAudioEngine`: pre-buffering, packetising and flushing.
Packets handed to `sendPacket` are returned by each method, oldest first. -/
namespace TwoWayRadio

/-- ECMAScript `ToInt32`. -/
def toInt32 (n : ℤ) : ℤ := (n + 2147483648) % 4294967296 - 2147483648

/-- The ECMAScript operator `>>`. -/
def signedShiftRight (n : ℤ) (k : ℕ) : ℤ := toInt32 n / 2 ^ k

/-- `n & 0xff` stored in a byte. -/
def lowByte (n : ℤ) : UInt8 := UInt8.ofNat (n % 256).toNat

def buildAudioPacket (channelID : ℤ) (flags : ℤ) (seqNum : ℤ) (payloadBytes : Bytes) : Bytes :=
  [0x52, 0x41, lowByte channelID, lowByte flags, lowByte (signedShiftRight seqNum 24),
    lowByte (signedShiftRight seqNum 16), lowByte (signedShiftRight seqNum 8), lowByte seqNum]
    ++ payloadBytes

/-- The bytes of an `Int16Array`, little-endian. -/
def int16Bytes (samples : List Int16) : Bytes :=
  samples.flatMap fun v => [UInt8.ofNat v.toUInt16.toNat, UInt8.ofNat (v.toUInt16.toNat / 256)]

def packetSampleCount : ℕ := 640

structure AudioEngine where
  isTransmitting : Bool := false
  isPreBuffering : Bool := false
  preBufferQueue : List Bytes := []
  currentChannel : ChannelID := 1
  seqCounter : ℕ := 0
  isFirstChunk : Bool := true
  pcmBuffer : List Int16 := List.replicate packetSampleCount 0
  pcmBufferIndex : ℕ := 0

namespace AudioEngine

/-- Neither streaming nor pre-buffering: the microphone callback returns at once. -/
def Silent (a : AudioEngine) : Prop := a.isTransmitting = false ∧ a.isPreBuffering = false

def flushPCMPacket (isLast : Bool) (a : AudioEngine) : List Bytes × AudioEngine :=
  let seqCounter := a.seqCounter + 1
  let flags : ℤ := (if a.isFirstChunk then 0x01 else 0) + (if isLast then 0x02 else 0)
  let packet := buildAudioPacket a.currentChannel flags seqCounter (int16Bytes a.pcmBuffer)
  let a := { a with seqCounter := seqCounter, isFirstChunk := false }
  if a.isTransmitting then ([packet], { a with pcmBufferIndex := 0 })
  else if a.isPreBuffering ∧ a.preBufferQueue.length < 15 then
    ([], { a with preBufferQueue := a.preBufferQueue ++ [packet], pcmBufferIndex := 0 })
  else ([], { a with pcmBufferIndex := 0 })

/-- One resampled sample of the microphone callback. -/
def pushSample (int16 : Int16) (a : AudioEngine) : List Bytes × AudioEngine :=
  let a := { a with
    pcmBuffer := a.pcmBuffer.set a.pcmBufferIndex int16, pcmBufferIndex := a.pcmBufferIndex + 1 }
  if packetSampleCount ≤ a.pcmBufferIndex then a.flushPCMPacket false else ([], a)

def pushSamples : List Int16 → AudioEngine → List Bytes × AudioEngine
  | [], a => ([], a)
  | v :: vs, a =>
    let r := a.pushSample v
    let q := pushSamples vs r.2
    (r.1 ++ q.1, q.2)

/-- `onaudioprocess` on a block that resampled to `samples`. -/
def onAudioProcess (samples : List Int16) (a : AudioEngine) : List Bytes × AudioEngine :=
  if !a.isTransmitting && !a.isPreBuffering then ([], a) else pushSamples samples a

/-- The part of `startPreBuffering` before its `await`. -/
def startPreBuffering (channelID : ChannelID) (a : AudioEngine) : AudioEngine :=
  { a with
    currentChannel := channelID, isPreBuffering := true, preBufferQueue := [],
    pcmBufferIndex := 0, seqCounter := 0, isFirstChunk := true }

def confirmTransmission (a : AudioEngine) : List Bytes × AudioEngine :=
  (a.preBufferQueue, { a with
    isPreBuffering := false, isTransmitting := true, preBufferQueue := [] })

def stopTransmission (a : AudioEngine) : List Bytes × AudioEngine :=
  let a := { a with isPreBuffering := false }
  let r :=
    if a.isTransmitting then
      if 0 < a.pcmBufferIndex then a.flushPCMPacket true
      else
        let seqCounter := a.seqCounter + 1
        ([buildAudioPacket a.currentChannel 0x02 seqCounter [0, 0]],
          { a with seqCounter := seqCounter })
    else ([], a)
  (r.1, { r.2 with preBufferQueue := [], isTransmitting := false })

/-- Flushing a frame leaves the two transmit flags alone. -/
theorem flushPCMPacket_flags (isLast : Bool) (a : AudioEngine) :
    (a.flushPCMPacket isLast).2.isTransmitting = a.isTransmitting ∧
      (a.flushPCMPacket isLast).2.isPreBuffering = a.isPreBuffering := by
  unfold flushPCMPacket
  dsimp only
  split_ifs <;> exact ⟨rfl, rfl⟩

theorem pushSample_flags (v : Int16) (a : AudioEngine) :
    (a.pushSample v).2.isTransmitting = a.isTransmitting ∧
      (a.pushSample v).2.isPreBuffering = a.isPreBuffering := by
  unfold pushSample
  dsimp only
  split_ifs
  · exact flushPCMPacket_flags false _
  · exact ⟨rfl, rfl⟩

theorem pushSamples_flags (vs : List Int16) (a : AudioEngine) :
    (a.pushSamples vs).2.isTransmitting = a.isTransmitting ∧
      (a.pushSamples vs).2.isPreBuffering = a.isPreBuffering := by
  induction vs generalizing a with
  | nil => exact ⟨rfl, rfl⟩
  | cons v vs ih =>
    obtain ⟨h1, h2⟩ := pushSample_flags v a
    obtain ⟨i1, i2⟩ := ih (a.pushSample v).2
    exact ⟨i1.trans h1, i2.trans h2⟩

/-- The microphone callback never keys or unkeys the engine. -/
theorem onAudioProcess_flags (samples : List Int16) (a : AudioEngine) :
    (a.onAudioProcess samples).2.isTransmitting = a.isTransmitting ∧
      (a.onAudioProcess samples).2.isPreBuffering = a.isPreBuffering := by
  unfold onAudioProcess
  split_ifs
  · exact ⟨rfl, rfl⟩
  · exact pushSamples_flags samples a

theorem stopTransmission_silent (a : AudioEngine) : a.stopTransmission.2.Silent := by
  unfold stopTransmission Silent
  dsimp only
  split_ifs
  · exact ⟨rfl, (flushPCMPacket_flags true _).2⟩
  · exact ⟨rfl, rfl⟩
  · exact ⟨rfl, rfl⟩

end AudioEngine

end TwoWayRadio

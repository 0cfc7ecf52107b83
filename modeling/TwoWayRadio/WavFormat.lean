import TwoWayRadio.Recorder
import TwoWayRadio.Riff

/-! The files that recordings are saved in, as a reader of WAVE files sees them. -/
namespace TwoWayRadio

open Riff

theorem readLE_littleEndian16 (n : UInt16) : readLE (littleEndian16 n) = n.toNat := by
  have hn := n.toNat_lt
  have h8 : (n >>> 8).toNat = n.toNat / 2 ^ 8 := by
    rw [UInt16.toNat_shiftRight, Nat.shiftRight_eq_div_pow]
    rfl
  rw [littleEndian16, readLE_two, UInt16.toNat_toUInt8, UInt16.toNat_toUInt8, h8]
  omega

theorem readLE_littleEndian32 (n : UInt32) : readLE (littleEndian32 n) = n.toNat := by
  have hn := n.toNat_lt
  have h (k : UInt32) : (n >>> k).toNat = n.toNat / 2 ^ (k.toNat % 32) := by
    rw [UInt32.toNat_shiftRight, Nat.shiftRight_eq_div_pow]
  have h8 : (n >>> 8).toNat = n.toNat / 2 ^ 8 := h 8
  have h16 : (n >>> 16).toNat = n.toNat / 2 ^ 16 := h 16
  have h24 : (n >>> 24).toNat = n.toNat / 2 ^ 24 := h 24
  simp only [littleEndian32, readLE_four, UInt32.toNat_toUInt8, h8, h16, h24]
  omega

/-- The body of the chunk `fmt `. -/
def fmtBody (sampleRate : UInt32) (channels bitsPerSample : UInt16) : Bytes :=
  littleEndian16 1 ++ (littleEndian16 channels ++ (littleEndian32 sampleRate ++
    (littleEndian32 (sampleRate * channels.toUInt32 * bitsPerSample.toUInt32 / 8) ++
      (littleEndian16 (channels * bitsPerSample / 8) ++ littleEndian16 bitsPerSample))))

section Encoding

variable (sampleRate : UInt32) (channels bitsPerSample : UInt16) (pcm : Bytes)

theorem encodeWAV_chunks : encodeWAV sampleRate channels bitsPerSample pcm =
    riffID ++ (littleEndian32 (36 + UInt32.ofNat pcm.length) ++ (waveID ++ (fmtID ++
      (littleEndian32 16 ++ (fmtBody sampleRate channels bitsPerSample ++
        (dataID ++ (littleEndian32 (UInt32.ofNat pcm.length) ++ pcm))))))) := by
  simp only [encodeWAV, fmtBody, riffID, waveID, fmtID, dataID, List.append_assoc]

/-- The parameters as they stand in the chunk. -/
theorem field_fmtBody :
    field 0 2 (fmtBody sampleRate channels bitsPerSample) = 1 ∧
    field 2 2 (fmtBody sampleRate channels bitsPerSample) = channels.toNat ∧
    field 4 4 (fmtBody sampleRate channels bitsPerSample) = sampleRate.toNat ∧
    field 8 4 (fmtBody sampleRate channels bitsPerSample) =
      (sampleRate * channels.toUInt32 * bitsPerSample.toUInt32 / 8).toNat ∧
    field 12 2 (fmtBody sampleRate channels bitsPerSample) =
      (channels * bitsPerSample / 8).toNat ∧
    field 14 2 (fmtBody sampleRate channels bitsPerSample) = bitsPerSample.toNat := by
  simp only [← readLE_littleEndian16, ← readLE_littleEndian32]
  exact ⟨rfl, rfl, rfl, rfl, rfl, rfl⟩

variable {pcm}

/-- Samples that leave room for the header in 32 bits. -/
theorem dataSize_toNat (h : 36 + pcm.length < 2 ^ 32) :
    (UInt32.ofNat pcm.length).toNat = pcm.length ∧
      (36 + UInt32.ofNat pcm.length).toNat = 36 + pcm.length := by
  have hdata : (UInt32.ofNat pcm.length).toNat = pcm.length :=
    UInt32.toNat_ofNat_of_lt' ((Nat.le_add_left ..).trans_lt h)
  refine ⟨hdata, ?_⟩
  rw [UInt32.toNat_add, hdata]
  exact Nat.mod_eq_of_lt h

theorem readWave_encodeWAV (h : 36 + pcm.length < 2 ^ 32) :
    readWave (encodeWAV sampleRate channels bitsPerSample pcm) = some {
      audioFormat := 1, channels := channels.toNat, sampleRate := sampleRate.toNat,
      byteRate := (sampleRate * channels.toUInt32 * bitsPerSample.toUInt32 / 8).toNat,
      blockAlign := (channels * bitsPerSample / 8).toNat, bitsPerSample := bitsPerSample.toNat,
      data := pcm } := by
  obtain ⟨hdata, hchunk⟩ := dataSize_toNat h
  obtain ⟨hformat, hchannels, hrate, hbytes, halign, hbits⟩ :=
    field_fmtBody sampleRate channels bitsPerSample
  have hfmt : (fmtBody sampleRate channels bitsPerSample).length = 16 := rfl
  rw [encodeWAV_chunks, readWave_append rfl _ rfl _ _ _ rfl _, hformat, hchannels, hrate, hbytes,
    halign, hbits]
  · rw [readLE_littleEndian32, hchunk, hfmt]
  · rw [readLE_littleEndian32, hfmt]
    rfl
  · rw [hfmt]
  · rw [hfmt]
  · rw [readLE_littleEndian32, hdata]

end Encoding

/-- What the recorder writes is read back, whatever fits its buffer. -/
theorem encodeWAV_roundTrip (pcm : Bytes) (h : pcm.length ≤ maxBufferBytes) :
    (encodeWAV 16000 1 16 pcm).length = 44 + pcm.length ∧
    field 4 4 (encodeWAV 16000 1 16 pcm) + 8 = (encodeWAV 16000 1 16 pcm).length ∧
    field 40 4 (encodeWAV 16000 1 16 pcm) = pcm.length ∧
    readWave (encodeWAV 16000 1 16 pcm) = some {
      audioFormat := 1, channels := 1, sampleRate := 16000, byteRate := 32000, blockAlign := 2,
      bitsPerSample := 16, data := pcm } := by
  have hsmall : 36 + pcm.length < 2 ^ 32 := by
    unfold maxBufferBytes at h
    omega
  obtain ⟨hdata, hchunk⟩ := dataSize_toNat hsmall
  refine ⟨length_encodeWAV .., ?_, ?_, readWave_encodeWAV 16000 1 16 hsmall⟩
  · have hsize : field 4 4 (encodeWAV 16000 1 16 pcm) =
        readLE (littleEndian32 (36 + UInt32.ofNat pcm.length)) := rfl
    rw [hsize, readLE_littleEndian32, hchunk, length_encodeWAV]
    omega
  · have hsize : field 40 4 (encodeWAV 16000 1 16 pcm) =
        readLE (littleEndian32 (UInt32.ofNat pcm.length)) := rfl
    rw [hsize, readLE_littleEndian32, hdata]

theorem encodeWAV_roundTrip_three : [1, 2, 3].length ≤ maxBufferBytes ∧
    readWave (encodeWAV 16000 1 16 [1, 2, 3]) = some {
      audioFormat := 1, channels := 1, sampleRate := 16000, byteRate := 32000, blockAlign := 2,
      bitsPerSample := 16, data := [1, 2, 3] } :=
  ⟨by decide, (encodeWAV_roundTrip [1, 2, 3] (by decide)).2.2.2⟩

end TwoWayRadio

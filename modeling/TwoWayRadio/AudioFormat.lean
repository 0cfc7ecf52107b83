import TwoWayRadio.AudioEngine
import Mathlib.Tactic.Positivity

/-! The audio packet on the wire: one encoder in the browser, one in the server, two parsers. -/
namespace TwoWayRadio

section Words

theorem toNat_shiftLeft_of_byte (b : UInt8) {k : ℕ} (hk : k ≤ 24) :
    (b.toNat <<< k) % 2 ^ 32 = 2 ^ k * b.toNat := by
  have hb := b.toNat_lt
  rw [Nat.shiftLeft_eq, Nat.mul_comm, Nat.mod_eq_of_lt]
  calc 2 ^ k * b.toNat < 2 ^ k * 2 ^ 8 := Nat.mul_lt_mul_of_pos_left hb (by positivity)
    _ = 2 ^ (k + 8) := (Nat.pow_add ..).symm
    _ ≤ 2 ^ 32 := Nat.pow_le_pow_right (by decide) (by omega)

/-- The four bytes do not overlap, so the alternatives are a sum. -/
theorem toNat_bigEndianUint32 (b0 b1 b2 b3 : UInt8) :
    (bigEndianUint32 b0 b1 b2 b3).toNat =
      2 ^ 24 * b0.toNat + (2 ^ 16 * b1.toNat + (2 ^ 8 * b2.toNat + b3.toNat)) := by
  have h1 := b1.toNat_lt
  have h2 := b2.toNat_lt
  have h3 := b3.toNat_lt
  have shifted (b : UInt8) (k : UInt32) (hk : k.toNat ≤ 24) :
      (b.toUInt32 <<< k).toNat = 2 ^ k.toNat * b.toNat := by
    rw [UInt32.toNat_shiftLeft, UInt8.toNat_toUInt32, Nat.mod_eq_of_lt (by omega : _ < 32),
      toNat_shiftLeft_of_byte b hk]
  rw [bigEndianUint32, UInt32.toNat_or, UInt32.toNat_or, UInt32.toNat_or,
    shifted b0 24 (by decide), shifted b1 16 (by decide), shifted b2 8 (by decide),
    UInt8.toNat_toUInt32, Nat.or_assoc, Nat.or_assoc]
  rw [Nat.two_pow_add_eq_or_of_lt (i := 24) (by omega),
    Nat.two_pow_add_eq_or_of_lt (i := 16) (by omega),
    Nat.two_pow_add_eq_or_of_lt (i := 8) (by omega)]
  rfl

/-- What `binary.BigEndian.Uint32` makes of the bytes `PutUint32` wrote. -/
theorem bigEndianUint32_bytes (n : UInt32) :
    bigEndianUint32 (n >>> 24).toUInt8 (n >>> 16).toUInt8 (n >>> 8).toUInt8 n.toUInt8 = n := by
  have hn := n.toNat_lt
  apply UInt32.toNat_inj.mp
  rw [toNat_bigEndianUint32]
  simp [Nat.shiftRight_eq_div_pow]
  omega

/-- What `PutUint32` makes of the word that `binary.BigEndian.Uint32` read. -/
theorem bytes_bigEndianUint32 (b0 b1 b2 b3 : UInt8) :
    let n := bigEndianUint32 b0 b1 b2 b3
    (n >>> 24).toUInt8 = b0 ∧ (n >>> 16).toUInt8 = b1 ∧ (n >>> 8).toUInt8 = b2 ∧
      n.toUInt8 = b3 := by
  intro n
  have h0 := b0.toNat_lt
  have h1 := b1.toNat_lt
  have h2 := b2.toNat_lt
  have h3 := b3.toNat_lt
  have hn : n.toNat = _ := toNat_bigEndianUint32 b0 b1 b2 b3
  refine ⟨?_, ?_, ?_, ?_⟩ <;> apply UInt8.toNat_inj.mp <;>
    simp [Nat.shiftRight_eq_div_pow, hn] <;> omega

end Words

section Encoders

theorem lowByte_toNat (b : UInt8) : lowByte (b.toNat : ℤ) = b := by
  have hb := b.toNat_lt
  apply UInt8.toNat_inj.mp
  rw [lowByte, UInt8.toNat_ofNat_of_lt' (by omega : _ < 256)]
  omega

/-- The sign that `>>` spreads is cut off again by the mask, for the byte lies inside the 32
bits that `ToInt32` keeps. -/
theorem lowByte_signedShiftRight (n : ℕ) :
    let word := UInt32.ofNat (n % 2 ^ 32)
    lowByte (signedShiftRight n 24) = (word >>> 24).toUInt8 ∧
      lowByte (signedShiftRight n 16) = (word >>> 16).toUInt8 ∧
      lowByte (signedShiftRight n 8) = (word >>> 8).toUInt8 ∧ lowByte n = word.toUInt8 := by
  intro word
  have hword : word.toNat = n % 2 ^ 32 := by
    apply UInt32.toNat_ofNat_of_lt'
    exact Nat.mod_lt _ (by decide)
  have low (m : ℤ) : (lowByte m).toNat = (m % 256).toNat := by
    rw [lowByte]
    exact UInt8.toNat_ofNat_of_lt' (show (m % 256).toNat < 256 by omega)
  refine ⟨?_, ?_, ?_, ?_⟩ <;> apply UInt8.toNat_inj.mp <;>
    simp [low, hword, signedShiftRight, toInt32, Nat.shiftRight_eq_div_pow] <;> omega

theorem buildAudioPacket_eq (channelID flags : UInt8) (n : ℕ) (payload : Bytes) :
    buildAudioPacket channelID.toNat flags.toNat n payload =
      encodeAudioPacket channelID flags (UInt32.ofNat (n % 2 ^ 32)) payload := by
  obtain ⟨h24, h16, h8, h0⟩ := lowByte_signedShiftRight n
  rw [buildAudioPacket, encodeAudioPacket, lowByte_toNat, lowByte_toNat, h24, h16, h8, h0]
  rfl

end Encoders

section Samples

/-- An `Int16Array` over the bytes, little-endian; the length truncates an odd byte away. -/
def int16View : Bytes → List Int16
  | lo :: hi :: rest => (UInt16.ofNat (lo.toNat + 256 * hi.toNat)).toInt16 :: int16View rest
  | _ => []

theorem int16View_int16Bytes (samples : List Int16) : int16View (int16Bytes samples) = samples := by
  induction samples with
  | nil => rfl
  | cons v vs ih =>
    have hlt : v.toUInt16.toNat < 65536 := v.toUInt16.toNat_lt
    have hword : v.toUInt16.toNat % 256 + 256 * (v.toUInt16.toNat / 256 % 256)
        = v.toUInt16.toNat := by
      omega
    show (UInt16.ofNat ((UInt8.ofNat _).toNat + 256 * (UInt8.ofNat _).toNat)).toInt16 ::
      int16View (int16Bytes vs) = v :: vs
    rw [ih, UInt8.toNat_ofNat', UInt8.toNat_ofNat', hword]
    simp

end Samples

section Parsers

/-- The header that both parsers look for. -/
def WellFormed (data : Bytes) : Prop :=
  audioHeaderSize ≤ data.length ∧ data[0]? = some audioMagic0 ∧ data[1]? = some audioMagic1

instance (data : Bytes) : Decidable (WellFormed data) :=
  inferInstanceAs (Decidable (_ ∧ _ ∧ _))

/-- The two parsers are one: the heap-allocated header has the fields of the quick one. -/
theorem parseAudioHeader_eq (data : Bytes) :
    parseAudioHeader data =
      (parseAudioHeaderQuick data).map fun p => (⟨p.channelID, p.flags, p.seqNum⟩, p.payload) := by
  unfold parseAudioHeader parseAudioHeaderQuick
  split
  · split_ifs <;> rfl
  · rfl

theorem parseAudioHeaderQuick_encodeAudioPacket (channelID flags : UInt8) (seqNum : UInt32)
    (payload : Bytes) :
    parseAudioHeaderQuick (encodeAudioPacket channelID flags seqNum payload) =
      .ok ⟨channelID, flags, seqNum, payload⟩ := by
  simp only [encodeAudioPacket, List.cons_append, List.nil_append, parseAudioHeaderQuick, ne_eq,
    not_true_eq_false, or_self, if_false, bigEndianUint32_bytes]

/-- An accepted string is the header of its fields before its payload. -/
theorem encodeAudioPacket_of_parse {data : Bytes} {p : AudioPacket}
    (h : parseAudioHeaderQuick data = .ok p) :
    encodeAudioPacket p.channelID p.flags p.seqNum p.payload = data := by
  unfold parseAudioHeaderQuick at h
  split at h
  · rename_i m0 m1 channelID flags s0 s1 s2 s3 payload
    split_ifs at h with hmagic
    obtain ⟨rfl, rfl⟩ : m0 = audioMagic0 ∧ m1 = audioMagic1 := by
      rw [not_or, not_not, not_not] at hmagic
      exact hmagic
    obtain rfl := Except.ok.inj h
    obtain ⟨h0, h1, h2, h3⟩ := bytes_bigEndianUint32 s0 s1 s2 s3
    simp only [encodeAudioPacket, h0, h1, h2, h3, List.cons_append, List.nil_append]
  · cases h

/-- What is accepted is what an encoder could have written. -/
theorem parseAudioHeaderQuick_accepts (data : Bytes) :
    (∃ p, parseAudioHeaderQuick data = .ok p) ↔ WellFormed data := by
  constructor
  · rintro ⟨p, hp⟩
    rw [← encodeAudioPacket_of_parse hp]
    refine ⟨?_, rfl, rfl⟩
    simp [encodeAudioPacket, audioHeaderSize]
  · rintro ⟨hlength, h0, h1⟩
    match data, hlength with
    | m0 :: m1 :: channelID :: flags :: s0 :: s1 :: s2 :: s3 :: payload, _ =>
      obtain rfl : m0 = audioMagic0 := Option.some.inj h0
      obtain rfl : m1 = audioMagic1 := Option.some.inj h1
      refine ⟨⟨channelID, flags, bigEndianUint32 s0 s1 s2 s3, payload⟩, ?_⟩
      rw [parseAudioHeaderQuick, if_neg (by simp)]

/-- The wire format: the encoders agree, the parsers agree, and each way round is the
identity. -/
theorem audioPacket_format :
    (∀ (channelID flags : UInt8) (n : ℕ) (payload : Bytes),
      buildAudioPacket channelID.toNat flags.toNat n payload =
        encodeAudioPacket channelID flags (UInt32.ofNat (n % 2 ^ 32)) payload) ∧
    (∀ data : Bytes,
      ((∃ p, parseAudioHeaderQuick data = .ok p) ↔
        8 ≤ data.length ∧ data[0]? = some 0x52 ∧ data[1]? = some 0x41) ∧
      ((∃ p, parseAudioHeader data = .ok p) ↔
        8 ≤ data.length ∧ data[0]? = some 0x52 ∧ data[1]? = some 0x41) ∧
      parseAudioHeader data = (parseAudioHeaderQuick data).map fun p =>
        (⟨p.channelID, p.flags, p.seqNum⟩, p.payload)) ∧
    (∀ (channelID flags : UInt8) (seqNum : UInt32) (payload : Bytes),
      parseAudioHeaderQuick (encodeAudioPacket channelID flags seqNum payload) =
        .ok ⟨channelID, flags, seqNum, payload⟩ ∧
      parseAudioHeader (encodeAudioPacket channelID flags seqNum payload) =
        .ok (⟨channelID, flags, seqNum⟩, payload)) ∧
    ∀ data : Bytes,
      (∀ p, parseAudioHeaderQuick data = .ok p →
        encodeAudioPacket p.channelID p.flags p.seqNum p.payload = data) ∧
      ∀ hdr payload, parseAudioHeader data = .ok (hdr, payload) →
        encodeAudioPacket hdr.channelID hdr.flags hdr.seqNum payload = data := by
  refine ⟨buildAudioPacket_eq, fun data => ⟨parseAudioHeaderQuick_accepts data, ?_,
    parseAudioHeader_eq data⟩, fun channelID flags seqNum payload => ⟨?_, ?_⟩,
    fun data => ⟨fun p => encodeAudioPacket_of_parse, fun hdr payload h => ?_⟩⟩
  · -- the two parsers accept the same packets
    change _ ↔ WellFormed data
    rw [← parseAudioHeaderQuick_accepts, parseAudioHeader_eq]
    cases parseAudioHeaderQuick data with
    | error e =>
      constructor <;>
        · rintro ⟨_, h⟩
          cases h
    | ok p => exact ⟨fun _ => ⟨p, rfl⟩, fun _ => ⟨_, rfl⟩⟩
  · exact parseAudioHeaderQuick_encodeAudioPacket ..
  · rw [parseAudioHeader_eq, parseAudioHeaderQuick_encodeAudioPacket]
    rfl
  · rw [parseAudioHeader_eq] at h
    cases hquick : parseAudioHeaderQuick data with
    | error e =>
      rw [hquick] at h
      cases h
    | ok p =>
      rw [hquick] at h
      cases h
      exact encodeAudioPacket_of_parse hquick

end Parsers

end TwoWayRadio

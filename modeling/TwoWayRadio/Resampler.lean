import TwoWayRadio.PlaybackSchedule

/-! The microphone callback of the browser: from blocks at the rate of the audio context to samples
at 16 kHz. Amplitudes and read positions are exact rationals. -/
namespace TwoWayRadio

/-- The positions at which the loop `for (let i = 0; i < length; i += ratio)` reads, from `i` on. -/
def readPositions (length : ℕ) (ratio : {q : ℚ // 0 < q}) (i : ℚ) : List ℚ :=
  if i < length then i :: readPositions length ratio (i + ratio) else []
termination_by ⌈(length - i) / ratio⌉₊
decreasing_by
  rename_i hlt
  have hpos : 0 < (length - i) / ratio := div_pos (sub_pos.mpr hlt) ratio.2
  have hnext : ((length : ℚ) - (i + ratio)) / ratio = (length - i) / ratio - 1 := by
    rw [← sub_sub, sub_div, div_self ratio.2.ne']
  rw [hnext, Nat.ceil_sub_one]
  exact Nat.sub_lt (Nat.ceil_pos.mpr hpos) Nat.one_pos

def squelchThreshold : ℚ := 8 / 1000

/-- `rms < this.squelchThreshold`, without the root. -/
def squelched (input : List ℚ) : Bool :=
  (input.map fun v => v * v).sum / input.length < squelchThreshold ^ 2

/-- A float stored in an `Int16Array`: `ToInt16` of its integral part. -/
def toInt16 (v : ℚ) : Int16 := Int16.ofInt (if v < 0 then ⌈v⌉ else ⌊v⌋)

/-- The sample that is read at position `i`. -/
def convertSample (input : List ℚ) (i : ℚ) : Int16 :=
  let sample := input.getD ⌊i⌋₊ 0
  let sample := if squelched input then sample * (1 / 10) else sample
  let sample := max (-1) (min 1 sample)
  toInt16 (if sample < 0 then sample * 0x8000 else sample * 0x7FFF)

/-- `inputRate / this.targetSampleRate`. -/
def resampleRatio (inputRate : ℕ+) : {q : ℚ // 0 < q} :=
  ⟨inputRate / targetSampleRate, div_pos (Nat.cast_pos.mpr inputRate.pos) (by
    unfold targetSampleRate
    norm_num)⟩

/-- What the loop of `onaudioprocess` makes of a block: the samples that
`AudioEngine.onAudioProcess` is given. -/
def resample (inputRate : ℕ+) (input : List ℚ) : List Int16 :=
  (readPositions input.length (resampleRatio inputRate) 0).map (convertSample input)

def bufferSize : ℕ := 1024

/-- A block as the script processor hands it over. -/
def MicBlock := {input : List ℚ // input.length = bufferSize}

section Positions

variable {length : ℕ} {ratio : {q : ℚ // 0 < q}}

theorem length_readPositions (i : ℚ) :
    (readPositions length ratio i).length = ⌈(length - i) / ratio⌉₊ := by
  fun_induction readPositions length ratio i with
  | case1 i hlt ih =>
    have hpos : 0 < (length - i) / ratio := div_pos (sub_pos.mpr hlt) ratio.2
    have hnext : ((length : ℚ) - (i + ratio)) / ratio = (length - i) / ratio - 1 := by
      rw [← sub_sub, sub_div, div_self ratio.2.ne']
    rw [List.length_cons, ih, hnext, Nat.ceil_sub_one]
    exact Nat.sub_add_cancel (Nat.ceil_pos.mpr hpos)
  | case2 i hge =>
    have hdone : (length - i) / ratio ≤ 0 :=
      div_nonpos_of_nonpos_of_nonneg (sub_nonpos.mpr (not_lt.mp hge)) ratio.2.le
    rw [List.length_nil, Nat.ceil_eq_zero.mpr hdone]

/-- The loop reads inside its block only. -/
theorem mem_readPositions {i p : ℚ} (hi : 0 ≤ i) (hp : p ∈ readPositions length ratio i) :
    0 ≤ p ∧ p < length := by
  fun_induction readPositions length ratio i with
  | case1 i hlt ih =>
    rcases List.mem_cons.mp hp with rfl | hp
    · exact ⟨hi, hlt⟩
    · exact ih (add_nonneg hi ratio.2.le) hp
  | case2 i hge => exact (List.not_mem_nil hp).elim

end Positions

/-- Rounding up to a multiple, in terms of the remainder. -/
theorem ceil_div_mul (a : ℕ) {r : ℕ} (hr : 0 < r) :
    ⌈(a : ℚ) / r⌉₊ * r = a + (r - a % r) % r := by
  have hr' : (0 : ℚ) < r := Nat.cast_pos.mpr hr
  have hup : a ≤ ⌈(a : ℚ) / r⌉₊ * r := by
    have hle := (div_le_iff₀ hr').mp (Nat.le_ceil ((a : ℚ) / r))
    exact_mod_cast hle
  have hnear : ⌈(a : ℚ) / r⌉₊ * r < a + r := by
    have hlt := Nat.ceil_lt_add_one (div_nonneg (Nat.cast_nonneg a) hr'.le : 0 ≤ (a : ℚ) / r)
    have hmul : (⌈(a : ℚ) / r⌉₊ : ℚ) * r < ((a : ℚ) / r + 1) * r :=
      mul_lt_mul_of_pos_right hlt hr'
    rw [add_mul, div_mul_cancel₀ _ hr'.ne', one_mul] at hmul
    exact_mod_cast hmul
  obtain ⟨rest, hrest⟩ := Nat.exists_eq_add_of_le hup
  rw [hrest] at hnear ⊢
  have hlt := Nat.mod_lt a hr
  -- what is missing and the remainder make up nothing or one whole
  obtain ⟨c, hc⟩ : r ∣ a % r + rest := by
    rw [Nat.dvd_iff_mod_eq_zero, Nat.mod_add_mod, ← hrest]
    exact Nat.mul_mod_left _ r
  have hless : r * c < r * 2 := by omega
  have htwo : c < 2 := Nat.lt_of_mul_lt_mul_left hless
  congr 1
  obtain rfl | rfl : c = 0 ∨ c = 1 := by omega
  · rw [show a % r = 0 by omega, Nat.sub_zero, Nat.mod_self]
    omega
  · rw [Nat.mod_eq_of_lt (by omega)]
    omega

/-- The input samples of a block, as often as 16 kHz samples go into a second. -/
def blockUnits : ℕ := bufferSize * 16000

theorem blockUnits_eq : (blockUnits : ℚ) = bufferSize * targetSampleRate := by
  unfold blockUnits targetSampleRate
  push_cast
  rfl

theorem length_resample (inputRate : ℕ+) (b : MicBlock) :
    (resample inputRate b.1).length = ⌈(blockUnits : ℚ) / inputRate⌉₊ := by
  have hratio : ((b.1.length : ℚ) - 0) / (resampleRatio inputRate : ℚ) =
      (blockUnits : ℚ) / inputRate := by
    rw [b.2, sub_zero, resampleRatio, div_div_eq_mul_div, blockUnits_eq]
  rw [resample, List.length_map, length_readPositions, hratio]

theorem length_flatMap_resample (inputRate : ℕ+) (blocks : List MicBlock) :
    (blocks.flatMap fun b => resample inputRate b.1).length =
      blocks.length * ⌈(blockUnits : ℚ) / inputRate⌉₊ := by
  induction blocks with
  | nil => exact (Nat.zero_mul _).symm
  | cons b rest ih =>
    rw [List.flatMap_cons, List.length_append, ih, length_resample, List.length_cons,
      Nat.succ_mul, Nat.add_comm]

/-- Each callback rounds its number of samples up, for it starts at position 0 again. The reads stay
inside the block, but the samples keep to 16 kHz exactly as long as the parts rounded up stay below
one sample together. -/
theorem resampler_drift_iff (inputRate : ℕ+) (blocks : List MicBlock) :
    (|((blocks.flatMap fun b => resample inputRate b.1).length : ℚ) -
        blocks.length * 1024 * 16000 / inputRate| < 1 ∧
      ∀ b ∈ blocks, ∀ i ∈ readPositions b.1.length (resampleRatio inputRate) 0,
        ⌊i⌋₊ < b.1.length) ↔
      blocks.length * ((inputRate - 16384000 % inputRate) % inputRate) < (inputRate : ℕ) := by
  have hrate : (0 : ℚ) < (inputRate : ℕ) := Nat.cast_pos.mpr inputRate.pos
  have hreads : ∀ b ∈ blocks, ∀ i ∈ readPositions b.1.length (resampleRatio inputRate) 0,
      ⌊i⌋₊ < b.1.length := by
    intro b _ i hi
    obtain ⟨hnonneg, hlt⟩ := mem_readPositions le_rfl hi
    exact (Nat.floor_lt hnonneg).mpr hlt
  rw [and_iff_left hreads, length_flatMap_resample]
  have hround := ceil_div_mul blockUnits inputRate.pos
  have hsamples : ((blocks.length * ⌈(blockUnits : ℚ) / (inputRate : ℕ)⌉₊ : ℕ) : ℚ) -
      blocks.length * 1024 * 16000 / (inputRate : ℕ) =
        (blocks.length * ((inputRate - 16384000 % inputRate) % inputRate) : ℕ) /
          (inputRate : ℕ) := by
    have hunits : (blocks.length : ℚ) * 1024 * 16000 = blocks.length * (blockUnits : ℕ) := by
      rw [mul_assoc, blockUnits_eq]
      unfold bufferSize targetSampleRate
      push_cast
      rfl
    rw [eq_div_iff hrate.ne', sub_mul, div_mul_cancel₀ _ hrate.ne', hunits, sub_eq_iff_eq_add]
    rw [← Nat.cast_mul, ← Nat.cast_mul, ← Nat.cast_add, Nat.mul_assoc, hround, Nat.add_comm,
      Nat.mul_add]
    rfl
  rw [hsamples, abs_of_nonneg (div_nonneg (Nat.cast_nonneg _) hrate.le), div_lt_one hrate]
  exact Nat.cast_lt

def silentBlock : MicBlock := ⟨List.replicate bufferSize 0, List.length_replicate⟩

/-- Two callbacks at 48 kHz make 684 samples of what lasts 682 and two thirds. -/
theorem resampler_drift_fails :
    ([silentBlock, silentBlock].flatMap fun b => resample 48000 b.1).length = 684 ∧
      ¬ |((([silentBlock, silentBlock].flatMap fun b => resample 48000 b.1).length : ℕ) : ℚ) -
        2 * 1024 * 16000 / (48000 : ℕ+)| < 1 := by
  have hblock : ⌈(blockUnits : ℚ) / ((48000 : ℕ+) : ℕ)⌉₊ = 342 := by
    rw [Nat.ceil_eq_iff (by decide), blockUnits_eq]
    unfold bufferSize targetSampleRate
    norm_num
  have hlength : ([silentBlock, silentBlock].flatMap fun b => resample 48000 b.1).length = 684 := by
    rw [length_flatMap_resample, hblock]
    rfl
  refine ⟨hlength, ?_⟩
  rw [hlength]
  norm_num [abs_lt]

end TwoWayRadio

import TwoWayRadio.CappedLog
import TwoWayRadio.RecordingAttribution
import TwoWayRadio.WavFormat

/-! Where the payloads of a transmission lie in its buffer, beside a running server: whether the
samples of a recording stay in step with its block align. -/
namespace TwoWayRadio
open Interleaving Transition

/-- A payload that was passed to `AppendAudio`, and where in the buffer it was written. -/
structure PassedPayload where
  payload : Bytes
  offset : Option ℕ
deriving DecidableEq

/-- The payloads of a transmission and the file that it was saved in. -/
structure Track where
  passed : List PassedPayload
  -- it was ended by `OnTransmissionEnd` while the disk took files
  storable : Bool
  wav : Option Bytes
deriving DecidableEq

/-- The transmissions under way and those that are over. -/
structure SampleLog where
  current : ChannelID → Option (List PassedPayload)
  ended : List Track

/-- Where the payload lies in the buffer after the call, if it is there. -/
def appendedAt (c : ChannelID) (payload : Bytes) (h : Hub) : Option ℕ :=
  (h.activeTX c).bind fun tx =>
    if ((HubOp.appendAudio c payload).run h).2.activeTX c =
        some { tx with buffer := tx.buffer ++ payload } then some tx.buffer.length
    else none

namespace SampleLog

def init : SampleLog where
  current := fun _ => none
  ended := []

def sees (op : HubOp) (r : op.Res) (h : Hub) (g : SampleLog) : SampleLog :=
  if h.recording then
    match op, r with
    | .onTransmissionStart c _, _ =>
      { current := Function.update g.current c (some []),
        ended := g.ended ++ (g.current c).toList.map fun l => ⟨l, false, none⟩ }
    | .appendAudio c payload, _ =>
      { g with current := Function.update g.current c
                ((g.current c).map fun l => l ++ [⟨payload, appendedAt c payload h⟩]) }
    | .onTransmissionEnd c, saved =>
      let wav := (h.activeTX c).map fun tx => encodeWAV 16000 1 16 tx.buffer
      { current := Function.update g.current c none,
        ended := g.ended ++ (g.current c).toList.map fun l =>
          ⟨l, h.diskWritable, saved.bind fun _ => wav⟩ }
    | _, _ => g
  else g

/-- The transmission is under way or over. -/
def Has (g : SampleLog) (t : Track) : Prop :=
  (∃ c l, g.current c = some l ∧ t = ⟨l, false, none⟩) ∨ t ∈ g.ended

end SampleLog

def sampleObserver : Observer SampleLog where
  starts := fun _ g => g
  sees := fun _ op r h g => g.sees op r h

/-- Payloads start between samples, and the file has whole samples. -/
def Track.Aligned (t : Track) : Prop :=
  (∀ p ∈ t.passed, ∀ n, p.offset = some n → 2 ∣ n) ∧ ∀ w, t.wav = some w →
    ∃ wave, Riff.readWave w = some wave ∧ wave.blockAlign = 2 ∧ wave.blockAlign ∣ wave.data.length

/-- The lengths of the payloads that the buffer has room for when they come. -/
def bufferedSizes (l : List PassedPayload) : List ℕ :=
  CappedLog.admitted maxBufferBytes (l.map fun p => p.payload.length)

/-- Every payload that there is room for has an even length, but for the last one of a
transmission that is not saved. -/
def Track.EvenPayloads (t : Track) : Prop :=
  (∀ n ∈ (bufferedSizes t.passed).dropLast, 2 ∣ n) ∧
    (t.storable = true → minRecordingBytes ≤ (bufferedSizes t.passed).sum →
      ∀ n ∈ bufferedSizes t.passed, 2 ∣ n)

/-- The payloads lie one behind the other and take up `n` bytes; those that there was no room for
are nowhere. -/
inductive Laid : List PassedPayload → ℕ → Prop
  | nil : Laid [] 0
  | kept {l : List PassedPayload} {n : ℕ} (h : Laid l n) {payload : Bytes}
      (hroom : n + payload.length ≤ maxBufferBytes) :
      Laid (l ++ [⟨payload, some n⟩]) (n + payload.length)
  | dropped {l : List PassedPayload} {n : ℕ} (h : Laid l n) {payload : Bytes}
      (hlong : maxBufferBytes < n + payload.length) : Laid (l ++ [⟨payload, none⟩]) n

theorem bufferedSizes_concat (l : List PassedPayload) (p : PassedPayload) :
    bufferedSizes (l ++ [p]) =
      if maxBufferBytes < (bufferedSizes l).sum + p.payload.length then bufferedSizes l
      else bufferedSizes l ++ [p.payload.length] := by
  rw [bufferedSizes, List.map_append, List.map_singleton]
  exact CappedLog.admitted_concat

namespace Laid

variable {l : List PassedPayload} {n : ℕ} {payload : Bytes} {offset : Option ℕ}

theorem sum_bufferedSizes (h : Laid l n) : (bufferedSizes l).sum = n := by
  induction h with
  | nil => rfl
  | kept _ hroom ih =>
    rw [bufferedSizes_concat, ih, if_neg (Nat.not_lt.mpr hroom), List.sum_append,
      List.sum_singleton, ih]
  | dropped _ hlong ih => rw [bufferedSizes_concat, ih, if_pos hlong, ih]

theorem bufferedSizes_kept (h : Laid l n) (hroom : n + payload.length ≤ maxBufferBytes) :
    bufferedSizes (l ++ [⟨payload, offset⟩]) = bufferedSizes l ++ [payload.length] := by
  rw [bufferedSizes_concat, h.sum_bufferedSizes, if_neg (Nat.not_lt.mpr hroom)]

theorem bufferedSizes_dropped (h : Laid l n) (hlong : maxBufferBytes < n + payload.length) :
    bufferedSizes (l ++ [⟨payload, offset⟩]) = bufferedSizes l := by
  rw [bufferedSizes_concat, h.sum_bufferedSizes, if_pos hlong]

theorem le_maxBufferBytes (h : Laid l n) : n ≤ maxBufferBytes := by
  induction h with
  | nil => exact Nat.zero_le _
  | kept _ hroom => exact hroom
  | dropped _ _ ih => exact ih

theorem all_even_iff (h : Laid l n) :
    (∀ p ∈ l, ∀ k, p.offset = some k → 2 ∣ k) ∧ 2 ∣ n ↔ ∀ m ∈ bufferedSizes l, 2 ∣ m := by
  induction h with
  | nil => simp [bufferedSizes, CappedLog.admitted]
  | @kept l n h payload hroom ih =>
    rw [h.bufferedSizes_kept hroom]
    simp only [List.forall_mem_append, List.forall_mem_singleton]
    rw [← ih]
    constructor
    · rintro ⟨⟨hl, hn⟩, hsum⟩
      exact ⟨⟨hl, hn n rfl⟩, (Nat.dvd_add_right (hn n rfl)).mp hsum⟩
    · rintro ⟨⟨hl, hn⟩, hp⟩
      exact ⟨⟨hl, fun k hk => Option.some.inj hk ▸ hn⟩, dvd_add hn hp⟩
  | @dropped l n h payload hlong ih =>
    rw [h.bufferedSizes_dropped hlong, ← ih]
    simp only [List.forall_mem_append, List.forall_mem_singleton]
    constructor
    · rintro ⟨⟨hl, _⟩, hn⟩
      exact ⟨hl, hn⟩
    · rintro ⟨hl, hn⟩
      exact ⟨⟨hl, fun k hk => by cases hk⟩, hn⟩

/-- The last payload shifts nothing. -/
theorem offsets_even_iff (h : Laid l n) :
    (∀ p ∈ l, ∀ k, p.offset = some k → 2 ∣ k) ↔ ∀ m ∈ (bufferedSizes l).dropLast, 2 ∣ m := by
  induction h with
  | nil => simp [bufferedSizes, CappedLog.admitted]
  | @kept l n h payload hroom _ =>
    rw [h.bufferedSizes_kept hroom, List.dropLast_concat, ← h.all_even_iff,
      List.forall_mem_append, List.forall_mem_singleton]
    simp only [Option.some_inj, forall_eq']
  | @dropped l n h payload hlong ih =>
    rw [h.bufferedSizes_dropped hlong, ← ih, List.forall_mem_append, List.forall_mem_singleton]
    exact ⟨fun hall => hall.1, fun hl => ⟨hl, fun k hk => by cases hk⟩⟩

end Laid

/-- What the log knows of a transmission. -/
def Track.Faithful (t : Track) : Prop :=
  ∃ pcm : Bytes, Laid t.passed pcm.length ∧
    t.wav = if t.storable = true ∧ minRecordingBytes ≤ pcm.length then
      some (encodeWAV 16000 1 16 pcm) else none

theorem Track.Faithful.aligned_iff {t : Track} (ht : t.Faithful) : t.Aligned ↔ t.EvenPayloads := by
  obtain ⟨pcm, hlaid, hwav⟩ := ht
  have hsmall : 36 + pcm.length < 2 ^ 32 := by
    have hle := hlaid.le_maxBufferBytes
    unfold maxBufferBytes at hle
    omega
  have hread := readWave_encodeWAV 16000 1 16 hsmall
  unfold Aligned EvenPayloads
  rw [hlaid.sum_bufferedSizes, ← hlaid.all_even_iff, ← hlaid.offsets_even_iff, hwav]
  by_cases hsaved : t.storable = true ∧ minRecordingBytes ≤ pcm.length
  · rw [if_pos hsaved]
    constructor
    · rintro ⟨hoff, hfile⟩
      obtain ⟨wave, hwave, halign, hdvd⟩ := hfile _ rfl
      rw [halign] at hdvd
      obtain rfl := Option.some.inj (hread.symm.trans hwave)
      exact ⟨hoff, fun _ _ => ⟨hoff, hdvd⟩⟩
    · rintro ⟨hoff, hall⟩
      refine ⟨hoff, fun w hw => ?_⟩
      obtain rfl := Option.some.inj hw
      exact ⟨_, hread, rfl, (hall hsaved.1 hsaved.2).2⟩
  · rw [if_neg hsaved]
    constructor
    · rintro ⟨hoff, _⟩
      exact ⟨hoff, fun hstorable hlong => absurd ⟨hstorable, hlong⟩ hsaved⟩
    · rintro ⟨hoff, _⟩
      exact ⟨hoff, fun w hw => by cases hw⟩

/-- The payloads are those of the buffer. -/
def Traces (l : Option (List PassedPayload)) (tx : Option TransmissionBuffer) : Prop :=
  (tx = none ∧ l = none) ∨ ∃ tx' l', tx = some tx' ∧ l = some l' ∧ Laid l' tx'.buffer.length

/-- The log keeps up with the recorder. -/
structure SampleLog.Kept (h : Hub) (g : SampleLog) : Prop where
  current : ∀ c, Traces (g.current c) (h.activeTX c)
  ended : ∀ t ∈ g.ended, t.Faithful

namespace SampleLog.Kept

variable {h h' : Hub} {g : SampleLog} {c : ChannelID}

/-- Something happens to the transmission of one channel. -/
theorem update (hk : g.Kept h) {l : Option (List PassedPayload)} {ended : List Track}
    (helse : ∀ c', c' ≠ c → h'.activeTX c' = h.activeTX c') (hl : Traces l (h'.activeTX c))
    (hended : ∀ t ∈ ended, t.Faithful) :
    SampleLog.Kept h' ⟨Function.update g.current c l, ended⟩ where
  current := by
    refine (Function.forall_update_iff g.current fun c' l => Traces l (h'.activeTX c')).mpr
      ⟨hl, fun c' hc => ?_⟩
    rw [helse c' hc]
    exact hk.current c'
  ended := hended

/-- The buffers are as they were. -/
theorem unchanged (hk : g.Kept h) (hact : ∀ c, h'.activeTX c = h.activeTX c) : g.Kept h' where
  current := by
    intro c
    rw [hact]
    exact hk.current c
  ended := hk.ended

/-- A transmission that ends, saved or not. -/
theorem ended_append (hk : g.Kept h) {storable : Bool} {wav : Option Bytes}
    (hwav : ∀ tx, h.activeTX c = some tx →
      wav = if storable = true ∧ minRecordingBytes ≤ tx.buffer.length then
        some (encodeWAV 16000 1 16 tx.buffer) else none) :
    ∀ t ∈ g.ended ++ (g.current c).toList.map fun l => ⟨l, storable, wav⟩, t.Faithful := by
  intro t ht
  rcases List.mem_append.mp ht with ht | ht
  · exact hk.ended t ht
  · obtain ⟨l, hl, rfl⟩ := List.mem_map.mp ht
    rw [Option.mem_toList] at hl
    rcases hk.current c with ⟨_, hnone⟩ | ⟨tx, l', htx, hl', hlaid⟩
    · rw [hl] at hnone
      cases hnone
    · obtain rfl := Option.some.inj (hl.symm.trans hl')
      exact ⟨tx.buffer, hlaid, hwav tx htx⟩

theorem start (hk : g.Kept h) (x : ClientRef) :
    (g.sees (.onTransmissionStart c x) () h).Kept ((HubOp.onTransmissionStart c x).run h).2 := by
  have hact := HubOp.onTransmissionStart_run (h := h) c x
  by_cases hrec : h.recording = true
  · simp only [sees, if_pos hrec]
    refine hk.update (fun c' hc => ?_) ?_ (hk.ended_append fun tx _ => ?_)
    · rw [hact, if_neg fun hand => hc hand.1]
    · rw [hact, if_pos ⟨rfl, hrec⟩]
      exact Or.inr ⟨_, [], rfl, rfl, .nil⟩
    · exact (if_neg fun hand => Bool.false_ne_true hand.1).symm
  · simp only [sees, if_neg hrec]
    exact hk.unchanged fun c' => by rw [hact, if_neg fun hand => hrec hand.2]

theorem append (hk : g.Kept h) (payload : Bytes) :
    (g.sees (.appendAudio c payload) () h).Kept ((HubOp.appendAudio c payload).run h).2 := by
  have hact := HubOp.appendAudio_run (h := h) c payload
  by_cases hrec : h.recording = true
  · simp only [sees, if_pos hrec]
    refine hk.update (fun c' hc => ?_) ?_ hk.ended
    · rw [hact, if_neg fun hand => hc hand.1]
    · have hafter := (hact c).trans (if_pos ⟨rfl, hrec⟩)
      rcases hk.current c with ⟨hnone, hl⟩ | ⟨tx, l, htx, hl, hlaid⟩
      · rw [hafter, hnone, hl]
        exact Or.inl ⟨rfl, rfl⟩
      · rw [htx, Option.map_some] at hafter
        rw [appendedAt, htx, Option.bind_some, hafter, hl, Option.map_some]
        by_cases hlong : maxBufferBytes < tx.buffer.length + payload.length
        · -- what is dropped is not empty, so the buffer without it is not the one with it
          have hnot : tx ≠ { tx with buffer := tx.buffer ++ payload } := by
            intro heq
            have hle := hlaid.le_maxBufferBytes
            have hsame := congrArg (fun tx => tx.buffer.length) heq
            simp only [List.length_append] at hsame
            omega
          rw [if_pos hlong, if_neg fun heq => hnot (Option.some.inj heq)]
          exact Or.inr ⟨_, _, rfl, rfl, hlaid.dropped hlong⟩
        · rw [if_neg hlong, if_pos rfl]
          refine Or.inr ⟨_, _, rfl, rfl, ?_⟩
          rw [List.length_append]
          exact hlaid.kept (Nat.not_lt.mp hlong)
  · simp only [sees, if_neg hrec]
    exact hk.unchanged fun c' => by rw [hact, if_neg fun hand => hrec hand.2]

theorem finish (hk : g.Kept h) :
    (g.sees (.onTransmissionEnd c) ((HubOp.onTransmissionEnd c).run h).1 h).Kept
      ((HubOp.onTransmissionEnd c).run h).2 := by
  have hact := HubOp.onTransmissionEnd_run (h := h) c
  by_cases hrec : h.recording = true
  · simp only [sees, if_pos hrec]
    refine hk.update (fun c' hc => ?_) ?_ (hk.ended_append fun tx htx => ?_)
    · rw [hact, if_neg fun hand => hc hand.1]
    · rw [hact, if_pos ⟨rfl, hrec⟩]
      exact Or.inl ⟨rfl, rfl⟩
    · -- it is saved exactly when it is long enough and the file can be written
      rw [HubOp.onTransmissionEnd_saved, if_pos hrec, htx, Option.bind_some, Option.map_some]
      by_cases hlong : minRecordingBytes ≤ tx.buffer.length
      · rw [if_neg (Nat.not_lt.mpr hlong)]
        by_cases hdisk : h.diskWritable = true
        · rw [if_pos hdisk, if_pos ⟨hdisk, hlong⟩]
          rfl
        · rw [if_neg hdisk, if_neg fun hand => hdisk hand.1]
          rfl
      · rw [if_pos (Nat.not_le.mp hlong), if_neg fun hand => hlong hand.2]
        rfl
  · simp only [sees, if_neg hrec]
    exact hk.unchanged fun c' => by rw [hact, if_neg fun hand => hrec hand.2]

/-- One call of a handler. -/
theorem call (hk : g.Kept h) (op : HubOp) : (g.sees op (op.run h).1 h).Kept (op.run h).2 := by
  cases op with
  | onTransmissionStart c x => exact hk.start x
  | appendAudio c payload => exact hk.append payload
  | onTransmissionEnd c => exact hk.finish
  | _ =>
    simp only [sees, ite_self]
    exact hk.unchanged fun c => HubOp.activeTX_run_of_not_records rfl c

/-- One step of the server. -/
theorem step {s t : Server SampleLog} {e : ServerEvent} (hk : s.history.Kept s.hub)
    (h : serverStep sampleObserver s e = some t) : t.history.Kept t.hub := by
  cases e with
  | serve r =>
    obtain ⟨hhub, hhist⟩ := serverStep_starts h
    rw [hhub, hhist]
    exact hk
  | advance i =>
    obtain ⟨op, k, _, _, hhub, hhist, _⟩ := serverStep_advance h
    rw [hhub, hhist]
    exact hk.call op
  | timerFires ch timer =>
    obtain ⟨hf, _, hhist, _⟩ := serverStep_timerFires h
    obtain ⟨_, _, _, _, heq⟩ := Hub.fireTimer_eq hf
    rw [hhist]
    exact hk.unchanged fun c => by rw [heq, Hub.activeTX, Hub.activeTX]
  | tick d =>
    obtain ⟨hhub, _, hhist, _⟩ := serverStep_tick h
    rw [hhist, hhub]
    exact hk.unchanged fun _ => rfl

theorem faithful (hk : g.Kept h) {t : Track} (ht : g.Has t) : t.Faithful := by
  rcases ht with ⟨c, l, hl, rfl⟩ | ht
  · rcases hk.current c with ⟨_, hnone⟩ | ⟨tx, l', _, hl', hlaid⟩
    · rw [hl] at hnone
      cases hnone
    · obtain rfl := Option.some.inj (hl.symm.trans hl')
      exact ⟨tx.buffer, hlaid, (if_neg fun hand => Bool.false_ne_true hand.1).symm⟩
  · exact hk.ended t ht

end SampleLog.Kept

/-- Of a recorder that has just been made. -/
def samplingServer (cfg : Config) (storageDir : String) (maxHistory : ℕ) (enabled : Bool)
    (disk : Disk) (roipRelay : Bool) (heap : Clients) (now : ℤ) : Server SampleLog :=
  Server.init
    (newHub cfg (some (newAudioRecorder storageDir maxHistory enabled disk)) roipRelay heap now)
    SampleLog.init

def samplingDefault : Server SampleLog :=
  samplingServer defaultConfig "recordings" 100 true {} false sampleClients 0

/-- Unit 0 sends a payload of one byte and then one of two. -/
def oddTalk : List ServerEvent :=
  uninterrupted (.connect 0 0) 10 ++ uninterrupted (.signal 0 .pttDown {}) 8 ++
    uninterrupted (.audio 0 (encodeAudioPacket 1 flagAudioFirst 0 [1])) 7 ++
    uninterrupted (.audio 0 (encodeAudioPacket 1 0 1 [2, 3])) 7

end TwoWayRadio

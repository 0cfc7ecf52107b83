import TwoWayRadio.HubChannels

/-! What the calls of the hub do to the recorder's buffers. -/
namespace TwoWayRadio

namespace AudioRecorder

theorem removeFiles_writable (storageDir : String) (evicted : List VoiceRecording) (disk : Disk) :
    (removeFiles storageDir evicted disk).writable = disk.writable := by
  unfold removeFiles
  induction evicted generalizing disk with
  | nil => rfl
  | cons e evicted ih => exact ih _

/-- `OnTransmissionEnd` on a recorder that has a buffer for the channel. -/
theorem onTransmissionEnd_eq {c : ChannelID} (now : ℤ) {r : AudioRecorder}
    {tx : TransmissionBuffer} (he : r.enabled = true) (htx : r.activeTX c = some tx) :
    (r.onTransmissionEnd c now).1 =
        (if tx.buffer.length < minRecordingBytes then none
          else if r.disk.writable then some (recordingOf tx c now) else none) ∧
      (r.onTransmissionEnd c now).2.activeTX = Function.update r.activeTX c none ∧
      (r.onTransmissionEnd c now).2.enabled = r.enabled ∧
      (r.onTransmissionEnd c now).2.disk.writable = r.disk.writable := by
  unfold onTransmissionEnd
  rw [he, htx]
  by_cases hlen : tx.buffer.length < minRecordingBytes
  · simp [hlen]
  · by_cases hw : r.disk.writable = true
    · simp [hlen, hw, removeFiles_writable]
    · simp [hlen, hw]

theorem onTransmissionEnd_of_none {c : ChannelID} {now : ℤ} {r : AudioRecorder}
    (h : r.enabled = false ∨ r.activeTX c = none) : r.onTransmissionEnd c now = (none, r) := by
  unfold onTransmissionEnd
  cases he : r.enabled with
  | false => rfl
  | true =>
    rcases h with h | h
    · rw [he] at h
      cases h
    · rw [h]
      rfl

end AudioRecorder

namespace Hub

/-- The buffer of the transmission being recorded on a channel. -/
def activeTX (c : ChannelID) (h : Hub) : Option TransmissionBuffer :=
  h.recorder.bind fun r => r.activeTX c

def recording (h : Hub) : Bool := h.recorder.any fun r => r.enabled

def diskWritable (h : Hub) : Bool := h.recorder.any fun r => r.disk.writable

theorem onRecorder_recorder {α : Type} (absent : α) (f : AudioRecorder → α × AudioRecorder)
    (h : Hub) : (h.onRecorder absent f).2.recorder = h.recorder.map fun r => (f r).2 := by
  unfold onRecorder
  split
  · rename_i hr
    rw [hr]
    rfl
  · rename_i r hr
    rw [hr]
    rfl

theorem activeTX_onRecorder {α : Type} (c : ChannelID) (absent : α)
    (f : AudioRecorder → α × AudioRecorder) (h : Hub) :
    (h.onRecorder absent f).2.activeTX c = h.recorder.bind fun r => (f r).2.activeTX c := by
  rw [activeTX, onRecorder_recorder, Option.bind_map]
  rfl

theorem onRecorder_fst {α : Type} (absent : α) (f : AudioRecorder → α × AudioRecorder) (h : Hub) :
    (h.onRecorder absent f).1 = (h.recorder.map fun r => (f r).1).getD absent := by
  unfold onRecorder
  split
  · rename_i hr
    rw [hr]
    rfl
  · rename_i r hr
    rw [hr]
    rfl

end Hub

namespace HubOp

def records : HubOp → Bool
  | onTransmissionStart .. | appendAudio .. | onTransmissionEnd _ => true
  | _ => false

variable {h : Hub} {c : ChannelID}

theorem recorder_run_of_not_records {op : HubOp} (hop : op.records = false) :
    (op.run h).2.recorder = h.recorder := by
  cases op with
  | register client first =>
    show (h.register client first).2.recorder = h.recorder
    rw [Hub.register_eq]
  | endVideo client =>
    simp only [run]
    split_ifs <;> rfl
  | addSubscriber ch client => exact Hub.onChannel_recorder ..
  | removeSubscriber ch client => exact Hub.onChannel_recorder ..
  | requestFloor ch client => exact Hub.onChannel_recorder ..
  | releaseFloor ch client => exact Hub.onChannel_recorder ..
  | handleTOT ch timer => exact Hub.onChannel_recorder ..
  | onTransmissionStart ch speaker => cases hop
  | appendAudio ch payload => cases hop
  | onTransmissionEnd ch => cases hop
  | _ => rfl

/-- The calls of the recorder leave its switch and its disk's state alone. -/
theorem switches_run (op : HubOp) :
    (op.run h).2.recording = h.recording ∧ (op.run h).2.diskWritable = h.diskWritable := by
  -- it is enough to look at what a section of the recorder does to these two
  have hon : ∀ {α : Type} {absent : α} {f : AudioRecorder → α × AudioRecorder},
      (∀ r, (f r).2.enabled = r.enabled ∧ (f r).2.disk.writable = r.disk.writable) →
      (h.onRecorder absent f).2.recording = h.recording ∧
        (h.onRecorder absent f).2.diskWritable = h.diskWritable := by
    intro α absent f hf
    unfold Hub.recording Hub.diskWritable
    rw [Hub.onRecorder_recorder]
    cases h.recorder with
    | none => exact ⟨rfl, rfl⟩
    | some r => exact ⟨(hf r).1, (hf r).2⟩
  by_cases hop : op.records = false
  · unfold Hub.recording Hub.diskWritable
    rw [recorder_run_of_not_records hop]
    exact ⟨rfl, rfl⟩
  · cases op with
    | onTransmissionStart ch speaker =>
      refine hon fun r => ?_
      unfold AudioRecorder.onTransmissionStart
      split_ifs <;> exact ⟨rfl, rfl⟩
    | appendAudio ch payload =>
      refine hon fun r => ?_
      unfold AudioRecorder.appendAudio
      split_ifs
      · exact ⟨rfl, rfl⟩
      · split
        · exact ⟨rfl, rfl⟩
        · split_ifs <;> exact ⟨rfl, rfl⟩
    | onTransmissionEnd ch =>
      refine hon fun r => ?_
      cases he : r.enabled with
      | false =>
        rw [AudioRecorder.onTransmissionEnd_of_none (Or.inl he)]
        exact ⟨he, rfl⟩
      | true =>
        cases htx : r.activeTX ch with
        | none =>
          rw [AudioRecorder.onTransmissionEnd_of_none (Or.inr htx)]
          exact ⟨he, rfl⟩
        | some tx =>
          obtain ⟨_, _, h1, h2⟩ := AudioRecorder.onTransmissionEnd_eq h.now he htx
          exact ⟨h1.trans he, h2⟩
    | _ => exact absurd rfl hop

theorem activeTX_run_of_not_records {op : HubOp} (hop : op.records = false) (c : ChannelID) :
    (op.run h).2.activeTX c = h.activeTX c := by
  rw [Hub.activeTX, recorder_run_of_not_records hop, Hub.activeTX]

/-- A new transmission starts with an empty buffer under the speaker's name. -/
theorem onTransmissionStart_run (c : ChannelID) (x : ClientRef) (c' : ChannelID) :
    ((onTransmissionStart c x).run h).2.activeTX c' =
      if c' = c ∧ h.recording = true then
        some { channelID := c, speakerID := (h.heap x).id, callsign := (h.heap x).callsign,
               role := (h.heap x).role, startTime := h.now }
      else h.activeTX c' := by
  simp only [run]
  rw [Hub.activeTX_onRecorder]
  unfold Hub.activeTX Hub.recording
  cases h.recorder with
  | none => simp
  | some r =>
    cases he : r.enabled with
    | false => simp [AudioRecorder.onTransmissionStart, he]
    | true =>
      by_cases heq : c' = c
      · simp [AudioRecorder.onTransmissionStart, he, heq]
      · simp [AudioRecorder.onTransmissionStart, he, heq]

/-- A payload is added to the buffer of its channel as long as it fits. -/
theorem appendAudio_run (c : ChannelID) (payload : Bytes) (c' : ChannelID) :
    ((appendAudio c payload).run h).2.activeTX c' =
      if c' = c ∧ h.recording = true then
        (h.activeTX c).map fun tx =>
          if maxBufferBytes < tx.buffer.length + payload.length then tx
          else { tx with buffer := tx.buffer ++ payload }
      else h.activeTX c' := by
  simp only [run]
  rw [Hub.activeTX_onRecorder]
  unfold Hub.activeTX Hub.recording
  cases h.recorder with
  | none => simp
  | some r =>
    cases he : r.enabled with
    | false => simp [AudioRecorder.appendAudio, he]
    | true =>
      cases htx : r.activeTX c with
      | none =>
        by_cases heq : c' = c <;> simp [AudioRecorder.appendAudio, he, htx, heq]
      | some tx =>
        by_cases heq : c' = c
        · by_cases hlen : maxBufferBytes < tx.buffer.length + payload.length <;>
            simp [AudioRecorder.appendAudio, he, htx, heq, hlen]
        · by_cases hlen : maxBufferBytes < tx.buffer.length + payload.length <;>
            simp [AudioRecorder.appendAudio, he, htx, heq, hlen]

/-- The end of a transmission empties its buffer. -/
theorem onTransmissionEnd_run (c c' : ChannelID) :
    ((onTransmissionEnd c).run h).2.activeTX c' =
      if c' = c ∧ h.recording = true then none else h.activeTX c' := by
  simp only [run]
  rw [Hub.activeTX_onRecorder]
  unfold Hub.activeTX Hub.recording
  cases h.recorder with
  | none => simp
  | some r =>
    cases he : r.enabled with
    | false => simp [AudioRecorder.onTransmissionEnd_of_none (Or.inl he), he]
    | true =>
      cases htx : r.activeTX c with
      | none =>
        by_cases heq : c' = c <;>
          simp [AudioRecorder.onTransmissionEnd_of_none (Or.inr htx), he, htx, heq]
      | some tx =>
        obtain ⟨_, hact, _, _⟩ := AudioRecorder.onTransmissionEnd_eq h.now he htx
        by_cases heq : c' = c <;> simp [hact, he, heq]

/-- What is saved at the end of a transmission is its buffer, if that is long enough. -/
theorem onTransmissionEnd_saved :
    ((onTransmissionEnd c).run h).1 =
      if h.recording = true then
        (h.activeTX c).bind fun tx =>
          if tx.buffer.length < minRecordingBytes then none
          else if h.diskWritable then some (AudioRecorder.recordingOf tx c h.now) else none
      else none := by
  simp only [run]
  rw [Hub.onRecorder_fst]
  unfold Hub.activeTX Hub.recording Hub.diskWritable
  cases h.recorder with
  | none => rfl
  | some r =>
    cases he : r.enabled with
    | false => simp [AudioRecorder.onTransmissionEnd_of_none (Or.inl he), he]
    | true =>
      cases htx : r.activeTX c with
      | none => simp [AudioRecorder.onTransmissionEnd_of_none (Or.inr htx), he, htx]
      | some tx =>
        obtain ⟨hr, _, _, _⟩ := AudioRecorder.onTransmissionEnd_eq h.now he htx
        simp [hr, he, htx]

end HubOp

end TwoWayRadio

import TwoWayRadio.CappedLog
import TwoWayRadio.RecordingArchive

/-! The buffer of one transmission, from its start on, as payloads of any sizes come in. -/
namespace TwoWayRadio

/-- The transmission on `c` goes on after the event. -/
def RecorderEvent.During (c : ChannelID) : RecorderEvent → Prop
  | .onTransmissionStart c' _ | .onTransmissionEnd c' => c' ≠ c
  | .appendAudio .. | .tick _ => True

instance (c : ChannelID) : DecidablePred (RecorderEvent.During c)
  | .onTransmissionStart c' _ | .onTransmissionEnd c' => inferInstanceAs (Decidable (c' ≠ c))
  | .appendAudio .. | .tick _ => isTrue trivial

/-- The payload that the event passes to `AppendAudio` for `c`. -/
def RecorderEvent.payload (c : ChannelID) : RecorderEvent → Option Bytes
  | .appendAudio c' payload => if c' = c then some payload else none
  | _ => none

/-- All payloads passed for `c`, in order. -/
def passed (c : ChannelID) (calls : List (ℤ × RecorderEvent)) : List Bytes :=
  calls.filterMap fun call => call.2.payload c

theorem passed_concat (c : ChannelID) (calls : List (ℤ × RecorderEvent)) (now : ℤ)
    (e : RecorderEvent) :
    passed c (calls ++ [(now, e)]) = passed c calls ++ (e.payload c).toList := by
  rw [passed, List.filterMap_append, passed]
  cases hp : e.payload c <;> simp [hp]

namespace AudioRecorder

/-- A call on the recorder that reads `now` from the clock. -/
def handle (r : AudioRecorder) (now : ℤ) : RecorderEvent → AudioRecorder
  | .onTransmissionStart c speaker => r.onTransmissionStart c speaker now
  | .appendAudio c payload => r.appendAudio c payload
  | .onTransmissionEnd c => (r.onTransmissionEnd c now).2
  | .tick _ => r

def handles (r : AudioRecorder) (calls : List (ℤ × RecorderEvent)) : AudioRecorder :=
  calls.foldl (fun r call => r.handle call.1 call.2) r

def bufferOf (c : ChannelID) (r : AudioRecorder) : Option Bytes :=
  (r.activeTX c).map TransmissionBuffer.buffer

variable {r : AudioRecorder} {c : ChannelID} {e : RecorderEvent}
  {calls pre : List (ℤ × RecorderEvent)}

theorem enabled_handle (now : ℤ) (he : r.enabled = true) : (r.handle now e).enabled = true := by
  cases e with
  | onTransmissionStart c' speaker =>
    simp only [handle, onTransmissionStart, he, Bool.not_true, Bool.false_eq_true, if_false]
  | appendAudio c' payload =>
    simp only [handle, appendAudio, he, Bool.not_true, Bool.false_eq_true, if_false]
    split
    · exact he
    · split_ifs
      · exact he
      · rfl
  | onTransmissionEnd c' =>
    cases htx : r.activeTX c' with
    | none =>
      rw [handle, onTransmissionEnd_of_none (Or.inr htx)]
      exact he
    | some tx => exact (onTransmissionEnd_eq now he htx).2.2.1.trans he
  | tick d => exact he

theorem activeTX_appendAudio (payload : Bytes) (he : r.enabled = true) :
    (r.appendAudio c payload).activeTX = Function.update r.activeTX c ((r.activeTX c).map fun tx =>
      { tx with buffer := CappedLog.append maxBufferBytes tx.buffer payload }) := by
  simp only [appendAudio, he, Bool.not_true, Bool.false_eq_true, if_false]
  cases htx : r.activeTX c with
  | none => rw [Option.map_none, ← htx, Function.update_eq_self, htx]
  | some tx =>
    dsimp only [Option.map_some]
    split_ifs with hlong
    · rw [CappedLog.append_of_not_fits hlong, ← htx, Function.update_eq_self]
    · rw [CappedLog.append_of_fits (Nat.not_lt.mp hlong)]

theorem bufferOf_onTransmissionStart (x : Client) (now : ℤ) (he : r.enabled = true) :
    (r.onTransmissionStart c x now).bufferOf c = some [] := by
  simp only [onTransmissionStart, he, Bool.not_true, Bool.false_eq_true, if_false, bufferOf,
    Function.update_self, Option.map_some]

/-- What one event does to the buffer of a transmission that it neither starts nor ends. -/
theorem bufferOf_handle (now : ℤ) (he : r.enabled = true) (hd : e.During c) :
    (r.handle now e).bufferOf c = (r.bufferOf c).map fun b =>
      (e.payload c).elim b (CappedLog.append maxBufferBytes b) := by
  -- an event without a payload for `c` leaves the entry of `c` in the map alone
  have hkeeps : e.payload c = none → (r.handle now e).activeTX c = r.activeTX c →
      (r.handle now e).bufferOf c = (r.bufferOf c).map fun b =>
        (e.payload c).elim b (CappedLog.append maxBufferBytes b) := by
    intro hp hsame
    simp only [hp, Option.elim_none, bufferOf, hsame]
    exact Option.map_id'.symm
  cases e with
  | onTransmissionStart c' speaker =>
    apply hkeeps rfl
    simp only [handle, onTransmissionStart, he, Bool.not_true, Bool.false_eq_true, if_false]
    exact Function.update_of_ne (Ne.symm hd) ..
  | appendAudio c' payload =>
    by_cases hc : c' = c
    · subst hc
      rw [handle, bufferOf, activeTX_appendAudio payload he, Function.update_self, bufferOf,
        Option.map_map, Option.map_map, RecorderEvent.payload, if_pos rfl]
      rfl
    · apply hkeeps (if_neg hc)
      rw [handle, activeTX_appendAudio payload he, Function.update_of_ne (Ne.symm hc)]
  | onTransmissionEnd c' =>
    apply hkeeps rfl
    rw [handle]
    cases htx : r.activeTX c' with
    | none => rw [onTransmissionEnd_of_none (Or.inr htx)]
    | some tx =>
      rw [(onTransmissionEnd_eq now he htx).2.1, Function.update_of_ne (Ne.symm hd)]
  | tick d => exact hkeeps rfl rfl

theorem handles_concat (now : ℤ) :
    r.handles (pre ++ [(now, e)]) = (r.handles pre).handle now e := by
  rw [handles, List.foldl_append]
  rfl

theorem enabled_handles (he : r.enabled = true) : (r.handles calls).enabled = true := by
  induction calls using List.reverseRecOn with
  | nil => exact he
  | append_singleton pre call ih =>
    rw [handles_concat]
    exact enabled_handle call.1 ih

/-- The buffer of a transmission is what the payloads passed since its start leave of a log that
begins empty. -/
theorem bufferOf_handles (x : Client) (now : ℤ) (he : r.enabled = true)
    (hd : ∀ call ∈ calls, call.2.During c) :
    ((r.onTransmissionStart c x now).handles calls).bufferOf c =
      some (CappedLog.fill maxBufferBytes (passed c calls)) := by
  have hstart : (r.onTransmissionStart c x now).enabled = true :=
    enabled_handle (e := .onTransmissionStart c x) now he
  induction calls using List.reverseRecOn with
  | nil => exact bufferOf_onTransmissionStart x now he
  | append_singleton pre call ih =>
    rw [handles_concat, bufferOf_handle call.1 (enabled_handles hstart)
      (hd call (List.mem_append_right _ List.mem_cons_self)),
      ih fun call' hmem => hd call' (List.mem_append_left _ hmem), passed_concat, Option.map_some]
    cases call.2.payload c with
    | none => rw [Option.elim_none, Option.toList_none, List.append_nil]
    | some p => rw [Option.elim_some, Option.toList_some, CappedLog.fill_concat]

end AudioRecorder

/-- Of the buffer on `c` and the payloads passed so far, before the calls and after each of them. -/
def AtEveryMoment (r : AudioRecorder) (c : ChannelID) (calls : List (ℤ × RecorderEvent))
    (P : Bytes → List Bytes → Prop) : Prop :=
  ∀ pre, pre <+: calls → ∃ b, (r.handles pre).bufferOf c = some b ∧ P b (passed c pre)

/-- The recording may stop early but has no holes. -/
def CutAtEnd (b : Bytes) (ps : List Bytes) : Prop := b.length ≤ maxBufferBytes ∧ b <+: ps.flatten

section Transmission

variable {r : AudioRecorder} {c : ChannelID} {calls : List (ℤ × RecorderEvent)}

theorem atEveryMoment_iff (x : Client) (now : ℤ) (he : r.enabled = true)
    (hd : ∀ call ∈ calls, call.2.During c) {P : Bytes → List Bytes → Prop} :
    AtEveryMoment (r.onTransmissionStart c x now) c calls P ↔
      ∀ ps, ps <+: passed c calls → P (CappedLog.fill maxBufferBytes ps) ps := by
  have hbuffer {pre : List (ℤ × RecorderEvent)} (hpre : pre <+: calls) :=
    AudioRecorder.bufferOf_handles x now he fun call hmem => hd call (hpre.subset hmem)
  constructor
  · intro hall ps hps
    -- the payloads passed so far are those of the calls so far
    obtain ⟨pre, hpre, rfl⟩ := List.prefix_filterMap_iff.mp hps
    obtain ⟨b, hb, hp⟩ := hall pre hpre
    obtain rfl := Option.some.inj ((hbuffer hpre).symm.trans hb)
    exact hp
  · intro hall pre hpre
    exact ⟨_, hbuffer hpre, hall _ (hpre.filterMap _)⟩

theorem cutAtEnd_iff (x : Client) (now : ℤ) (he : r.enabled = true)
    (hd : ∀ call ∈ calls, call.2.During c) :
    AtEveryMoment (r.onTransmissionStart c x now) c calls CutAtEnd ↔
      CappedLog.Continues maxBufferBytes (passed c calls) := by
  rw [atEveryMoment_iff x now he hd, ← CappedLog.fill_isPrefix_iff]
  constructor
  · intro hcut ps hps
    exact (hcut ps hps).2
  · intro hstream ps hps
    exact ⟨CappedLog.length_fill_le, hstream ps hps⟩

/-- Frames of one size leave no hole, however many they are. -/
theorem cutAtEnd_of_length {n : ℕ} (x : Client) (now : ℤ) (he : r.enabled = true)
    (hd : ∀ call ∈ calls, call.2.During c) (hn : ∀ p ∈ passed c calls, p.length = n) :
    AtEveryMoment (r.onTransmissionStart c x now) c calls CutAtEnd :=
  (cutAtEnd_iff x now he hd).mpr (CappedLog.continues_of_length hn)

end Transmission

/-- The bound on the buffer holds for all payloads, and there is a hole exactly when something
that does not continue the stream was let in. -/
theorem capped_recording (r : AudioRecorder) (c : ChannelID) (x : Client) (now : ℤ)
    (calls : List (ℤ × RecorderEvent)) (he : r.enabled = true)
    (hd : ∀ call ∈ calls, call.2.During c) :
    AtEveryMoment (r.onTransmissionStart c x now) c calls (fun b _ => b.length ≤ maxBufferBytes) ∧
      (AtEveryMoment (r.onTransmissionStart c x now) c calls CutAtEnd ↔
        CappedLog.Continues maxBufferBytes (passed c calls)) := by
  refine ⟨?_, cutAtEnd_iff x now he hd⟩
  rw [atEveryMoment_iff x now he hd]
  intro ps _
  exact CappedLog.length_fill_le

/-- A recorder that has been switched on. -/
def liveRecorder : AudioRecorder := newAudioRecorder "./data/recordings" 50 true {}

/-- Forty seconds of sound, and forty more that there is no room for. -/
def shortCalls : List (ℤ × RecorderEvent) :=
  [(0, .appendAudio 1 (List.replicate 1280000 1)), (0, .tick 20),
    (0, .appendAudio 1 (List.replicate 1280000 2))]

theorem capped_recording_short :
    (∃ b, ((liveRecorder.onTransmissionStart 1 alpha 0).handles shortCalls).bufferOf 1 = some b ∧
      b.length = 1280000) ∧
    AtEveryMoment (liveRecorder.onTransmissionStart 1 alpha 0) 1 shortCalls CutAtEnd := by
  have hd : ∀ call ∈ shortCalls, call.2.During 1 := by
    intro call hcall
    simp only [shortCalls, List.mem_cons, List.not_mem_nil, or_false] at hcall
    rcases hcall with rfl | rfl | rfl <;> trivial
  have hpassed : passed 1 shortCalls =
      [List.replicate 1280000 1, List.replicate 1280000 2] := rfl
  constructor
  · refine ⟨_, AudioRecorder.bufferOf_handles alpha 0 rfl hd, ?_⟩
    rw [CappedLog.length_fill, hpassed, List.map_cons, List.map_cons, List.map_nil,
      List.length_replicate, List.length_replicate]
    decide
  · refine (capped_recording liveRecorder 1 alpha 0 _ rfl hd).2.mpr
      (CappedLog.continues_of_length (n := 1280000) fun p hp => ?_)
    rw [hpassed] at hp
    simp only [List.mem_cons, List.not_mem_nil, or_false] at hp
    rcases hp with rfl | rfl <;> exact List.length_replicate ..

/-- All but two bytes of a minute, three bytes that do not fit any more, and one that does. -/
def holeCalls : List (ℤ × RecorderEvent) :=
  [(0, .appendAudio 1 (List.replicate (maxBufferBytes - 2) 0)), (0, .appendAudio 1 [1, 1, 1]),
    (0, .appendAudio 1 [2])]

theorem capped_recording_fails :
    ¬ AtEveryMoment (liveRecorder.onTransmissionStart 1 alpha 0) 1 holeCalls CutAtEnd := by
  intro hcut
  have hcont := (cutAtEnd_iff alpha 0 rfl (by decide)).mp hcut
  have hfilled : CappedLog.filled maxBufferBytes
      ([List.replicate (maxBufferBytes - 2) (0 : UInt8), [1, 1, 1]].map List.length) =
        maxBufferBytes - 2 := by
    rw [List.map_cons, List.length_replicate]
    decide
  -- the last byte is let in although three before it are missing
  have hpre := hcont [List.replicate (maxBufferBytes - 2) 0, [1, 1, 1]] [2] ⟨[], rfl⟩
    (by rw [hfilled]; decide)
  rw [hfilled, List.flatten_cons, List.drop_left' (List.length_replicate ..)] at hpre
  exact absurd hpre (by decide)

end TwoWayRadio

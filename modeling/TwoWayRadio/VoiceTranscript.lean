import TwoWayRadio.FloorNames
import TwoWayRadio.HubEffects
import TwoWayRadio.HubRecorder
import TwoWayRadio.HubRequests
import TwoWayRadio.SerialHub

/-! Voice messages: which saved recordings are announced to their channel and entered in its
history, with handlers that run one at a time. -/
namespace TwoWayRadio
open Interleaving Transition

namespace HubOp

/-- The recording that a call saves. -/
def saves : HubOp → Hub → List VoiceRecording
  | onTransmissionEnd c, h => ((onTransmissionEnd c).run h).1.toList
  | _, _ => []

/-- The recording that a call announces to a channel. -/
def announces : HubOp → Hub → List (ChannelID × VoiceRecording)
  | broadcastSignal c (.transmissionRecorded r), _ => [(c, r)]
  | _, _ => []

/-- The message that a call appends to the history of a channel. -/
def enters : HubOp → Hub → List (ChannelID × ChatMessagePayload Bytes)
  | appendVoice c m, _ => [(c, m)]
  | appendChat y m, h => [((h.heap y).currentChannelID, m)]
  | _, _ => []

end HubOp

namespace Hub

variable {α : Type}

def saved (p : HubProg α) (h : Hub) : List VoiceRecording := p.trace HubOp.run HubOp.saves h

def announced (p : HubProg α) (h : Hub) : List (ChannelID × VoiceRecording) :=
  p.trace HubOp.run HubOp.announces h

def entered (p : HubProg α) (h : Hub) : List (ChannelID × ChatMessagePayload Bytes) :=
  p.trace HubOp.run HubOp.enters h

/-- A history with one more message in it. -/
def grown (hist : List (ChatMessagePayload Bytes)) (m : ChatMessagePayload Bytes) :
    List (ChatMessagePayload Bytes) := trimHistory (hist ++ [m])

/-- The history of a channel after a handler is what the handler has entered in it. -/
theorem chatHistory_after (p : HubProg α) (c : ChannelID) (h : Hub) :
    (after p h).chatHistory c =
      (((entered p h).filter fun e => e.1 = c).map Prod.snd).foldl grown (h.chatHistory c) := by
  induction p generalizing h with
  | ret a => rfl
  | call op k ih =>
    have hcall : (op.run h).2.chatHistory c =
        (((op.enters h).filter fun e => e.1 = c).map Prod.snd).foldl grown (h.chatHistory c) := by
      by_cases hop : op.appends h = some c
      · cases op with
        | appendChat y m =>
          obtain rfl := Option.some.inj hop
          simp [HubOp.run, HubOp.enters, pushHistory, grown]
        | appendVoice ch m =>
          obtain rfl := Option.some.inj hop
          simp [HubOp.run, HubOp.enters, pushHistory, grown]
        | _ => cases hop
      · have hnone : ((op.enters h).filter fun e => e.1 = c) = [] := by
          cases op with
          | appendChat y m =>
            have hne : (h.heap y).currentChannelID ≠ c := fun heq => hop (congrArg some heq)
            simp [HubOp.enters, hne]
          | appendVoice ch m =>
            have hne : ch ≠ c := fun heq => hop (congrArg some heq)
            simp [HubOp.enters, hne]
          | _ => rfl
        rw [chatHistory_run hop, hnone]
        rfl
    have hentered : entered (.call op k) h = op.enters h ++ entered (k (op.run h).1) (op.run h).2 :=
      rfl
    rw [after_call, ih, hcall, hentered, List.filter_append, List.map_append, List.foldl_append]

/-- A recording is a voice message of its channel: the channel is told of it once, and it is entered
once in the channel's history under the ID of its speaker. -/
structure Transcribed (p : HubProg Unit) (h : Hub) (r : VoiceRecording) : Prop where
  announced : announced p h = [(r.channelID, r)]
  delivered : ∀ y ∈ h.subscribersOf r.channelID, ∃ now,
    .enqueue y .send (.json (.transmissionRecorded r) now) ∈ sent p h
  entered : ∃ m tx, entered p h = [(r.channelID, m)] ∧ h.activeTX r.channelID = some tx ∧
    m.senderID = tx.speakerID ∧ m.id = r.id ∧ m.channelID = r.channelID ∧ m.fileUrl = r.fileURL
  history : ∃ m, m.id = r.id ∧
    (after p h).chatHistory r.channelID = trimHistory (h.chatHistory r.channelID ++ [m])

/-- A transmission on channel `c` would be saved if it ended now. -/
def Savable (c : ChannelID) (h : Hub) : Prop :=
  h.recording = true ∧ h.diskWritable = true ∧
    ∃ tx, h.activeTX c = some tx ∧ minRecordingBytes ≤ tx.buffer.length

theorem onTransmissionEnd_savable {c : ChannelID} {h : Hub} :
    (∃ tx, h.activeTX c = some tx ∧ h.Savable c ∧ ((HubOp.onTransmissionEnd c).run h).1 =
      some (AudioRecorder.recordingOf tx c h.now)) ∨
    (¬ h.Savable c ∧ ((HubOp.onTransmissionEnd c).run h).1 = none) := by
  rw [HubOp.onTransmissionEnd_saved]
  by_cases hrec : h.recording = true
  swap
  · rw [if_neg hrec]
    exact Or.inr ⟨fun hs => hrec hs.1, rfl⟩
  rw [if_pos hrec]
  cases htx : h.activeTX c with
  | none =>
    refine Or.inr ⟨?_, rfl⟩
    rintro ⟨_, _, tx, htx', _⟩
    rw [htx] at htx'
    cases htx'
  | some tx =>
    rw [Option.bind_some]
    split_ifs with hshort hdisk
    · refine Or.inr ⟨?_, rfl⟩
      rintro ⟨_, _, tx', htx', hlong⟩
      obtain rfl := Option.some.inj (htx.symm.trans htx')
      omega
    · exact Or.inl ⟨tx, rfl, ⟨hrec, hdisk, tx, htx, Nat.not_lt.mp hshort⟩, rfl⟩
    · exact Or.inr ⟨fun hs => hdisk hs.2.1, rfl⟩

end Hub

/-- The channel on which a request cuts off the one who speaks: the key of a client with a higher
priority, or a timer that runs out. -/
def Request.cutsOff (h : Hub) : Request → Option ChannelID
  | signal x .pttDown _ => (h.channelOf x).filter fun c =>
    (h.holder c).any fun y => y ≠ x && getPriority (h.heap y) < getPriority (h.heap x)
  | totExpires c timer =>
    if (h.holder c).isSome && h.readChannel c false fun ch =>
      (ch.timers[timer]?).any fun τ => τ.fired && !τ.ran then some c else none
  | _ => none

/-- Every recording that the step saves is a voice message of its channel. -/
def SavesTranscribed (s : SerialHub Unit) (e : SerialEvent) : Prop :=
  ∀ r, e = .serve r → ∀ recording ∈ Hub.saved r.prog s.hub,
    s.hub.Transcribed r.prog recording

/-- The step cuts off nobody whose transmission is to be saved. -/
def SparesSpeaker (s : SerialHub Unit) (e : SerialEvent) : Prop :=
  ∀ r c, e = .serve r → r.cutsOff s.hub = some c → ¬ s.hub.Savable c

/-- The transmission that is open on a channel whose floor is held is the holder's, but perhaps on
the channel `due`, whose new holder has not begun one yet. -/
structure Hub.SpeakerOpen (due : Option ChannelID) (h : Hub) : Prop where
  busy : h.BusyAgrees
  speaker : ∀ c x tx, due ≠ some c → h.holder c = some x → h.activeTX c = some tx →
    tx.speakerID = (h.heap x).id
  switchedOn : ∀ c tx, h.activeTX c = some tx → h.recording = true

section Release

open Hub Prog

variable {x : ClientRef} {c : ChannelID} {h : Hub} {r : VoiceRecording}

theorem saved_bind {α β : Type} (p : HubProg α) (f : α → HubProg β) (h : Hub) :
    saved (p >>= f) h = saved p h ++ saved (f (p.exec HubOp.run h).1) (after p h) :=
  trace_bind HubOp.run HubOp.saves p f h

theorem saved_finishRecording :
    saved (finishRecording c) h = ((HubOp.onTransmissionEnd c).run h).1.toList := by
  simp only [saved, finishRecording, perform_bind, trace_call, HubOp.saves]
  cases ((HubOp.onTransmissionEnd c).run h).1 with
  | none => rfl
  | some r => rfl

/-- The release of the floor saves the recording before it enters the voice message. -/
theorem saved_finishRelease :
    saved (finishRelease x c) h = ((HubOp.onTransmissionEnd c).run h).1.toList := by
  unfold finishRelease
  rw [saved_bind, saved_finishRecording]
  cases ((finishRecording c).exec HubOp.run h).1 with
  | none => exact List.append_nil _
  | some r => exact List.append_nil _

theorem announced_finishRelease (hr : ((HubOp.onTransmissionEnd c).run h).1 = some r) :
    announced (finishRelease x c) h = [(c, r)] := by
  simp only [announced, finishRelease, finishRecording, perform_bind, call_bind, trace_call, hr]
  rfl

theorem entered_finishRelease (hr : ((HubOp.onTransmissionEnd c).run h).1 = some r) :
    ∃ m, entered (finishRelease x c) h = [(c, m)] ∧ m.senderID = (h.heap x).id ∧ m.id = r.id ∧
      m.channelID = c ∧ m.fileUrl = r.fileURL := by
  simp only [entered, finishRelease, finishRecording, perform_bind, call_bind, trace_call, hr]
  refine ⟨_, rfl, ?_, rfl, rfl, rfl⟩
  exact HubOp.id_run (.onTransmissionEnd c) h x

theorem subscribed_of_untouched {op : HubOp} {y : ClientRef} (hop : op.touched = none)
    (hy : h.Subscribed c y) : (op.run h).2.Subscribed c y := by
  have htouched : op.touched ≠ some y := by
    rw [hop]
    exact (Option.some_ne_none y).symm
  exact ((elsewhere_run htouched h).subscribed c).mpr hy

theorem sent_finishRelease {y : ClientRef} (hr : ((HubOp.onTransmissionEnd c).run h).1 = some r)
    (hy : h.Subscribed c y) : ∃ now, .enqueue y .send (.json (.transmissionRecorded r) now) ∈
      sent (finishRelease x c) h := by
  have hsub : ((HubOp.onTransmissionEnd c).run h).2.Subscribed c y :=
    subscribed_of_untouched rfl hy
  refine ⟨((HubOp.onTransmissionEnd c).run h).2.unixMilli, ?_⟩
  simp only [finishRelease, finishRecording, perform_bind, call_bind, sent_call, hr]
  refine List.mem_append_right _ (List.mem_append_left _ ?_)
  exact List.mem_map.mpr ⟨y, mem_subscribersOf.mpr hsub, rfl⟩

theorem sent_eq_trace {α : Type} (p : HubProg α) (h : Hub) :
    sent p h = p.trace HubOp.run HubOp.sends h := by
  induction p generalizing h with
  | ret a => rfl
  | call op k ih => exact congrArg (op.sends h ++ ·) (ih _ _)

/-- A release that finds its client on a channel, call by call. -/
theorem trace_handlePTTUp {τ : Type} (f : HubOp → Hub → List τ) (hof : h.channelOf x = some c) :
    (handlePTTUp x).trace HubOp.run f h = f (.currentChannel x) h ++ (f (.releaseFloor c x) h ++
      (when (((HubOp.releaseFloor c x).run h).1 = true) (finishRelease x c)).trace HubOp.run f
        ((HubOp.releaseFloor c x).run h).2) := by
  show f _ h ++ (ifSome (h.channelOf x) _).trace HubOp.run f h = _
  rw [hof]
  rfl

/-- What the recorder saves depends on the recorder and the clock alone. -/
theorem onTransmissionEnd_congr {h h' : Hub} (hrec : h'.recorder = h.recorder)
    (hnow : h'.now = h.now) (c : ChannelID) :
    ((HubOp.onTransmissionEnd c).run h').1 = ((HubOp.onTransmissionEnd c).run h).1 := by
  simp only [HubOp.run, Hub.onRecorder, hrec, hnow]
  cases h.recorder <;> rfl

/-- The key of the holder makes its recording a voice message. -/
theorem transcribed_handlePTTUp (hopen : h.SpeakerOpen none) (hr : r ∈ saved (handlePTTUp x) h) :
    h.Transcribed (handlePTTUp x) r := by
  cases hof : h.channelOf x with
  | none =>
    have hnone : saved (handlePTTUp x) h = [] := by
      show (ifSome (h.channelOf x) _).trace HubOp.run HubOp.saves h = []
      rw [hof]
      rfl
    rw [hnone] at hr
    cases hr
  | some c =>
    have hholder := HubOp.releaseFloor_run h c x
    rw [saved, trace_handlePTTUp _ hof] at hr
    have hrec : ((HubOp.releaseFloor c x).run h).2.recorder = h.recorder :=
      HubOp.recorder_run_of_not_records rfl
    have hnow : ((HubOp.releaseFloor c x).run h).2.now = h.now :=
      onChannel_part (fun _ _ => rfl) ..
    rcases hholder with ⟨hhold, hreleased, _⟩ | ⟨_, hreleased, _⟩
    swap
    · rw [hreleased] at hr
      cases hr
    rw [when, if_pos hreleased] at hr
    -- the one recording that can be saved is that of the holder
    have hsaved :
        ((HubOp.onTransmissionEnd c).run ((HubOp.releaseFloor c x).run h).2).1 = some r := by
      have hmem : r ∈ saved (finishRelease x c) ((HubOp.releaseFloor c x).run h).2 := hr
      rw [saved_finishRelease] at hmem
      exact Option.mem_toList.mp hmem
    have hsaved' := hsaved
    rw [onTransmissionEnd_congr hrec hnow] at hsaved'
    rcases onTransmissionEnd_savable (c := c) (h := h) with ⟨tx, htx, _, heq⟩ | ⟨_, heq⟩
    swap
    · rw [heq] at hsaved'
      cases hsaved'
    obtain rfl : AudioRecorder.recordingOf tx c h.now = r :=
      Option.some.inj (heq.symm.trans hsaved')
    obtain ⟨m, hentered, hid, hmid, hmch, hmurl⟩ := entered_finishRelease (x := x) hsaved
    have hall : entered (handlePTTUp x) h = [(c, m)] := by
      rw [entered, trace_handlePTTUp _ hof, when, if_pos hreleased]
      exact hentered
    refine ⟨?_, fun y hy => ?_, ⟨m, tx, hall, htx, ?_, hmid, hmch, hmurl⟩, m, hmid, ?_⟩
    · rw [announced, trace_handlePTTUp _ hof, when, if_pos hreleased]
      exact announced_finishRelease hsaved
    · have hsub : ((HubOp.releaseFloor c x).run h).2.Subscribed c y :=
        subscribed_of_untouched rfl (mem_subscribersOf.mp hy)
      obtain ⟨now, hsent⟩ := sent_finishRelease (x := x) hsaved hsub
      refine ⟨now, ?_⟩
      rw [sent_eq_trace, trace_handlePTTUp _ hof, when, if_pos hreleased, ← sent_eq_trace]
      exact List.mem_append_right _ (List.mem_append_right _ hsent)
    · rw [hid, HubOp.id_run]
      exact (hopen.speaker c x tx (Option.some_ne_none c).symm hhold htx).symm
    · rw [chatHistory_after, hall]
      show (([(c, m)].filter fun e => e.1 = c).map Prod.snd).foldl grown (h.chatHistory c) = _
      simp [grown, AudioRecorder.recordingOf]

end Release

section Cut

open Hub Prog

variable {x : ClientRef} {c : ChannelID} {h : Hub}

theorem savable_iff : ((HubOp.onTransmissionEnd c).run h).1 = none ↔ ¬ h.Savable c := by
  rcases onTransmissionEnd_savable (c := c) (h := h) with ⟨tx, _, hs, heq⟩ | ⟨hs, heq⟩
  · rw [heq]
    exact iff_of_false (Option.some_ne_none _) (not_not_intro hs)
  · exact iff_of_true heq hs

theorem saved_finalizePreempted {y : ClientRef} : saved (finalizePreempted c x y) h =
    ((HubOp.onTransmissionEnd c).run h).1.toList := by
  have hcongr : ((HubOp.onTransmissionEnd c).run (HubOp.addPreemption.run h).2).1 =
      ((HubOp.onTransmissionEnd c).run h).1 := by
    apply onTransmissionEnd_congr <;> rfl
  show saved (finishRecording c >>= fun _ => _) (HubOp.addPreemption.run h).2 = _
  rw [saved_bind, saved_finishRecording, hcongr]
  exact List.append_nil _

/-- Calls that save nothing. -/
theorem saved_of_all {α : Type} {p : HubProg α} {r : Request} (hr : r.endsTransmission = false)
    (hp : r.Serves p) (h : Hub) : saved p h = [] := by
  refine trace_of_all HubOp.run HubOp.saves (fun op h hop => ?_) hp h
  cases op with
  | onTransmissionEnd c =>
    rw [show r.endsTransmission = true from hop] at hr
    cases hr
  | _ => rfl

/-- Only a preempting grant ends a transmission. -/
theorem saved_answerRequest {reply : FloorReply} : saved (answerRequest x c reply) h =
    if reply.granted = true ∧ reply.preempted.isSome = true then
      ((HubOp.onTransmissionEnd c).run h).1.toList else [] := by
  unfold answerRequest
  by_cases hgranted : reply.granted = true
  swap
  · rw [if_neg hgranted, if_neg fun hboth => hgranted hboth.1]
    rfl
  rw [if_pos hgranted]
  cases hpre : reply.preempted with
  | none =>
    rw [if_neg fun hboth => Bool.false_ne_true hboth.2]
    rfl
  | some y =>
    have hcongr : ((HubOp.onTransmissionEnd c).run (HubOp.addTransmission.run h).2).1 =
        ((HubOp.onTransmissionEnd c).run h).1 := by
      apply onTransmissionEnd_congr <;> rfl
    rw [if_pos ⟨hgranted, rfl⟩, ← hcongr, ← saved_finalizePreempted (x := x) (y := y)]
    show saved (finalizePreempted c x y >>= fun _ => _) _ = _
    rw [saved_bind]
    exact List.append_nil _

theorem cutsOff_pttDown {choices : Choices} {ch : ChannelID} (hof : h.channelOf x = some c) :
    (Request.signal x .pttDown choices).cutsOff h = some ch ↔ ch = c ∧
      ∃ y, h.holder c = some y ∧ y ≠ x ∧ getPriority (h.heap y) < getPriority (h.heap x) := by
  rw [Request.cutsOff, hof, Option.filter_some]
  cases h.holder c with
  | none => simp
  | some y =>
    by_cases hcut : y ≠ x ∧ getPriority (h.heap y) < getPriority (h.heap x)
    · simp [hcut, eq_comm (a := c)]
    · simp [hcut]

theorem preempts_requestFloor (hb : h.BusyAgrees) :
    (((HubOp.requestFloor c x).run h).1.granted = true ∧
      ((HubOp.requestFloor c x).run h).1.preempted.isSome = true) ↔
    ∃ y, h.holder c = some y ∧ y ≠ x ∧ getPriority (h.heap y) < getPriority (h.heap x) := by
  have hrequested := HubOp.requestFloor_run c x hb
  revert hrequested
  generalize ((HubOp.requestFloor c x).run h).1 = reply
  generalize ((HubOp.requestFloor c x).run h).2.holder c = holder'
  generalize h.holder c = holder
  intro hrequested
  cases hrequested with
  | preempts y hne hp => exact iff_of_true ⟨rfl, rfl⟩ ⟨y, rfl, hne, hp⟩
  | denied y hne hp =>
    refine iff_of_false (fun hboth => Bool.false_ne_true hboth.1) ?_
    rintro ⟨y', hy, _, hlt⟩
    obtain rfl := Option.some.inj hy
    exact absurd hlt (not_lt.mpr hp)
  | absent => simp
  | free => simp
  | held => simp

/-- A key that preempts saves what the preempted client has said. -/
theorem saved_handlePTTDown (hb : h.BusyAgrees) (choices : Choices) :
    saved (handlePTTDown x) h = [] ↔
      ∀ c, (Request.signal x .pttDown choices).cutsOff h = some c → ¬ h.Savable c := by
  cases hof : h.channelOf x with
  | none =>
    refine iff_of_true ?_ fun c hc => ?_
    · simp only [saved, handlePTTDown, perform_bind, trace_call]
      rw [show ((HubOp.currentChannel x).run h).1 = none from hof]
      rfl
    · rw [Request.cutsOff, hof] at hc
      cases hc
  | some c =>
    have hsaved : saved (handlePTTDown x) h =
        saved (answerRequest x c ((HubOp.requestFloor c x).run h).1)
          ((HubOp.requestFloor c x).run h).2 := by
      simp only [saved, handlePTTDown, perform_bind, trace_call]
      rw [show ((HubOp.currentChannel x).run h).1 = some c from hof]
      rfl
    have hrec : ((HubOp.requestFloor c x).run h).2.recorder = h.recorder :=
      HubOp.recorder_run_of_not_records rfl
    have hnow : ((HubOp.requestFloor c x).run h).2.now = h.now :=
      onChannel_part (fun _ _ => rfl) ..
    have hpreempts := preempts_requestFloor (x := x) (c := c) hb
    rw [hsaved, saved_answerRequest, onTransmissionEnd_congr hrec hnow]
    split_ifs with hcut
    · rw [Option.toList_eq_nil_iff, savable_iff]
      refine ⟨fun hs ch hch => ?_, fun hspared => ?_⟩
      · obtain ⟨rfl, _⟩ := (cutsOff_pttDown hof).mp hch
        exact hs
      · exact hspared c ((cutsOff_pttDown hof).mpr ⟨rfl, hpreempts.mp hcut⟩)
    · refine iff_of_true rfl fun ch hch => ?_
      exact absurd (hpreempts.mpr ((cutsOff_pttDown hof).mp hch).2) hcut

theorem handleTOT_fst {timer : ℕ} : ((HubOp.handleTOT c timer).run h).1 =
    if h.readChannel c false (fun ch => (ch.timers[timer]?).any fun τ => τ.fired && !τ.ran) then
      h.holder c else none := by
  simp only [HubOp.run]
  cases hc : h.channels.lookup c with
  | none => simp [onChannel, readChannel, hc]
  | some ch =>
    rw [onChannel_fst hc, readChannel, hc, holder_of_lookup hc]
    show ((ch.runTimer timer).getD (none, ch)).1 =
      if (ch.timers[timer]?).any (fun τ => τ.fired && !τ.ran) = true then ch.activeSpeaker else none
    unfold Channel.runTimer
    cases hτ : ch.timers[timer]? with
    | none => rfl
    | some τ =>
      simp only [Option.any_some]
      split_ifs with hran
      · rfl
      · rfl

/-- A timer that runs out saves what its channel's holder has said. -/
theorem saved_totGoroutine {timer : ℕ} : saved (totGoroutine c timer) h = [] ↔
    ∀ ch, (Request.totExpires c timer).cutsOff h = some ch → ¬ h.Savable ch := by
  have hrec : ((HubOp.handleTOT c timer).run h).2.recorder = h.recorder :=
    HubOp.recorder_run_of_not_records rfl
  have hnow : ((HubOp.handleTOT c timer).run h).2.now = h.now :=
      onChannel_part (fun _ _ => rfl) ..
  have hsaved : saved (totGoroutine c timer) h =
      saved (ifSome ((HubOp.handleTOT c timer).run h).1 (handleTOTExpired c))
        ((HubOp.handleTOT c timer).run h).2 := rfl
  rw [hsaved, handleTOT_fst]
  simp only [Request.cutsOff]
  by_cases hran : h.readChannel c false
      (fun ch => (ch.timers[timer]?).any fun τ => τ.fired && !τ.ran) = true
  swap
  · rw [if_neg hran]
    refine iff_of_true rfl fun ch hch => ?_
    rw [if_neg fun hboth => hran (Bool.and_eq_true _ _ ▸ hboth).2] at hch
    cases hch
  rw [if_pos hran, hran, Bool.and_true]
  cases h.holder c with
  | none => exact iff_of_true rfl fun ch hch => by cases hch
  | some y =>
    have hend : saved (handleTOTExpired c y) ((HubOp.handleTOT c timer).run h).2 =
        ((HubOp.onTransmissionEnd c).run h).1.toList := by
      show saved (finishRecording c >>= fun _ => _) _ = _
      rw [saved_bind, saved_finishRecording, onTransmissionEnd_congr hrec hnow]
      exact List.append_nil _
    show saved (handleTOTExpired c y) _ = [] ↔ _
    rw [hend, Option.toList_eq_nil_iff, savable_iff]
    simp

end Cut

section Serve

open Hub Prog

variable {h : Hub} {r : Request}

theorem entered_of_serves (hup : ∀ x choices, r ≠ .signal x .pttUp choices)
    (hchat : ∀ x p choices, r ≠ .signal x (.chatMessage p) choices) : entered r.prog h = [] := by
  refine trace_of_all HubOp.run HubOp.enters (fun op h hop => ?_) (serves_prog r) h
  cases op with
  | appendVoice c m =>
    -- by `hup` only the last branch of `servedBy` is left
    simp only [HubOp.servedBy] at hop
    cases hop
  | appendChat y m =>
    simp only [HubOp.servedBy] at hop
    cases hop
  | _ => rfl

/-- What is not entered anywhere is a voice message of no channel. -/
theorem untranscribed (hnone : entered r.prog h = []) :
    (∀ recording ∈ saved r.prog h, h.Transcribed r.prog recording) ↔ saved r.prog h = [] := by
  refine ⟨fun hall => List.eq_nil_iff_forall_not_mem.mpr fun recording hmem => ?_, ?_⟩
  · obtain ⟨m, tx, hentered, _⟩ := (hall recording hmem).entered
    rw [hnone] at hentered
    cases hentered
  · intro hnil recording hmem
    rw [hnil] at hmem
    cases hmem

/-- One handler: its recordings are voice messages when it cuts nobody off. -/
theorem transcribed_serve (hopen : h.SpeakerOpen none) :
    (∀ recording ∈ saved r.prog h, h.Transcribed r.prog recording) ↔
      ∀ c, r.cutsOff h = some c → ¬ h.Savable c := by
  by_cases hends : r.endsTransmission = true
  · cases r with
    | signal x msg choices =>
      cases msg with
      | pttDown =>
        rw [untranscribed (entered_of_serves (by simp) (by simp))]
        exact saved_handlePTTDown hopen.busy choices
      | pttUp =>
        exact iff_of_true (fun _ => transcribed_handlePTTUp hopen) fun c hc => by cases hc
      | _ => cases hends
    | totExpires c timer =>
      rw [untranscribed (entered_of_serves (by simp) (by simp))]
      exact saved_totGoroutine
    | _ => cases hends
  · have hnil : saved r.prog h = [] :=
      saved_of_all (Bool.eq_false_of_not_eq_true hends) (serves_prog r) h
    refine iff_of_true (fun recording hmem => ?_) fun c hc => ?_
    · rw [hnil] at hmem
      cases hmem
    · unfold Request.cutsOff at hc
      split at hc
      · exact absurd rfl hends
      · exact absurd rfl hends
      · cases hc

end Serve

section Open

open Hub Prog

variable {h : Hub} {op : HubOp} {c : ChannelID} {x : ClientRef} {due : Option ChannelID}

/-- The two calls between which a granted floor has no transmission of its own. -/
def HubOp.begins : HubOp → Bool
  | requestFloor .. | onTransmissionStart .. => true
  | _ => false

theorem holder_before (hop : op.begins = false) (hx : (op.run h).2.holder c = some x) :
    h.holder c = some x := by
  by_cases ht : op.target = none
  · rwa [HubOp.holder_run_of_ne (by rw [ht]; exact (Option.some_ne_none c).symm)] at hx
  by_cases htc : op.target = some c
  swap
  · rwa [HubOp.holder_run_of_ne htc] at hx
  cases op with
  | addSubscriber ch y => rwa [HubOp.holder_run_addSubscriber] at hx
  | removeSubscriber ch y =>
    obtain rfl := Option.some.inj htc
    rcases HubOp.removeSubscriber_run h ch y with ⟨_, _, hfree⟩ | ⟨_, _, hsame⟩
    · rw [hfree] at hx
      cases hx
    · rwa [hsame] at hx
  | requestFloor ch y => cases hop
  | releaseFloor ch y =>
    obtain rfl := Option.some.inj htc
    rcases HubOp.releaseFloor_run h ch y with ⟨_, _, hfree⟩ | ⟨_, _, hsame⟩
    · rw [hfree] at hx
      cases hx
    · rwa [hsame] at hx
  | handleTOT ch timer =>
    obtain rfl := Option.some.inj htc
    rcases HubOp.handleTOT_run h ch timer with ⟨_, hsame⟩ | ⟨_, _, _, hfree⟩
    · rwa [hsame] at hx
    · rw [hfree] at hx
      cases hx
  | _ => exact absurd rfl ht

theorem activeTX_before (hop : op.begins = false) {tx : TransmissionBuffer}
    (htx : (op.run h).2.activeTX c = some tx) :
    ∃ tx', h.activeTX c = some tx' ∧ tx'.speakerID = tx.speakerID := by
  cases hrecords : op.records with
  | false =>
    rw [HubOp.activeTX_run_of_not_records hrecords] at htx
    exact ⟨tx, htx, rfl⟩
  | true =>
    cases op with
    | onTransmissionStart ch y => cases hop
    | appendAudio ch payload =>
      rw [HubOp.appendAudio_run] at htx
      split_ifs at htx with hon
      · rw [← hon.1] at htx
        obtain ⟨tx', htx', rfl⟩ := Option.map_eq_some_iff.mp htx
        refine ⟨tx', htx', ?_⟩
        split_ifs
        · rfl
        · rfl
      · exact ⟨tx, htx, rfl⟩
    | onTransmissionEnd ch =>
      rw [HubOp.onTransmissionEnd_run] at htx
      split_ifs at htx
      exact ⟨tx, htx, rfl⟩
    | _ => cases hrecords

namespace Hub.SpeakerOpen

theorem call (hop : op.begins = false) (hs : h.SpeakerOpen due) :
    (op.run h).2.SpeakerOpen due where
  busy := HubOp.busyAgrees_run hs.busy op
  speaker := by
    intro c x tx hdue hx htx
    obtain ⟨tx', htx', hid⟩ := activeTX_before hop htx
    rw [← hid, HubOp.id_run]
    exact hs.speaker c x tx' hdue (holder_before hop hx) htx'
  switchedOn := by
    intro c tx htx
    obtain ⟨tx', htx', _⟩ := activeTX_before hop htx
    rw [(HubOp.switches_run op).1]
    exact hs.switchedOn c tx' htx'

/-- A channel that has answered a request is due a transmission when it has granted it. -/
theorem request (hs : h.SpeakerOpen none) (c : ChannelID) (x : ClientRef) :
    (((HubOp.requestFloor c x).run h).1.granted = true ∧
      ((HubOp.requestFloor c x).run h).2.holder c = some x ∧
      ((HubOp.requestFloor c x).run h).2.SpeakerOpen (some c)) ∨
    (((HubOp.requestFloor c x).run h).1.granted = false ∧
      ((HubOp.requestFloor c x).run h).2.SpeakerOpen none) := by
  have hbusy := HubOp.busyAgrees_run hs.busy (.requestFloor c x)
  have htx : ∀ ch, ((HubOp.requestFloor c x).run h).2.activeTX ch = h.activeTX ch :=
    HubOp.activeTX_run_of_not_records rfl
  have hon : ∀ ch tx, ((HubOp.requestFloor c x).run h).2.activeTX ch = some tx →
      ((HubOp.requestFloor c x).run h).2.recording = true := by
    intro ch tx hch
    rw [htx] at hch
    rw [(HubOp.switches_run _).1]
    exact hs.switchedOn ch tx hch
  -- where the holder is as before, so is the speaker
  have hkept : ∀ ch y tx, ((HubOp.requestFloor c x).run h).2.holder ch = h.holder ch →
      ((HubOp.requestFloor c x).run h).2.holder ch = some y →
      ((HubOp.requestFloor c x).run h).2.activeTX ch = some tx →
      tx.speakerID = (((HubOp.requestFloor c x).run h).2.heap y).id := by
    intro ch y tx hsame hy hch
    rw [HubOp.id_run]
    exact hs.speaker ch y tx (Option.some_ne_none ch).symm (hsame.symm.trans hy)
      ((htx ch).symm.trans hch)
  have hothers : ∀ ch, ch ≠ c → ((HubOp.requestFloor c x).run h).2.holder ch = h.holder ch :=
    fun ch hne => HubOp.holder_run_of_ne fun heq => hne (Option.some.inj heq).symm
  have hanswer : (((HubOp.requestFloor c x).run h).1.granted = true ∧
      ((HubOp.requestFloor c x).run h).2.holder c = some x) ∨
      (((HubOp.requestFloor c x).run h).1.granted = false ∧
      ((HubOp.requestFloor c x).run h).2.holder c = h.holder c) := by
    have hrequested := HubOp.requestFloor_run c x hs.busy
    revert hrequested
    generalize ((HubOp.requestFloor c x).run h).1 = reply
    generalize ((HubOp.requestFloor c x).run h).2.holder c = holder'
    generalize h.holder c = holder
    intro hrequested
    cases hrequested with
    | absent => exact Or.inr ⟨rfl, rfl⟩
    | free => exact Or.inl ⟨rfl, rfl⟩
    | held => exact Or.inl ⟨rfl, rfl⟩
    | preempts y hne hp => exact Or.inl ⟨rfl, rfl⟩
    | denied y hne hp => exact Or.inr ⟨rfl, rfl⟩
  rcases hanswer with ⟨hgranted, hholder⟩ | ⟨hdenied, hsame⟩
  · refine Or.inl ⟨hgranted, hholder, hbusy, fun ch y tx hne hy hch => ?_, hon⟩
    exact hkept ch y tx (hothers ch fun heq => hne (congrArg some heq.symm)) hy hch
  · refine Or.inr ⟨hdenied, hbusy, fun ch y tx _ hy hch => ?_, hon⟩
    by_cases hch' : ch = c
    · exact hkept ch y tx (by rw [hch', hsame]) hy hch
    · exact hkept ch y tx (hothers ch hch') hy hch

/-- The new holder begins its transmission. -/
theorem start (hs : h.SpeakerOpen (some c)) (hx : h.holder c = some x) :
    ((HubOp.onTransmissionStart c x).run h).2.SpeakerOpen none where
  busy := HubOp.busyAgrees_run hs.busy _
  speaker := by
    intro ch y tx _ hy htx
    have hheld : ((HubOp.onTransmissionStart c x).run h).2.holder ch = h.holder ch :=
      HubOp.holder_run_of_ne (Option.some_ne_none ch).symm
    rw [hheld] at hy
    rw [HubOp.onTransmissionStart_run] at htx
    rw [HubOp.id_run]
    split_ifs at htx with hon
    · obtain rfl := Option.some.inj htx
      rw [hon.1, hx] at hy
      rw [← Option.some.inj hy]
    · refine hs.speaker ch y tx (fun heq => hon ⟨(Option.some.inj heq).symm, ?_⟩) hy htx
      exact hs.switchedOn ch tx htx
  switchedOn := by
    intro ch tx htx
    rw [HubOp.onTransmissionStart_run] at htx
    rw [(HubOp.switches_run _).1]
    split_ifs at htx with hon
    · exact hon.2
    · exact hs.switchedOn ch tx htx

theorem after_all {α : Type} {p : HubProg α} (hp : p.All fun op => op.begins = false)
    (hs : h.SpeakerOpen due) : (after p h).SpeakerOpen due :=
  after_of_all (fun _ _ hop hs => hs.call hop) hp hs

/-- What is done for a granted request before the transmission begins. -/
theorem granted (hs : h.SpeakerOpen (some c)) (hx : h.holder c = some x)
    (preempted : Option ClientRef) :
    let opening : HubProg Unit := do
      HubOp.addTransmission.call
      ifSome preempted (finalizePreempted c x)
    (after opening h).SpeakerOpen (some c) ∧ (after opening h).holder c = some x := by
  refine after_of_all (P := fun op => op.begins = false ∧ op.target = none)
    (I := fun h => h.SpeakerOpen (some c) ∧ h.holder c = some x) ?_ ?_ ⟨hs, hx⟩
  · rintro op h ⟨hbegins, htarget⟩ ⟨hs, hx⟩
    refine ⟨hs.call hbegins, ?_⟩
    rwa [HubOp.holder_run_of_ne (by rw [htarget]; exact (Option.some_ne_none c).symm)]
  · refine all_then ⟨rfl, rfl⟩ fun _ => all_ifSome fun y => all_then ⟨rfl, rfl⟩ fun _ => ?_
    refine all_bind ?_ fun _ => all_then ⟨rfl, rfl⟩ fun _ => all_perform ⟨rfl, rfl⟩
    exact all_then ⟨rfl, rfl⟩ fun _ => all_bind (all_ifSome fun _ => all_perform ⟨rfl, rfl⟩)
      fun _ => trivial

theorem handlePTTDown (hs : h.SpeakerOpen none) (x : ClientRef) :
    (after (Hub.handlePTTDown x) h).SpeakerOpen none := by
  cases hof : h.channelOf x with
  | none =>
    have hafter : after (Hub.handlePTTDown x) h =
        after ((HubOp.sendJSON x (.error "channel not found")).call : HubProg Unit) h := by
      simp only [Hub.handlePTTDown, perform_bind, after_call]
      rw [show ((HubOp.currentChannel x).run h).1 = none from hof]
      rfl
    rw [hafter]
    exact hs.call rfl
  | some c =>
    have hafter : after (Hub.handlePTTDown x) h =
        after (answerRequest x c ((HubOp.requestFloor c x).run h).1)
          ((HubOp.requestFloor c x).run h).2 := by
      simp only [Hub.handlePTTDown, perform_bind, after_call]
      rw [show ((HubOp.currentChannel x).run h).1 = some c from hof]
      rfl
    rw [hafter]
    unfold answerRequest
    rcases hs.request c x with ⟨hgranted, hx, hs'⟩ | ⟨hdenied, hs'⟩
    · rw [if_pos hgranted]
      obtain ⟨hopening, hheld⟩ := hs'.granted hx ((HubOp.requestFloor c x).run h).1.preempted
      rw [after_bind] at hopening hheld
      rw [after_bind, after_bind, after_bind]
      -- the calls after the transmission has begun only send
      refine after_all ?_ (hopening.start hheld)
      exact all_then rfl fun _ => all_then rfl fun _ => all_then rfl fun _ => all_perform rfl
    · rw [if_neg (by rw [hdenied]; exact Bool.false_ne_true)]
      exact hs'.call rfl

/-- The speaker of an open transmission stays its channel's holder through every handler. -/
theorem serve (hs : h.SpeakerOpen none) (r : Request) : (after r.prog h).SpeakerOpen none := by
  by_cases hdown : ∃ x choices, r = .signal x .pttDown choices
  · obtain ⟨x, choices, rfl⟩ := hdown
    exact hs.handlePTTDown x
  · refine hs.after_all ((serves_prog r).mono fun op hop => ?_)
    have hno : ∀ x choices, r ≠ .signal x .pttDown choices :=
      fun x choices heq => hdown ⟨x, choices, heq⟩
    cases op with
    | requestFloor ch y =>
      simp only [HubOp.servedBy] at hop
      cases hop
    | onTransmissionStart ch y =>
      simp only [HubOp.servedBy] at hop
      cases hop
    | _ => rfl

theorem step {s t : SerialHub Unit} {e : SerialEvent} (hs : s.hub.SpeakerOpen none)
    (h : serialStep noNote s e = some t) : t.hub.SpeakerOpen none := by
  cases e with
  | serve r =>
    obtain ⟨_, hhub, _⟩ := serialStep_serve h
    rw [hhub]
    exact hs.serve r
  | timerFires ch timer =>
    obtain ⟨h', hfire, rfl⟩ := Option.map_eq_some_iff.mp h
    have hbusy := fireTimer_busyAgrees hs.busy hfire
    have hholder := fireTimer_holder hfire
    obtain ⟨chan, chan', _, _, rfl⟩ := fireTimer_eq hfire
    refine ⟨hbusy, fun c x tx hdue hx htx => ?_, hs.switchedOn⟩
    rw [hholder] at hx
    exact hs.speaker c x tx hdue hx htx
  | tick d =>
    obtain rfl := Option.some.inj h
    exact ⟨hs.busy, hs.speaker, hs.switchedOn⟩

theorem newHub (cfg : Config) (storageDir : String) (maxHistory : ℕ) (enabled : Bool) (disk : Disk)
    (roipRelay : Bool) (heap : Clients) (now : ℤ) : (TwoWayRadio.newHub cfg
      (some (newAudioRecorder storageDir maxHistory enabled disk)) roipRelay heap now).SpeakerOpen
      none where
  busy := newHub_busyAgrees cfg _ roipRelay heap now
  speaker := fun c x tx _ hx _ => by
    rw [newHub_holder] at hx
    cases hx
  switchedOn := fun c tx htx => by cases htx

end Hub.SpeakerOpen

end Open

/-- A server that records and serves one handler at a time. -/
def serialRecorder : SerialHub Unit :=
  SerialHub.init (newHub defaultConfig (some (newAudioRecorder "recordings" 100 true {})) false
    sampleClients 0) ()

/-- Unit 0 speaks for 100 ms, among the dispatcher and itself. -/
def spokenTo : List SerialEvent :=
  [.serve (.connect 0 0), .serve (.connect 1 0), .serve (.signal 0 .pttDown {}),
    .serve (.audio 0 (encodeAudioPacket 1 flagAudioFirst 0 (List.replicate 3200 0)))]

end TwoWayRadio

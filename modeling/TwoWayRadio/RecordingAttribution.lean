import TwoWayRadio.RecordingOrder

/-! Whose voice is in a recording: the history of every buffered payload beside a running server. -/
namespace TwoWayRadio
open Interleaving Transition

/-- A payload in a transmission's buffer, with the handler that put it there and the epoch in
which its packet passed the floor check. -/
structure Chunk where
  sender : Thread
  hold : ℕ
  payload : Bytes
deriving DecidableEq

/-- What is recorded of a transmission: for whom it was started, in which epoch of the floor,
and the payloads buffered since. -/
structure Take where
  speaker : ClientRef
  hold : ℕ
  chunks : List Chunk
deriving DecidableEq

/-- A saved recording with the buffer and the take it was made of. -/
structure Saved where
  channelID : ChannelID
  recording : VoiceRecording
  buffer : Option TransmissionBuffer
  take : Option Take
deriving DecidableEq

/-- `buffered` counts the bytes buffered in each epoch of a floor, `latest` is what each thread's
last `OnTransmissionEnd` saved, and `entries` are the chat history entries of `handlePTTUp` with
the recordings they were made for. -/
structure RecordingHistory where
  floors : FloorHistory
  started : ChannelID → ℕ
  takes : ChannelID → Option Take
  buffered : ChannelID → ℕ → ℕ
  saved : List Saved
  latest : Thread → Option Saved
  entries : List (ChatMessagePayload Bytes × Option Saved)

namespace RecordingHistory

def init : RecordingHistory where
  floors := FloorHistory.init
  started := fun _ => 0
  takes := fun _ => none
  buffered := fun _ _ => 0
  saved := []
  latest := fun _ => none
  entries := []

def starts (r : Request) (g : RecordingHistory) : RecordingHistory :=
  { g with floors := g.floors.starts r }

def sees (i : Thread) (op : HubOp) (r : op.Res) (h : Hub) (g : RecordingHistory) :
    RecordingHistory :=
  let g := { g with floors := g.floors.sees i op r h }
  match op, r with
  | .onTransmissionStart c x, _ => { g with
      started := Function.update g.started c (g.floors.since i)
      takes := if h.recording then Function.update g.takes c (some ⟨x, g.floors.since i, []⟩)
        else g.takes }
  | .appendAudio c payload, _ =>
    if ((HubOp.appendAudio c payload).run h).2.activeTX c = h.activeTX c then g
    else { g with
      takes := Function.update g.takes c ((g.takes c).map fun t =>
        { t with chunks := t.chunks ++ [⟨i, g.floors.since i, payload⟩] })
      buffered := Function.update g.buffered c (Function.update (g.buffered c) (g.floors.epoch c)
        (g.buffered c (g.floors.epoch c) + payload.length)) }
  | .onTransmissionEnd c, r =>
    let saved := r.map fun recording => ⟨c, recording, h.activeTX c, g.takes c⟩
    { g with
      takes := if h.recording then Function.update g.takes c none else g.takes
      saved := g.saved ++ saved.toList
      latest := Function.update g.latest i saved }
  | .appendVoice _ entry, _ => { g with entries := g.entries ++ [(entry, g.latest i)] }
  | _, _ => g

end RecordingHistory

def recordingObserver : Observer RecordingHistory where
  starts := RecordingHistory.starts
  sees := RecordingHistory.sees

theorem RecordingHistory.sees_floors (i : Thread) (op : HubOp) (r : op.Res) (h : Hub)
    (g : RecordingHistory) : (g.sees i op r h).floors = g.floors.sees i op r h := by
  cases op with
  | appendAudio c payload =>
    simp only [sees]
    split_ifs <;> rfl
  | _ => rfl

theorem recordingObserver_tracks : recordingObserver.Tracks RecordingHistory.floors where
  starts := fun _ _ => rfl
  sees := fun i op r h g => g.sees_floors i op r h

/-- The recording is labelled with `x` and holds nothing but payloads that `x` sent during one
hold of the channel's floor. -/
def Saved.AttributedTo (heap : Clients) (f : FloorHistory) (sv : Saved) (x : ClientRef) : Prop :=
  ∃ tx tk, sv.buffer = some tx ∧ sv.take = some tk ∧ tk.speaker = x ∧
    tx.speakerID = (heap x).id ∧ sv.recording.callsign = (heap x).callsign ∧
    tx.buffer = tk.chunks.flatMap Chunk.payload ∧
    tk.hold ≤ f.epoch sv.channelID ∧ f.holderAt sv.channelID tk.hold = some x ∧
    ∀ chunk ∈ tk.chunks, chunk.sender = .client x ∧ chunk.hold = tk.hold

/-- Every recording is attributed to its speaker, whom its chat entry names too. -/
def RecordingHistory.Attributed (heap : Clients) (g : RecordingHistory) : Prop :=
  (∀ sv ∈ g.saved, ∃ x, sv.AttributedTo heap g.floors x) ∧
    ∀ e ∈ g.entries, ∃ sv ∈ g.saved, ∃ x, e.2 = some sv ∧ sv.AttributedTo heap g.floors x ∧
      e.1.id = sv.recording.id ∧ e.1.senderID = (heap x).id ∧ e.1.callsign = (heap x).callsign

/-- Transmissions are started in turn: when one is, no other handler still owes the recorder
something for an earlier hold of the channel. -/
def StartsInTurn (s : Server RecordingHistory) (e : ServerEvent) : Prop :=
  ∀ i c x k, e = .advance i → s.pool.task i = .call (.onTransmissionStart c x) k →
    ∀ j d y, j ≠ i → (s.history.floors.stance j).owes = some (d, c, y) →
      s.history.floors.since i ≤ s.history.floors.since j

/-- The buffer of a channel and the take that explains it. -/
structure Take.Explains (heap : Clients) (f : FloorHistory) (c : ChannelID) (hold : ℕ)
    (tx : TransmissionBuffer) (tk : Take) : Prop where
  hold_eq : tk.hold = hold
  holder : f.holderAt c tk.hold = some tk.speaker
  speakerID : tx.speakerID = (heap tk.speaker).id
  callsign : tx.callsign = (heap tk.speaker).callsign
  bytes : tx.buffer = tk.chunks.flatMap Chunk.payload
  chunks : ∀ chunk ∈ tk.chunks, chunk.sender = .client tk.speaker ∧ chunk.hold = tk.hold

/-- Every buffer has a take of the hold started last, and what is saved or about to be put in
the chat history is attributed. -/
structure RecordingHistory.Kept (heap : Clients) (h : Hub) (g : RecordingHistory) : Prop where
  switchedOn : ∀ c tx, h.activeTX c = some tx → h.recording = true
  takes : ∀ c, (h.activeTX c = none ∧ g.takes c = none) ∨
    ∃ tx tk, h.activeTX c = some tx ∧ g.takes c = some tk ∧
      tk.Explains heap g.floors c (g.started c) tx
  attributed : g.Attributed heap
  latest : ∀ i c x recording, g.floors.stance i = .saved c x (some recording) →
    ∃ sv ∈ g.saved, g.latest i = some sv ∧ sv.recording = recording ∧
      sv.AttributedTo heap g.floors x

section Steps

variable {heap : Clients} {f : FloorHistory} {h : Hub} {g : RecordingHistory} {i : Thread}
  {op : HubOp} {c : ChannelID}

theorem RecordingHistory.Kept.of_take (hk : g.Kept heap h) {tk : Take}
    (htk : g.takes c = some tk) :
    ∃ tx, h.activeTX c = some tx ∧ tk.Explains heap g.floors c (g.started c) tx := by
  rcases hk.takes c with ⟨_, hnone⟩ | ⟨tx, tk', htx, htk', he⟩
  · rw [htk] at hnone
    cases hnone
  · rw [htk] at htk'
    obtain rfl := Option.some.inj htk'
    exact ⟨tx, htx, he⟩

theorem RecordingHistory.Kept.of_activeTX (hk : g.Kept heap h) {tx : TransmissionBuffer}
    (htx : h.activeTX c = some tx) :
    ∃ tk, g.takes c = some tk ∧ tk.Explains heap g.floors c (g.started c) tx := by
  rcases hk.takes c with ⟨hnone, _⟩ | ⟨tx', tk, htx', htk, he⟩
  · rw [htx] at hnone
    cases hnone
  · rw [htx] at htx'
    obtain rfl := Option.some.inj htx'
    exact ⟨tk, htk, he⟩

/-- Later epochs do not change what is known of earlier ones. -/
theorem Saved.AttributedTo.sees {sv : Saved} {x : ClientRef} (ha : sv.AttributedTo heap f x)
    (hcurrent : ∀ c, f.holderAt c (f.epoch c) = h.holder c) :
    sv.AttributedTo heap (f.sees i op (op.run h).1 h) x := by
  obtain ⟨tx, tk, htx, htk, hsp, hid, hcs, hbytes, hle, hheld, hchunks⟩ := ha
  refine ⟨tx, tk, htx, htk, hsp, hid, hcs, hbytes,
    hle.trans (FloorHistory.epoch_le_epochAfter op h f _), ?_, hchunks⟩
  rw [FloorHistory.sees_holderAt_past i _ (hcurrent _) hle]
  exact hheld

theorem Take.Explains.sees {hold : ℕ} {tx : TransmissionBuffer} {tk : Take}
    (he : tk.Explains heap f c hold tx) (hle : hold ≤ f.epoch c)
    (hcurrent : ∀ c, f.holderAt c (f.epoch c) = h.holder c) :
    tk.Explains heap (f.sees i op (op.run h).1 h) c hold tx := by
  refine ⟨he.hold_eq, ?_, he.speakerID, he.callsign, he.bytes, he.chunks⟩
  rw [FloorHistory.sees_holderAt_past i _ (hcurrent c) (he.hold_eq ▸ hle)]
  exact he.holder

/-- A handler has saved a recording once its `OnTransmissionEnd` has. -/
theorem Stance.next_saved {s : Stance} {r : op.Res} {x : ClientRef}
    {recording : Option VoiceRecording} (hs : s.next op r = .saved c x recording) :
    s = .saved c x recording ∨ ∃ c', op = .onTransmissionEnd c' ∧ s = .released c x := by
  have htold : ∀ {msg : Signal} {moved stays : Stance},
      told msg moved stays = .saved c x recording → moved ≠ .saved c x recording →
      stays = .saved c x recording := by
    intro msg moved stays ht hm
    exact told_rule (fun s => s = .saved c x recording → stays = .saved c x recording)
      (fun _ h => absurd h hm) id ht
  revert hs
  fun_cases next s op r <;> intro hs <;> first
    | exact Or.inl hs
    | exact absurd hs Stance.noConfusion
    | exact absurd (htold hs Stance.noConfusion) Stance.noConfusion
    | exact Or.inl (htold hs Stance.noConfusion)
    | exact absurd hs (elim_rule (fun s => s ≠ .saved c x recording) Stance.noConfusion
        fun _ => Stance.noConfusion)
    | (cases hs; exact Or.inr ⟨_, rfl, rfl⟩)

/-- The three stances that wait for the end of a transmission. -/
theorem Stance.expects_end {can : (op : HubOp) → op.Res → Prop} {s : Stance}
    (hok : (HubOp.onTransmissionEnd c).background = true ∨
      s.expects can i (.onTransmissionEnd c)) :
    (∃ x y, s = .preempting c x y) ∨ (∃ x, s = .released c x) ∨ ∃ x, s = .expired c x := by
  rcases hok with hback | hexp
  · exact absurd hback Bool.false_ne_true
  · cases s with
    | preempting c' x y =>
      obtain rfl := hexp
      exact Or.inl ⟨x, y, rfl⟩
    | released c' x =>
      obtain rfl := hexp
      exact Or.inr (Or.inl ⟨x, rfl⟩)
    | expired c' x =>
      obtain rfl := hexp
      exact Or.inr (Or.inr ⟨x, rfl⟩)
    | fresh => exact absurd hexp Bool.false_ne_true
    | _ => exact hexp.elim

namespace RecordingHistory.Kept

variable (hk : g.Kept heap h) (hcurrent : ∀ c, g.floors.holderAt c (g.floors.epoch c) = h.holder c)
include hk hcurrent

variable (i op) in
theorem attributed_sees :
    { g with floors := g.floors.sees i op (op.run h).1 h }.Attributed heap := by
  refine ⟨fun sv hsv => ?_, fun e he => ?_⟩
  · obtain ⟨x, hx⟩ := hk.attributed.1 sv hsv
    exact ⟨x, hx.sees hcurrent⟩
  · obtain ⟨sv, hsv, x, heq, hx, hnames⟩ := hk.attributed.2 e he
    exact ⟨sv, hsv, x, heq, hx.sees hcurrent, hnames⟩

theorem latest_sees (hop : ∀ c, op ≠ .onTransmissionEnd c) {j : Thread} {x : ClientRef}
    {recording : VoiceRecording}
    (hj : (g.floors.sees i op (op.run h).1 h).stance j = .saved c x (some recording)) :
    ∃ sv ∈ g.saved, g.latest j = some sv ∧ sv.recording = recording ∧
      sv.AttributedTo heap (g.floors.sees i op (op.run h).1 h) x := by
  have hold : g.floors.stance j = .saved c x (some recording) := by
    by_cases heq : j = i
    · rw [heq] at hj ⊢
      rw [FloorHistory.sees_stance_self] at hj
      rcases Stance.next_saved hj with hs | ⟨c', hend, _⟩
      · exact hs
      · exact absurd hend (hop c')
    · rwa [FloorHistory.sees_stance_of_ne heq] at hj
  obtain ⟨sv, hsv, hlatest, hrec, hx⟩ := hk.latest j c x recording hold
  exact ⟨sv, hsv, hlatest, hrec, hx.sees hcurrent⟩

variable (i op) in
theorem takes_sees (hle : ∀ c, g.started c ≤ g.floors.epoch c) (c : ChannelID) :
    (h.activeTX c = none ∧ g.takes c = none) ∨
      ∃ tx tk, h.activeTX c = some tx ∧ g.takes c = some tk ∧
        tk.Explains heap (g.floors.sees i op (op.run h).1 h) c (g.started c) tx := by
  rcases hk.takes c with hnone | ⟨tx, tk, htx, htk, he⟩
  · exact Or.inl hnone
  · exact Or.inr ⟨tx, tk, htx, htk, he.sees (hle c) hcurrent⟩

/-- A call that neither records nor writes a chat entry. -/
theorem other (hle : ∀ c, g.started c ≤ g.floors.epoch c) (hop : op.records = false)
    (hsees : g.sees i op (op.run h).1 h = { g with floors := g.floors.sees i op (op.run h).1 h }) :
    (g.sees i op (op.run h).1 h).Kept heap (op.run h).2 := by
  rw [hsees]
  refine ⟨fun c tx hc => ?_, fun c => ?_, attributed_sees _ _ hk hcurrent,
    fun j c x recording hj => ?_⟩
  · rw [HubOp.activeTX_run_of_not_records hop] at hc
    rw [(HubOp.switches_run op).1]
    exact hk.switchedOn c tx hc
  · rw [HubOp.activeTX_run_of_not_records hop]
    exact takes_sees _ _ hk hcurrent hle c
  · exact latest_sees hk hcurrent (fun c heq => by rw [heq] at hop; cases hop) hj

/-- The grant's holder starts a transmission with an empty buffer. -/
theorem start (hle : ∀ c, g.started c ≤ g.floors.epoch c) (hnames : h.heap.SameNames heap)
    {x : ClientRef} (hheld : g.floors.holderAt c (g.floors.since i) = some x)
    (hsince : g.floors.since i ≤ g.floors.epoch c) :
    (g.sees i (.onTransmissionStart c x) ((HubOp.onTransmissionStart c x).run h).1 h).Kept heap
      ((HubOp.onTransmissionStart c x).run h).2 := by
  have hnow : (g.floors.sees i (.onTransmissionStart c x)
      ((HubOp.onTransmissionStart c x).run h).1 h).since i = g.floors.since i :=
    FloorHistory.sees_since_unlooked i rfl _
  refine ⟨fun c' tx hc' => ?_, fun c' => ?_, attributed_sees _ _ hk hcurrent,
    fun j c' y recording hj => ?_⟩
  · rw [(HubOp.switches_run _).1]
    rw [HubOp.onTransmissionStart_run] at hc'
    split_ifs at hc' with hrec
    · exact hrec.2
    · exact hk.switchedOn c' tx hc'
  · rw [HubOp.onTransmissionStart_run]
    -- on `c` the take is a new one, and on every other channel nothing changes
    show (_ ∧ (if h.recording = true then Function.update g.takes c _ else g.takes) c' = none) ∨
      ∃ tx tk, _ ∧ (if h.recording = true then Function.update g.takes c _ else g.takes) c' =
        some tk ∧ tk.Explains heap _ c' (Function.update g.started c _ c') tx
    rw [hnow]
    by_cases heq : c' = c
    · rw [heq]
      by_cases hrec : h.recording = true
      · rw [if_pos ⟨rfl, hrec⟩, if_pos hrec, Function.update_self, Function.update_self]
        refine Or.inr ⟨_, _, rfl, rfl, rfl, ?_, (hnames x).1, (hnames x).2, rfl,
          fun _ h => by cases h⟩
        exact (FloorHistory.sees_holderAt_past i _ (hcurrent c) hsince).trans hheld
      · -- nothing is recorded while the recorder is switched off, so there is no take to keep
        rw [if_neg (fun hp => hrec hp.2), if_neg hrec, Function.update_self]
        rcases hk.takes c with hnone | ⟨tx, tk, htx, _, _⟩
        · exact Or.inl hnone
        · exact absurd (hk.switchedOn c tx htx) hrec
    · rw [if_neg (fun hp => heq hp.1), Function.update_of_ne heq]
      have htakes : (if h.recording = true then
          Function.update g.takes c (some ⟨x, g.floors.since i, []⟩) else g.takes) c' =
          g.takes c' := by
        split_ifs
        · exact Function.update_of_ne heq ..
        · rfl
      rw [htakes]
      exact takes_sees _ _ hk hcurrent hle c'
  · exact latest_sees hk hcurrent (fun _ => HubOp.noConfusion) hj

/-- A payload is added to the take of the hold that its packet was checked in. -/
theorem append (hle : ∀ c, g.started c ≤ g.floors.epoch c) {x : ClientRef} {payload : Bytes}
    (hi : i = .client x) (hheld : g.floors.holderAt c (g.floors.since i) = some x)
    (hstarted : g.started c = g.floors.since i) :
    (g.sees i (.appendAudio c payload) ((HubOp.appendAudio c payload).run h).1 h).Kept heap
      ((HubOp.appendAudio c payload).run h).2 := by
  have hon : ∀ c' tx, ((HubOp.appendAudio c payload).run h).2.activeTX c' = some tx →
      ((HubOp.appendAudio c payload).run h).2.recording = true := by
    intro c' tx hc'
    rw [(HubOp.switches_run _).1]
    rw [HubOp.appendAudio_run] at hc'
    split_ifs at hc' with hrec
    · exact hrec.2
    · exact hk.switchedOn c' tx hc'
  have hothers : ∀ c', c' ≠ c →
      ((HubOp.appendAudio c payload).run h).2.activeTX c' = h.activeTX c' := by
    intro c' hne
    rw [HubOp.appendAudio_run, if_neg fun hp => hne hp.1]
  have hnow : (g.floors.sees i (.appendAudio c payload)
      ((HubOp.appendAudio c payload).run h).1 h).since i = g.floors.since i :=
    FloorHistory.sees_since_unlooked i rfl _
  unfold RecordingHistory.sees
  dsimp only
  -- without a transmission, or with no payload, the recorder stays as it is
  by_cases hsame : ((HubOp.appendAudio c payload).run h).2.activeTX c = h.activeTX c
  · rw [if_pos hsame]
    refine ⟨hon, fun c' => ?_, attributed_sees _ _ hk hcurrent, fun j c' y recording hj =>
      latest_sees hk hcurrent (fun _ => HubOp.noConfusion) hj⟩
    have hact : ((HubOp.appendAudio c payload).run h).2.activeTX c' = h.activeTX c' := by
      by_cases heq : c' = c
      · rw [heq, hsame]
      · exact hothers c' heq
    rw [hact]
    exact takes_sees _ _ hk hcurrent hle c'
  · rw [if_neg hsame]
    refine ⟨hon, fun c' => ?_, attributed_sees _ _ hk hcurrent, fun j c' y recording hj =>
      latest_sees hk hcurrent (fun _ => HubOp.noConfusion) hj⟩
    dsimp only
    by_cases heq : c' = c
    · rw [heq, Function.update_self]
      rcases takes_sees i (.appendAudio c payload) hk hcurrent hle c with
        ⟨hnone, _⟩ | ⟨tx, tk, htx, htk, he⟩
      · refine absurd ?_ hsame
        rw [HubOp.appendAudio_run, hnone]
        split_ifs <;> rfl
      · have hnew : ((HubOp.appendAudio c payload).run h).2.activeTX c =
            some { tx with buffer := tx.buffer ++ payload } := by
          rw [HubOp.appendAudio_run, htx] at hsame ⊢
          rw [Option.map_some] at hsame ⊢
          split_ifs at hsame ⊢ <;> first | rfl | exact absurd rfl hsame
        -- the epoch of the packet is the one the take was started in, and has one holder
        have hspeaker : tk.speaker = x := by
          have hholder := he.holder
          rw [he.hold_eq, FloorHistory.sees_holderAt_past i _ (hcurrent c) (hle c), hstarted,
            hheld] at hholder
          exact (Option.some.inj hholder).symm
        rw [hnew, htk]
        refine Or.inr ⟨_, _, rfl, rfl, he.hold_eq, he.holder, he.speakerID, he.callsign, ?_, ?_⟩
        · show tx.buffer ++ payload = _
          rw [List.flatMap_append, he.bytes]
          simp
        · intro chunk hchunk
          rcases List.mem_append.mp hchunk with hold | hnew
          · exact he.chunks chunk hold
          · obtain rfl := List.mem_singleton.mp hnew
            exact ⟨hi.trans (congrArg _ hspeaker.symm),
              hnow.trans (hstarted.symm.trans he.hold_eq.symm)⟩
    · rw [hothers c' heq, Function.update_of_ne heq]
      exact takes_sees _ _ hk hcurrent hle c'

/-- What is saved at the end of a transmission is attributed to the speaker of its take; after a
`ptt_up` that is the client that has released the floor. -/
theorem finish (hle : ∀ c, g.started c ≤ g.floors.epoch c)
    {can : (op : HubOp) → op.Res → Prop}
    (hok : (HubOp.onTransmissionEnd c).background = true ∨
      (g.floors.stance i).expects can i (.onTransmissionEnd c))
    (hheld : ∀ x, g.floors.stance i = .released c x →
      g.floors.holderAt c (g.started c) = some x) :
    (g.sees i (.onTransmissionEnd c) ((HubOp.onTransmissionEnd c).run h).1 h).Kept heap
      ((HubOp.onTransmissionEnd c).run h).2 := by
  -- what is saved is the take that the recorder has had so far
  have hsaved : ∀ recording, ((HubOp.onTransmissionEnd c).run h).1 = some recording →
      ∃ tk, g.takes c = some tk ∧ g.floors.holderAt c (g.started c) = some tk.speaker ∧
        Saved.AttributedTo heap (g.floors.sees i (.onTransmissionEnd c)
          ((HubOp.onTransmissionEnd c).run h).1 h)
          ⟨c, recording, h.activeTX c, g.takes c⟩ tk.speaker := by
    intro recording hr
    rw [HubOp.onTransmissionEnd_saved] at hr
    by_cases hrec : h.recording = true
    swap
    · rw [if_neg hrec] at hr
      cases hr
    rw [if_pos hrec] at hr
    obtain ⟨tx, htx, hr⟩ := Option.bind_eq_some_iff.mp hr
    split_ifs at hr
    obtain rfl := Option.some.inj hr
    obtain ⟨tk, htk, he⟩ := hk.of_activeTX htx
    have hat := FloorHistory.sees_holderAt_past i
      ((HubOp.onTransmissionEnd c).run h).1 (hcurrent c) (hle c)
    refine ⟨tk, htk, by rw [← he.hold_eq, he.holder], tx, tk, htx, htk, rfl, he.speakerID,
      he.callsign, he.bytes, ?_, ?_, he.chunks⟩
    · rw [he.hold_eq]
      exact (hle c).trans (FloorHistory.epoch_le_epochAfter _ h g.floors c)
    · show (g.floors.sees i (.onTransmissionEnd c) _ h).holderAt c tk.hold = some tk.speaker
      rw [he.hold_eq, hat, ← he.hold_eq, he.holder]
  have hold := attributed_sees i (.onTransmissionEnd c) hk hcurrent
  refine ⟨fun c' tx hc' => ?_, fun c' => ?_, ⟨fun sv hsv => ?_, fun e he => ?_⟩,
    fun j c' y recording hj => ?_⟩
  · rw [(HubOp.switches_run _).1]
    rw [HubOp.onTransmissionEnd_run] at hc'
    split_ifs at hc' with hrec
    exact hk.switchedOn c' tx hc'
  · rw [HubOp.onTransmissionEnd_run]
    show (_ ∧ (if h.recording = true then Function.update g.takes c none else g.takes) c' = none) ∨
      ∃ tx tk, _ ∧ (if h.recording = true then Function.update g.takes c none else g.takes) c' =
        some tk ∧ tk.Explains heap _ c' (g.started c') tx
    by_cases hrec : h.recording = true
    · rw [if_pos hrec]
      by_cases heq : c' = c
      · rw [heq, if_pos ⟨rfl, hrec⟩, Function.update_self]
        exact Or.inl ⟨rfl, rfl⟩
      · rw [if_neg fun hp => heq hp.1, Function.update_of_ne heq]
        exact takes_sees _ _ hk hcurrent hle c'
    · rw [if_neg fun hp => hrec hp.2, if_neg hrec]
      exact takes_sees _ _ hk hcurrent hle c'
  · rcases List.mem_append.mp hsv with hsv | hsv
    · exact hold.1 sv hsv
    · obtain ⟨recording, hr, rfl⟩ := Option.map_eq_some_iff.mp (Option.mem_toList.mp hsv)
      obtain ⟨tk, _, _, hx⟩ := hsaved recording hr
      exact ⟨tk.speaker, hx⟩
  · obtain ⟨sv, hsv, hrest⟩ := hold.2 e he
    exact ⟨sv, List.mem_append_left _ hsv, hrest⟩
  · -- only `i` has saved anything here, and of its stances only a release has an entry due
    have hlatest : ∀ {j}, j ≠ i → (g.sees i (.onTransmissionEnd c)
        ((HubOp.onTransmissionEnd c).run h).1 h).latest j = g.latest j :=
      fun hne => Function.update_of_ne hne ..
    by_cases heq : j = i
    · rw [heq] at hj ⊢
      rw [sees_floors, FloorHistory.sees_stance_self] at hj
      rcases Stance.expects_end hok with ⟨x, y', hst⟩ | ⟨x, hst⟩ | ⟨x, hst⟩ <;> rw [hst] at hj
      · cases hj
      · have hsaves : Stance.saved c x ((HubOp.onTransmissionEnd c).run h).1 =
          .saved c' y (some recording) := hj
        cases hr : ((HubOp.onTransmissionEnd c).run h).1 with
        | none =>
          rw [hr] at hsaves
          cases hsaves
        | some recording' =>
          rw [hr] at hsaves
          cases hsaves
          obtain ⟨tk, htk, hspeaker, hx⟩ := hsaved recording hr
          rw [hheld y hst] at hspeaker
          rw [← Option.some.inj hspeaker] at hx
          rw [hr] at hx
          exact ⟨_, List.mem_append_right _ (Option.mem_toList.mpr rfl),
            Function.update_self .., rfl, hx⟩
      · cases hj
    · rw [sees_floors, FloorHistory.sees_stance_of_ne heq] at hj
      obtain ⟨sv, hsv, hlast, hrec, hx⟩ := hk.latest j c' y recording hj
      exact ⟨sv, List.mem_append_left _ hsv, (hlatest heq).trans hlast, hrec, hx.sees hcurrent⟩

/-- The chat entry names the client whose recording was saved. -/
theorem voice (hle : ∀ c, g.started c ≤ g.floors.epoch c) {x : ClientRef} {speaker : Client}
    {recording : VoiceRecording} (hstance : g.floors.stance i = .saved c x (some recording))
    (hnames : speaker.id = (heap x).id ∧ speaker.callsign = (heap x).callsign) :
    (g.sees i (.appendVoice c (Hub.voiceEntry c speaker recording)) () h).Kept heap
      ((HubOp.appendVoice c (Hub.voiceEntry c speaker recording)).run h).2 := by
  have hold := attributed_sees i (.appendVoice c (Hub.voiceEntry c speaker recording))
    hk hcurrent
  obtain ⟨sv, hsv, hlatest, hrec, hx⟩ := hk.latest i c x recording hstance
  refine ⟨hk.switchedOn, takes_sees _ _ hk hcurrent hle, ⟨hold.1, fun e he => ?_⟩,
    fun j c' y r hj => latest_sees hk hcurrent (fun _ => HubOp.noConfusion) hj⟩
  rcases List.mem_append.mp he with he | he
  · exact hold.2 e he
  · obtain rfl := List.mem_singleton.mp he
    exact ⟨sv, hsv, x, hlatest, hx.sees hcurrent, congrArg VoiceRecording.id hrec.symm, hnames⟩

end RecordingHistory.Kept

/-- A handler starts. -/
theorem RecordingHistory.Kept.starts {r : Request} (hk : g.Kept heap h) :
    (g.starts r).Kept heap h := by
  refine ⟨hk.switchedOn, fun c => ?_, hk.attributed, fun j c x recording hj => ?_⟩
  · rcases hk.takes c with hnone | ⟨tx, tk, htx, htk, he⟩
    · exact Or.inl hnone
    · exact Or.inr ⟨tx, tk, htx, htk, he.hold_eq, he.holder, he.speakerID, he.callsign, he.bytes,
        he.chunks⟩
  by_cases heq : j = r.thread
  · have hself : (g.floors.starts r).stance j = r.stance := by
      rw [heq]
      exact Function.update_self ..
    have hnot : r.stance ≠ .saved c x (some recording) := r.stance_rule
      (P := fun s => s ≠ .saved c x (some recording)) Stance.noConfusion
      (fun _ => Stance.noConfusion) (fun _ => Stance.noConfusion) fun _ => Stance.noConfusion
    exact absurd (hself.symm.trans hj) hnot
  · have hother : (g.floors.starts r).stance j = g.floors.stance j := Function.update_of_ne heq ..
    exact hk.latest j c x recording (hother.symm.trans hj)

/-- A change of the hub that the recorder takes no part in. -/
theorem RecordingHistory.Kept.environment {h' : Hub} (hk : g.Kept heap h)
    (hh : h'.recorder = h.recorder) : g.Kept heap h' := by
  have hact : ∀ c, h'.activeTX c = h.activeTX c := fun c => by
    rw [Hub.activeTX, hh, Hub.activeTX]
  refine ⟨fun c tx hc => ?_, fun c => ?_, hk.attributed, hk.latest⟩
  · rw [Hub.recording, hh]
    exact hk.switchedOn c tx ((hact c).symm.trans hc)
  · rw [hact]
    exact hk.takes c

end Steps

/-- The invariant of the runs in which transmissions start in turn. -/
structure Attributing (heap : Clients) (s : Server RecordingHistory) : Prop where
  named : FloorHistory.Named heap s.hub s.pool.task s.history.floors
  inTurn : InTurn s.hub s.history.floors s.history.started
  kept : s.history.Kept heap s.hub

/-- A handler makes its next call. -/
theorem Attributing.call {heap : Clients} {h : Hub} {g : RecordingHistory}
    {task : Thread → HubProg Unit} {i : Thread} {op : HubOp} {k : op.Res → HubProg Unit}
    (hn : FloorHistory.Named heap h task g.floors) (ht : InTurn h g.floors g.started)
    (hk : g.Kept heap h) (hi : task i = .call op k)
    (hturn : ∀ c x, op = .onTransmissionStart c x → ∀ j d y, j ≠ i →
      (g.floors.stance j).owes = some (d, c, y) → g.floors.since i ≤ g.floors.since j) :
    InTurn (op.run h).2 (g.sees i op (op.run h).1 h).floors
        (g.sees i op (op.run h).1 h).started ∧
      (g.sees i op (op.run h).1 h).Kept heap (op.run h).2 := by
  have hfollows := hn.sound.follows i
  rw [hi] at hfollows
  obtain ⟨hok, _⟩ := hfollows
  have hle := ht.started_le_epoch
  have hcurrent := hn.sound.current
  have hbelieves := hn.sound.believes i
  -- every other call leaves the starts as they are
  have hnormal : (∀ c x, op ≠ .onTransmissionStart c x) →
      InTurn (op.run h).2 (g.floors.sees i op (op.run h).1 h) g.started := by
    intro hstart
    cases hop : op.looksAt with
    | none => exact ht.unlooked hcurrent hok hop hstart
    | some c => exact ht.look hn.sound.busyAgrees hcurrent hok hop
  cases op with
  | onTransmissionStart c x =>
    have hst := Stance.granted_of_start hok
    have hch : (g.floors.stance i).channel = some c := by rw [hst]; rfl
    have hheld := hbelieves c hch
    rw [hst] at hheld
    refine ⟨?_, hk.start hcurrent hle hn.names hheld (hn.sound.since_le i c hch)⟩
    have hstart := ht.start hn.sound hst (hturn c x rfl)
    have hsince : (g.floors.sees i (.onTransmissionStart c x) () h).since i = g.floors.since i :=
      FloorHistory.sees_since_unlooked i rfl _
    rw [← hsince] at hstart
    exact hstart
  | appendAudio c payload =>
    have hrest := hnormal fun _ _ => HubOp.noConfusion
    obtain ⟨x, hst, hx⟩ := Stance.appending_of_append hok
    have hch : (g.floors.stance i).channel = some c := by rw [hst]; rfl
    have hheld := hbelieves c hch
    rw [hst] at hheld
    have hstarted := ht.append i c x (by rw [hst]; rfl)
    refine ⟨?_, hk.append hcurrent hle hx hheld hstarted⟩
    rw [RecordingHistory.sees_floors]
    have hsame : (g.sees i (.appendAudio c payload)
        ((HubOp.appendAudio c payload).run h).1 h).started = g.started := by
      simp only [RecordingHistory.sees]
      split_ifs <;> rfl
    rw [hsame]
    exact hrest
  | onTransmissionEnd c =>
    refine ⟨hnormal fun _ _ => HubOp.noConfusion, hk.finish hcurrent hle hok fun x hst => ?_⟩
    exact (ht.finish i c x (by rw [hst]; rfl)).2
  | appendVoice c entry =>
    refine ⟨hnormal fun _ _ => HubOp.noConfusion, ?_⟩
    rcases hok with hback | hexp
    · exact absurd hback Bool.false_ne_true
    cases hst : g.floors.stance i with
    | saved c' x r =>
      rw [hst] at hexp
      obtain ⟨rfl, f, recording, hf, rfl, rfl⟩ := hexp
      exact hk.voice hcurrent hle hst hf
    | fresh => rw [hst] at hexp; exact absurd hexp Bool.false_ne_true
    | _ => rw [hst] at hexp; exact hexp.elim
  | _ => exact ⟨hnormal fun _ _ => HubOp.noConfusion, hk.other hcurrent hle rfl rfl⟩

theorem Attributing.step {heap : Clients} {s t : Server RecordingHistory} {e : ServerEvent}
    (hs : Attributing heap s) (he : e.renames = false) (hturn : StartsInTurn s e)
    (h : serverStep recordingObserver s e = some t) : Attributing heap t := by
  have hnamed := FloorHistory.named_step recordingObserver_tracks he hs.named h
  cases e with
  | serve r =>
    obtain ⟨_, hidle, _⟩ := serverStep_serve h
    obtain ⟨hhub, hstarts⟩ := serverStep_starts h
    have hhist : t.history = s.history.starts r := hstarts
    have hfresh : s.history.floors.stance r.thread = .fresh := by
      have hfollows := hs.named.sound.follows r.thread
      rw [hidle] at hfollows
      exact hfollows
    refine ⟨hnamed, ?_, ?_⟩ <;> rw [hhub, hhist]
    · exact hs.inTurn.starts (by rw [hfresh]; rfl)
    · exact hs.kept.starts
  | advance i =>
    obtain ⟨op, k, hk, _, hhub, hhist, _⟩ := serverStep_advance h
    obtain ⟨hinTurn, hkept⟩ := Attributing.call hs.named hs.inTurn hs.kept hk
      (fun c x hop => by subst hop; exact hturn i c x k rfl hk)
    refine ⟨hnamed, ?_, ?_⟩ <;> rw [hhub, hhist]
    · exact hinTurn
    · exact hkept
  | timerFires ch timer =>
    obtain ⟨hf, _, hhist, _⟩ := serverStep_timerFires h
    have hholder := Hub.fireTimer_holder hf
    obtain ⟨_, _, _, _, heq⟩ := Hub.fireTimer_eq hf
    refine ⟨hnamed, ?_, ?_⟩ <;> rw [hhist]
    · exact hs.inTurn.environment hholder
    · exact hs.kept.environment (by rw [heq])
  | tick d =>
    obtain ⟨hhub, _, hhist, _⟩ := serverStep_tick h
    refine ⟨hnamed, ?_, ?_⟩ <;> rw [hhist, hhub]
    · exact hs.inTurn.environment fun _ => rfl
    · exact hs.kept.environment rfl

theorem Attributing.init (cfg : Config) (storageDir : String) (maxHistory : ℕ) (enabled : Bool)
    (disk : Disk) (roipRelay : Bool) (heap : Clients) (now : ℤ) :
    Attributing heap (Server.init
      (newHub cfg (some (newAudioRecorder storageDir maxHistory enabled disk)) roipRelay heap now)
      RecordingHistory.init) where
  named := FloorHistory.named_init ..
  inTurn := {
    owner := fun i d c x hi => by cases hi
    started_le := fun i d c x hi => by cases hi
    started_le_epoch := fun c => le_rfl
    begun := fun c x hc => by
      rw [Server.hub, Server.init, newHub_holder] at hc
      cases hc
    append := fun i c x hi => by cases hi
    finish := fun i c x hi => by cases hi }
  kept := {
    switchedOn := fun c tx hc => by cases hc
    takes := fun c => Or.inl ⟨rfl, rfl⟩
    attributed := ⟨fun sv hsv => (by cases hsv), fun e he => (by cases he)⟩
    latest := fun i c x recording hi => by cases hi }

/-- In a run whose transmissions all start in turn, every recording holds only what its speaker
sent during one hold, and its chat entry names that speaker. -/
theorem recordings_attributed (cfg : Config) (storageDir : String) (maxHistory : ℕ)
    (enabled : Bool) (disk : Disk) (roipRelay : Bool) (heap : Clients) (now : ℤ)
    {es : List ServerEvent} {s : Server RecordingHistory}
    (hrun : Run (serverStep recordingObserver) (Server.init
      (newHub cfg (some (newAudioRecorder storageDir maxHistory enabled disk)) roipRelay heap now)
      RecordingHistory.init) es s)
    (hnames : ∀ e ∈ es, e.renames = false)
    (hturn : Guarded (serverStep recordingObserver) StartsInTurn (Server.init
      (newHub cfg (some (newAudioRecorder storageDir maxHistory enabled disk)) roipRelay heap now)
      RecordingHistory.init) es) :
    s.history.Attributed heap := by
  have hinv := hrun.invariant_of_guarded (I := Attributing heap)
    (fun s e t hs hg h => hs.step hg.1 hg.2 h) (hturn.and_forall hnames)
    (Attributing.init cfg storageDir maxHistory enabled disk roipRelay heap now)
  exact hinv.kept.attributed

/-- A recorder on a disk that can be written to. -/
def recordingServer : Server RecordingHistory :=
  Server.init (newHub defaultConfig (some (newAudioRecorder "recordings" 100 true {})) false
    sampleClients 0) RecordingHistory.init

/-- 100 ms of silence from `x`. -/
def silence (x : ClientRef) : Request :=
  .audio x (encodeAudioPacket 1 flagAudioFirst 0 (List.replicate 3200 0))

/-- A packet of unit 0 passes the floor check; unit 1 preempts unit 0 and starts its transmission;
the packet goes into its buffer, and unit 1 releases the floor. -/
def overtakenRun : List ServerEvent :=
  uninterrupted (.connect 0 0) 10 ++ uninterrupted (.connect 1 0) 10 ++
    uninterrupted (.signal 0 .pttDown {}) 8 ++ uninterrupted (silence 0) 4 ++
    uninterrupted (.signal 1 .pttDown {}) 12 ++ [.advance (.client 0)] ++
    uninterrupted (.signal 1 .pttUp {}) 3

/-- The recording of unit 1 consists of what unit 0 said. -/
theorem recordings_attributed_fails :
    ∃ s, Run (serverStep recordingObserver) recordingServer overtakenRun s ∧
      (∀ e ∈ overtakenRun, e.renames = false) ∧ ¬ s.history.Attributed sampleClients := by
  have hrun := run_get (serverStep recordingObserver) recordingServer overtakenRun
    (by decide +kernel)
  refine ⟨_, hrun, by decide, fun h => ?_⟩
  have hsaved : (((overtakenRun.foldlM (serverStep recordingObserver) recordingServer).get
      (by decide +kernel)).history.saved.any fun sv => sv.take.any fun tk =>
        tk.speaker = 1 ∧ tk.chunks.map Chunk.sender = [.client 0]) = true := by
    decide +kernel
  obtain ⟨sv, hsv, hforeign⟩ := List.any_eq_true.mp hsaved
  obtain ⟨x, tx, tk, _, htk, rfl, _, _, _, _, _, hchunks⟩ := h.1 sv hsv
  rw [htk] at hforeign
  obtain ⟨hone, hzero⟩ := of_decide_eq_true hforeign
  cases hlist : tk.chunks with
  | nil =>
    rw [hlist] at hzero
    cases hzero
  | cons chunk chunks =>
    rw [hlist] at hzero
    have hsender := (hchunks chunk (by rw [hlist]; exact List.mem_cons_self)).1
    rw [hone, (List.cons.inj hzero).1] at hsender
    cases hsender

/-- A handler that runs alone starts its transmissions in turn. -/
theorem startsInTurn_of_alone {i : Thread} {es : List ServerEvent} {s : Server RecordingHistory}
    (hes : ∀ e ∈ es, e.thread = none ∨ e.thread = some i)
    (hs : ∀ j, j ≠ i → (s.history.floors.stance j).owes = none) :
    Guarded (serverStep recordingObserver) StartsInTurn s es := by
  induction es generalizing s with
  | nil => trivial
  | cons e es ih =>
    intro t h
    have he := hes e List.mem_cons_self
    refine ⟨fun i' c x k hadv _ j d y hj howes => ?_,
      ih (fun e' he' => hes e' (List.mem_cons_of_mem e he')) fun j hj => ?_⟩
    · subst hadv
      rcases he with he | he
      · cases he
      · rw [Option.some.inj he] at hj
        rw [hs j hj] at howes
        cases howes
    · have hunmoved : e.thread ≠ some j := by
        rcases he with he | he <;> rw [he]
        · exact (Option.some_ne_none j).symm
        · exact fun heq => hj (Option.some.inj heq).symm
      rw [FloorHistory.stance_of_unmoved recordingObserver_tracks h hunmoved]
      exact hs j hj

/-- Unit 0 speaks for 100 ms. -/
def shortTalk : List ServerEvent :=
  uninterrupted (.connect 0 0) 10 ++ uninterrupted (.signal 0 .pttDown {}) 8 ++
    uninterrupted (silence 0) 7 ++ uninterrupted (.signal 0 .pttUp {}) 9

theorem recordings_attributed_shortTalk :
    ∃ s, Run (serverStep recordingObserver) recordingServer shortTalk s ∧
      s.history.saved.length = 1 ∧ s.history.entries.length = 1 ∧
      s.history.Attributed sampleClients := by
  have hrun := run_get (serverStep recordingObserver) recordingServer shortTalk
    (by decide +kernel)
  refine ⟨_, hrun, by decide +kernel, by decide +kernel, ?_⟩
  exact recordings_attributed defaultConfig "recordings" 100 true {} false sampleClients 0 hrun
    (by decide) (startsInTurn_of_alone (i := .client 0) (by decide) fun _ _ => rfl)

end TwoWayRadio

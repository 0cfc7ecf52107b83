import TwoWayRadio.AudioFanOut
import TwoWayRadio.AudioFormat
import TwoWayRadio.PageKeying
import Mathlib.Data.Rat.Defs

/-! The listening side of the browser: what it keeps of a transmission for the replay button.
Playback and its timing are left out; samples are exact, as 16 bits over 2^15 are in a float. -/
namespace TwoWayRadio
open Interleaving Transition

/-- The samples of a packet, as they are handed to the audio graph. -/
def float32Samples (data : Bytes) : List ℚ :=
  (int16View (data.drop 8)).map fun v => v.toInt / 32768

/-- The fields of `RadioAudioEngine` that incoming audio uses. -/
structure IncomingAudio where
  isPlayingIncoming : Bool := false
  replayChunks : List (List ℚ) := []
  lastReplayBuffer : Option (List ℚ) := none

namespace IncomingAudio

def onIncomingStart (a : IncomingAudio) : IncomingAudio :=
  { a with isPlayingIncoming := true, replayChunks := [] }

def onIncomingAudioChunk (data : Bytes) (a : IncomingAudio) : IncomingAudio :=
  if data.length ≤ 8 then a
  else { a with replayChunks := a.replayChunks ++ [float32Samples data] }

def onIncomingEnd (a : IncomingAudio) : IncomingAudio :=
  let a := { a with isPlayingIncoming := false }
  if 0 < a.replayChunks.length then
    { a with lastReplayBuffer := some a.replayChunks.flatten, replayChunks := [] }
  else a

/-- The replay buffer is exactly these samples, and nothing is being received. -/
def Replays (samples : List ℚ) (a : IncomingAudio) : Prop :=
  a.lastReplayBuffer = some samples ∧ a.isPlayingIncoming = false

instance (samples : List ℚ) (a : IncomingAudio) : Decidable (a.Replays samples) :=
  inferInstanceAs (Decidable (_ ∧ _))

/-- The packets of a transmission, between its start and whatever ends it. -/
def onIncomingAudioChunks (packets : List Bytes) (a : IncomingAudio) : IncomingAudio :=
  packets.foldl (fun a data => a.onIncomingAudioChunk data) a

theorem onIncomingAudioChunks_eq {packets : List Bytes} (hfull : ∀ data ∈ packets, 8 < data.length)
    (a : IncomingAudio) : a.onIncomingAudioChunks packets =
      { a with replayChunks := a.replayChunks ++ packets.map float32Samples } := by
  induction packets generalizing a with
  | nil => simp [onIncomingAudioChunks]
  | cons data rest ih =>
    have hlong : ¬ data.length ≤ 8 := Nat.not_le.mpr (hfull data List.mem_cons_self)
    have hchunk : a.onIncomingAudioChunk data =
        { a with replayChunks := a.replayChunks ++ [float32Samples data] } := if_neg hlong
    have hrest := ih (fun d hd => hfull d (List.mem_cons_of_mem _ hd)) (a.onIncomingAudioChunk data)
    rw [hchunk] at hrest
    show onIncomingAudioChunks rest (a.onIncomingAudioChunk data) = _
    rw [hchunk, hrest]
    simp

/-- The engine keeps a transmission as the replay button wants it, if it is told of its end. -/
theorem replays_onIncomingEnd {packets : List Bytes} (hsome : packets ≠ [])
    (hfull : ∀ data ∈ packets, 8 < data.length) (a : IncomingAudio) :
    ((a.onIncomingStart.onIncomingAudioChunks packets).onIncomingEnd).Replays
      (packets.flatMap float32Samples) := by
  have hlen : 0 < (packets.map float32Samples).length := by
    rw [List.length_map]
    exact List.length_pos_iff.mpr hsome
  rw [onIncomingAudioChunks_eq hfull]
  unfold onIncomingEnd onIncomingStart
  rw [if_pos (by simpa using hlen)]
  exact ⟨congrArg some (by simp [List.flatMap]), rfl⟩

end IncomingAudio

/-- A page with both sides of its engine. -/
structure RadioPage where
  radio : RadioState
  incoming : IncomingAudio := {}

namespace RadioPage

def handleUserTalking (payload : TransmissionEventPayload) (p : RadioPage) : RadioPage where
  radio := p.radio.handleUserTalking payload
  incoming :=
    if payload.channelID ≠ p.radio.currentChannelID ∨ payload.callsign = p.radio.myCallsign then
      p.incoming
    else p.incoming.onIncomingStart

def handleUserStopped (payload : TransmissionEventPayload) (p : RadioPage) : RadioPage where
  radio := p.radio.handleUserStopped payload
  incoming :=
    if payload.channelID ≠ p.radio.currentChannelID then p.incoming
    else if p.radio.isReceiving then p.incoming.onIncomingEnd else p.incoming

def handleSignalingMessage (msg : Signal) (p : RadioPage) : RadioPage :=
  match msg with
  | .userTalking payload => p.handleUserTalking payload
  | .userStopped payload => p.handleUserStopped payload
  | _ => { p with radio := p.radio.handleSignalingMessage msg }

/-- `ws.onmessage`. -/
def onMessage (p : RadioPage) : Frame → RadioPage
  | .json msg _ => p.handleSignalingMessage msg
  | .binary data => { p with incoming := p.incoming.onIncomingAudioChunk data }

def onMessages (p : RadioPage) (frames : List Frame) : RadioPage := frames.foldl onMessage p

/-- The page is tuned to the channel of the transmission, which is not its own. -/
def Hears (p : RadioPage) (talk : TransmissionEventPayload) : Prop :=
  p.radio.currentChannelID = talk.channelID ∧ talk.callsign ≠ p.radio.myCallsign

end RadioPage

/-- What a listener is given of a transmission before it ends; every packet has samples and no
odd byte. -/
structure Transmission where
  talk : TransmissionEventPayload
  timestamp : ℤ
  packets : List Bytes
  full : ∀ data ∈ packets, 8 < data.length ∧ data.length % 2 = 0

namespace Transmission

def frames (t : Transmission) : List Frame :=
  .json (.userTalking t.talk) t.timestamp :: t.packets.map .binary

def samples (t : Transmission) : List ℚ := t.packets.flatMap float32Samples

end Transmission

/-- The ways in which a transmission of `x` on channel `c` ends. -/
inductive TransmissionEnd
  | release
  | timeout (timer : ℕ)
  | switch (p : Decoded JoinChannelPayload)
  | create (p : Decoded CreateChannelPayload)
  | disconnect

def TransmissionEnd.request (x : ClientRef) (c : ChannelID) : TransmissionEnd → Request
  | release => .signal x .pttUp {}
  | timeout timer => .totExpires c timer
  | switch p => .signal x (.joinChannel p) {}
  | create p => .signal x (.createChannel p) {}
  | disconnect => .disconnect x

/-- The page of `y` after the transmission and what the hub sends at its end. -/
def pageAfter (p : RadioPage) (t : Transmission) (x y : ClientRef) (e : TransmissionEnd)
    (h : Hub) : RadioPage :=
  p.onMessages (t.frames ++ framesTo y (Hub.sent (e.request x t.talk.channelID).prog h))

section Unfinished

variable {c : ChannelID} {told : Bool} {frames : List Frame} {p : RadioPage}

def Frame.talks : Frame → Bool
  | .json (.userTalking _) _ => true
  | _ => false

/-- The frame says that a transmission on `c` has stopped. -/
def Frame.stops (c : ChannelID) : Frame → Bool
  | .json (.userStopped payload) _ => payload.channelID = c
  | _ => false

/-- The frame says that the floor of `c` is idle. -/
def Frame.idles (c : ChannelID) : Frame → Bool
  | .json (.floorStatus payload) _ => payload.channelID = c ∧ payload.status = .idle
  | _ => false

/-- Nobody starts to talk, and a stop on `c` comes after the news that its floor is idle, which
`told` says has already come. -/
def IdleFirst (c : ChannelID) : Bool → List Frame → Prop
  | _, [] => True
  | told, f :: rest =>
    f.talks = false ∧ (f.stops c = true → told = true) ∧ IdleFirst c (told || f.idles c) rest

theorem idleFirst_told (hfirst : IdleFirst c told frames) : IdleFirst c true frames := by
  induction frames generalizing told with
  | nil => trivial
  | cons f rest ih =>
    obtain ⟨htalks, _, hrest⟩ := hfirst
    exact ⟨htalks, fun _ => rfl, ih hrest⟩

theorem IdleFirst.append {more : List Frame} (hfirst : IdleFirst c told frames)
    (hmore : IdleFirst c false more) : IdleFirst c told (frames ++ more) := by
  induction frames generalizing told with
  | nil =>
    cases told with
    | false => exact hmore
    | true => exact idleFirst_told hmore
  | cons f rest ih =>
    obtain ⟨htalks, hstops, hrest⟩ := hfirst
    exact ⟨htalks, hstops, ih hrest⟩

/-- Only the news that somebody talks makes a page receive. -/
theorem isReceiving_onMessage {f : Frame} {r : RadioState} (hf : f.talks = false)
    (hdeaf : r.isReceiving = false) : (r.onMessage f).isReceiving = false := by
  -- what the engine does and sends does not concern the flag
  have hsent : ∀ (g : AudioEngine → List Bytes × AudioEngine) (r' : RadioState),
      (r'.onEngine g).isReceiving = r'.isReceiving := by
    intro g r'
    unfold RadioState.onEngine RadioState.wsSend
    split_ifs <;> rfl
  have hreleased : r.releaseFloor.isReceiving = false := by
    unfold RadioState.releaseFloor RadioState.wsSend
    dsimp only
    split_ifs <;> simp only [hsent, hdeaf]
  cases f with
  | binary data => exact hdeaf
  | json msg timestamp =>
    cases msg with
    | userTalking payload => cases hf
    | userStopped payload =>
      show (r.handleUserStopped payload).isReceiving = false
      unfold RadioState.handleUserStopped
      split_ifs
      · exact hdeaf
      · rfl
    | floorStatus payload =>
      show (r.handleFloorStatus payload).isReceiving = false
      unfold RadioState.handleFloorStatus
      by_cases hc : payload.channelID = r.currentChannelID
      · rw [if_neg (not_not.mpr hc)]
        cases payload.status with
        | granted =>
          dsimp only
          split_ifs
          · exact hreleased
          · exact (hsent _ _).trans hdeaf
        | denied => exact hdeaf
        | busy => exact hdeaf
        | timeout => exact (hsent _ _).trans hdeaf
        | idle => rfl
      · rw [if_pos hc]
        exact hdeaf
    | channelActivity ch isBusy speaker =>
      show (r.handleChannelActivity ch isBusy speaker).isReceiving = false
      unfold RadioState.handleChannelActivity
      dsimp only
      split_ifs <;> exact hdeaf
    | _ => exact hdeaf

/-- The page still counts itself as playing and has not touched its replay buffer; once it has
been told that the floor is idle, it takes no stop. -/
structure Unfinished (c : ChannelID) (kept : Option (List ℚ)) (told : Bool) (p : RadioPage) :
    Prop where
  tuned : p.radio.currentChannelID = c
  playing : p.incoming.isPlayingIncoming = true
  buffer : p.incoming.lastReplayBuffer = kept
  deaf : told = true → p.radio.isReceiving = false

theorem radio_onMessage (p : RadioPage) (f : Frame) :
    (p.onMessage f).radio = p.radio.onMessage f := by
  cases f with
  | binary data => rfl
  | json msg timestamp => cases msg <;> rfl

/-- Nothing but a start, a stop and a packet concerns the incoming audio. -/
theorem incoming_onMessage {f : Frame} (htalks : f.talks = false)
    (hstops : f.stops p.radio.currentChannelID = true → p.radio.isReceiving = false) :
    (p.onMessage f).incoming.isPlayingIncoming = p.incoming.isPlayingIncoming ∧
      (p.onMessage f).incoming.lastReplayBuffer = p.incoming.lastReplayBuffer := by
  cases f with
  | binary data =>
    show (p.incoming.onIncomingAudioChunk data).isPlayingIncoming = _ ∧
      (p.incoming.onIncomingAudioChunk data).lastReplayBuffer = _
    unfold IncomingAudio.onIncomingAudioChunk
    split_ifs <;> exact ⟨rfl, rfl⟩
  | json msg timestamp =>
    cases msg with
    | userTalking payload => cases htalks
    | userStopped payload =>
      show (p.handleUserStopped payload).incoming.isPlayingIncoming = _ ∧
        (p.handleUserStopped payload).incoming.lastReplayBuffer = _
      unfold RadioPage.handleUserStopped
      dsimp only
      split_ifs with hc hreceiving
      · exact ⟨rfl, rfl⟩
      · have hdeaf := hstops (decide_eq_true (not_not.mp hc))
        rw [hdeaf] at hreceiving
        cases hreceiving
      · exact ⟨rfl, rfl⟩
    | _ => exact ⟨rfl, rfl⟩

/-- The news that the floor is idle clears `isReceiving`, and with it the guard of the stop. -/
theorem deaf_of_idles {f : Frame} {r : RadioState} (hf : f.idles r.currentChannelID = true) :
    (r.onMessage f).isReceiving = false := by
  cases f with
  | binary data => cases hf
  | json msg timestamp =>
    cases msg with
    | floorStatus payload =>
      obtain ⟨hc, hidle⟩ := of_decide_eq_true hf
      show (r.handleFloorStatus payload).isReceiving = false
      unfold RadioState.handleFloorStatus
      rw [if_neg (not_not.mpr hc), hidle]
    | _ => cases hf

theorem Unfinished.onMessage {kept : Option (List ℚ)} {f : Frame} (hp : Unfinished c kept told p)
    (htalks : f.talks = false) (hstops : f.stops c = true → told = true) :
    Unfinished c kept (told || f.idles c) (p.onMessage f) := by
  obtain ⟨htuned, hplaying, hbuffer, hdeaf⟩ := hp
  have hincoming := incoming_onMessage htalks
    (fun h => hdeaf (hstops (by rwa [htuned] at h)))
  refine ⟨?_, hincoming.1.trans hplaying, hincoming.2.trans hbuffer, fun htold => ?_⟩
  · rw [radio_onMessage, (RadioState.onMessage_same f p.radio).currentChannelID, htuned]
  · rw [radio_onMessage]
    rcases (Bool.or_eq_true _ _).mp htold with hbefore | hidles
    · exact isReceiving_onMessage htalks (hdeaf hbefore)
    · exact deaf_of_idles (by rwa [htuned])

theorem Unfinished.onMessages {kept : Option (List ℚ)} (hp : Unfinished c kept told p)
    (hframes : IdleFirst c told frames) :
    ∃ told', Unfinished c kept told' (p.onMessages frames) := by
  induction frames generalizing told p with
  | nil => exact ⟨told, hp⟩
  | cons f rest ih =>
    obtain ⟨htalks, hstops, hrest⟩ := hframes
    exact ih (hp.onMessage htalks hstops) hrest

end Unfinished

section Endings

open Hub Prog

variable {α β : Type} {x y : ClientRef} {c ch : ChannelID} {h : Hub}

/-- The message neither starts a transmission nor stops one. -/
def Signal.incidental : Signal → Bool
  | .userTalking _ | .userStopped _ => false
  | _ => true

theorem idleFirst_of_incidental {told : Bool} {frames : List Frame}
    (hframes : ∀ f ∈ frames, f.talks = false ∧ f.stops c = false) :
    IdleFirst c told frames := by
  induction frames generalizing told with
  | nil => trivial
  | cons f rest ih =>
    obtain ⟨htalks, hstops⟩ := hframes f List.mem_cons_self
    refine ⟨htalks, fun h => ?_, ih fun g hg => hframes g (List.mem_cons_of_mem _ hg)⟩
    rw [hstops] at h
    cases h

/-- However the handler runs, whoever listens on `c` is told that its floor is idle before being
told of a stop. -/
def TellsIdleFirst (c : ChannelID) (y : ClientRef) (p : HubProg α) : Prop :=
  ∀ h, IdleFirst c false (framesTo y (sent p h))

theorem TellsIdleFirst.bind {p : HubProg α} {f : α → HubProg β} (hp : TellsIdleFirst c y p)
    (hf : ∀ a, TellsIdleFirst c y (f a)) : TellsIdleFirst c y (p >>= f) := by
  intro h
  rw [sent_bind, framesTo_append]
  exact (hp h).append (hf _ _)

theorem tellsIdleFirst_when {b : Prop} [Decidable b] {p : HubProg Unit}
    (hp : TellsIdleFirst c y p) : TellsIdleFirst c y (Prog.when b p) := by
  intro h
  rw [sent_when]
  split_ifs
  · exact hp h
  · trivial

theorem tellsIdleFirst_ifSome {o : Option α} {f : α → HubProg Unit}
    (hf : ∀ a, TellsIdleFirst c y (f a)) : TellsIdleFirst c y (Prog.ifSome o f) := by
  cases o with
  | none => exact fun h => trivial
  | some a => exact hf a

/-- What sends no news of a transmission. -/
theorem tellsIdleFirst_of_all {p : HubProg α}
    (hp : p.All fun op => ∀ msg ∈ op.message, msg.incidental = true) : TellsIdleFirst c y p := by
  intro h
  refine idleFirst_of_incidental fun f hf => ?_
  obtain ⟨queue, hd⟩ := mem_framesTo.mp hf
  cases f with
  | binary data => exact ⟨rfl, rfl⟩
  | json msg timestamp =>
    have hmsg : msg.incidental = true := by
      refine sent_of_all (D := fun d => ∀ y queue msg now,
        d = .enqueue y queue (.json msg now) → msg.incidental = true) ?_ hp _ hd y queue msg
        timestamp rfl
      rintro op h hop d hd y queue msg now rfl
      exact hop msg (HubOp.message_of_sends hd).1
    cases msg with
    | userTalking payload => cases hmsg
    | userStopped payload => cases hmsg
    | _ => exact ⟨rfl, rfl⟩

theorem idleFirst_of_told {frames : List Frame} (hframes : ∀ f ∈ frames, f.talks = false) :
    IdleFirst c true frames := by
  induction frames with
  | nil => trivial
  | cons f rest ih =>
    have hrest := ih fun g hg => hframes g (List.mem_cons_of_mem _ hg)
    exact ⟨hframes f List.mem_cons_self, fun _ => rfl, hrest⟩

/-- The idle floor is announced to the channel before the stop is. -/
theorem tellsIdleFirst_announceIdle (ch : ChannelID) (speaker : Client) :
    TellsIdleFirst c y (announceIdle ch speaker) := by
  intro h
  let idle : Frame := .json (floorIdle ch) h.unixMilli
  let stop : Frame := .json (unkeyed ch speaker) h.unixMilli
  let activity : Frame := .json (channelIdle ch) h.unixMilli
  have hframes : framesTo y (sent (announceIdle ch speaker) h) =
      List.replicate ((h.subscribersOf ch).count y) idle ++
        (List.replicate ((h.subscribersOf ch).count y) stop ++
          List.replicate (h.clients.keys.count y) activity) := by
    unfold announceIdle
    simp only [perform_bind, sent_call]
    rw [framesTo_append, framesTo_append]
    exact congrArg₂ (· ++ ·) (framesTo_map ..) (congrArg₂ (· ++ ·) (framesTo_map ..)
      ((congrArg (framesTo y) (List.append_nil _)).trans (framesTo_map ..)))
  have htalks : ∀ f ∈ List.replicate ((h.subscribersOf ch).count y) stop ++
      List.replicate (h.clients.keys.count y) activity, f.talks = false := by
    intro f hf
    rcases List.mem_append.mp hf with hf | hf
    · rw [List.eq_of_mem_replicate hf]
      rfl
    · rw [List.eq_of_mem_replicate hf]
      rfl
  rw [hframes]
  -- on another channel all of it is incidental; on this one each copy of the news comes first
  by_cases hch : ch = c
  · cases hcount : (h.subscribersOf ch).count y with
    | zero =>
      refine idleFirst_of_incidental fun f hf => ?_
      have hactivity : f = activity := List.eq_of_mem_replicate (by simpa using hf)
      rw [hactivity]
      exact ⟨rfl, rfl⟩
    | succ n =>
      rw [hcount] at htalks
      have hidle : idle.idles c = true := decide_eq_true ⟨hch, rfl⟩
      rw [List.replicate_succ, List.cons_append]
      have hsilent : idle.stops c = true → false = true := fun h => h
      refine ⟨rfl, hsilent, ?_⟩
      rw [hidle]
      refine idleFirst_of_told fun f hf => ?_
      rcases List.mem_append.mp hf with hf | hf
      · rw [List.eq_of_mem_replicate hf]
        rfl
      · exact htalks f hf
  · have hstop : stop.stops c = false := decide_eq_false hch
    refine idleFirst_of_incidental fun f hf => ?_
    rcases List.mem_append.mp hf with hf | hf
    · rw [List.eq_of_mem_replicate hf]
      exact ⟨rfl, rfl⟩
    · refine ⟨htalks f hf, ?_⟩
      rcases List.mem_append.mp hf with hf | hf
      · rw [List.eq_of_mem_replicate hf]
        exact hstop
      · rw [List.eq_of_mem_replicate hf]
        rfl

theorem incidental_of_background {op : HubOp} (hop : op.background = true) :
    ∀ msg ∈ op.message, msg.incidental = true := by
  intro msg hmsg
  cases op <;> cases hmsg <;> cases msg <;> first | rfl | cases hop

theorem tellsIdleFirst_of_background {p : HubProg α} (hp : Background p) :
    TellsIdleFirst c y p :=
  tellsIdleFirst_of_all (hp.mono fun _ hop => incidental_of_background hop)

/-- A call with no news of a transmission may come first. -/
theorem tellsIdleFirst_call {op : HubOp} {k : op.Res → HubProg α}
    (hop : ∀ msg ∈ op.message, msg.incidental = true) (hk : ∀ a, TellsIdleFirst c y (k a)) :
    TellsIdleFirst c y (.call op k) :=
  TellsIdleFirst.bind (tellsIdleFirst_of_all (all_perform hop)) hk

theorem tellsIdleFirst_finishRecording (ch : ChannelID) :
    TellsIdleFirst c y (finishRecording ch) := by
  have hquiet : (finishRecording ch).All fun op => ∀ msg ∈ op.message, msg.incidental = true := by
    refine all_then (fun msg hmsg => by cases hmsg) fun saved => ?_
    refine all_bind (all_ifSome fun r => all_perform ?_) fun _ => trivial
    rintro msg hmsg
    cases hmsg
    rfl
  exact tellsIdleFirst_of_all hquiet

theorem tellsIdleFirst_handlePTTUp (x : ClientRef) : TellsIdleFirst c y (handlePTTUp x) := by
  unfold handlePTTUp finishRelease
  simp only [perform_bind]
  apply tellsIdleFirst_call (fun msg hmsg => by cases hmsg)
  intro held
  apply tellsIdleFirst_ifSome
  intro ch
  apply tellsIdleFirst_call (fun msg hmsg => by cases hmsg)
  intro released
  apply tellsIdleFirst_when
  apply (tellsIdleFirst_finishRecording ch).bind
  intro saved
  apply tellsIdleFirst_call (fun msg hmsg => by cases hmsg)
  intro speaker
  refine TellsIdleFirst.bind (tellsIdleFirst_ifSome fun r => tellsIdleFirst_of_all ?_) fun _ =>
    tellsIdleFirst_announceIdle ch speaker
  exact all_perform fun msg hmsg => by cases hmsg

theorem tellsIdleFirst_totGoroutine (ch : ChannelID) (timer : ℕ) :
    TellsIdleFirst c y (totGoroutine ch timer) := by
  unfold totGoroutine handleTOTExpired
  simp only [perform_bind]
  apply tellsIdleFirst_call (fun msg hmsg => by cases hmsg)
  intro expired
  apply tellsIdleFirst_ifSome
  intro speaker
  apply (tellsIdleFirst_finishRecording ch).bind
  intro saved
  apply tellsIdleFirst_call
  · intro msg hmsg
    cases hmsg
    rfl
  · intro _
    exact tellsIdleFirst_call (fun msg hmsg => by cases hmsg)
      fun c' => tellsIdleFirst_announceIdle ch c'

theorem tellsIdleFirst_switchChannel (x : ClientRef) (new : ChannelID) (password : String) :
    TellsIdleFirst c y (switchChannel x new password) := by
  have herror : ∀ text, TellsIdleFirst c y (HubOp.sendJSON x (.error text)).call :=
    fun text => tellsIdleFirst_of_background (all_perform rfl)
  -- the channel that is left hears of an idle floor before anything else about it
  have hleave : ∀ speaker ch, TellsIdleFirst c y (leaveChannel x speaker ch) := by
    intro speaker ch
    apply tellsIdleFirst_call (fun msg hmsg => by cases hmsg)
    intro released
    refine (tellsIdleFirst_of_background (background_broadcastUserList ch)).bind fun _ => ?_
    refine (tellsIdleFirst_when (tellsIdleFirst_announceIdle ch speaker)).bind fun _ => ?_
    exact tellsIdleFirst_of_background (background_endVideoOf ch x)
  have henter : TellsIdleFirst c y (enterChannel x new) := by
    apply tellsIdleFirst_of_all
    refine all_then (fun msg hmsg => by cases hmsg) fun _ => ?_
    refine all_then (fun msg hmsg => by cases hmsg) fun _ => ?_
    refine all_bind ((background_broadcastUserList new).mono fun _ hop =>
      incidental_of_background hop) fun _ => ?_
    refine all_then (fun msg hmsg => by cases hmsg) fun state => ?_
    refine all_then (fun msg hmsg => by cases hmsg; rfl) fun _ => ?_
    refine all_then (fun msg hmsg => by cases hmsg) fun _ => ?_
    refine all_then (fun msg hmsg => by cases hmsg; rfl) fun _ => ?_
    exact all_ifSome fun v => all_perform fun msg hmsg => by cases hmsg; rfl
  unfold switchChannel
  simp only [perform_bind]
  apply tellsIdleFirst_call (fun msg hmsg => by cases hmsg)
  intro answer
  split
  · exact herror _
  · apply tellsIdleFirst_call (fun msg hmsg => by cases hmsg)
    intro speaker
    split_ifs
    · exact fun h => trivial
    · exact herror _
    · exact (tellsIdleFirst_ifSome (hleave speaker)).bind fun _ => henter

theorem tellsIdleFirst_unregisterClient (x : ClientRef) :
    TellsIdleFirst c y (unregisterClient x) := by
  unfold unregisterClient
  simp only [perform_bind]
  apply tellsIdleFirst_call (fun msg hmsg => by cases hmsg)
  intro left
  apply tellsIdleFirst_ifSome
  intro ch
  apply tellsIdleFirst_call (fun msg hmsg => by cases hmsg)
  intro released
  refine (tellsIdleFirst_of_background (background_broadcastUserList ch)).bind fun _ => ?_
  refine (tellsIdleFirst_of_background (background_endVideoOf ch x)).bind fun _ => ?_
  apply tellsIdleFirst_when
  apply tellsIdleFirst_call (fun msg hmsg => by cases hmsg)
  exact fun speaker => tellsIdleFirst_announceIdle ch speaker

theorem tellsIdleFirst_end (e : TransmissionEnd) (x : ClientRef) (ch : ChannelID) :
    TellsIdleFirst c y (e.request x ch).prog := by
  cases e with
  | release => exact tellsIdleFirst_handlePTTUp x
  | timeout timer => exact tellsIdleFirst_totGoroutine ch timer
  | switch p => exact tellsIdleFirst_when (tellsIdleFirst_switchChannel x _ _)
  | create p =>
    apply tellsIdleFirst_when
    apply tellsIdleFirst_call (fun msg hmsg => by cases hmsg)
    intro newID
    apply tellsIdleFirst_call (fun msg hmsg => by cases hmsg)
    intro channels
    apply tellsIdleFirst_call (fun msg hmsg => by cases hmsg; rfl)
    exact fun _ => tellsIdleFirst_switchChannel x _ _
  | disconnect => exact tellsIdleFirst_unregisterClient x

end Endings

/-- Up to its end a transmission leaves the page receiving, with its replay buffer as it was. -/
theorem unfinished_frames {t : Transmission} {p : RadioPage} (hears : p.Hears t.talk) :
    Unfinished t.talk.channelID p.incoming.lastReplayBuffer false (p.onMessages t.frames) := by
  have hstart : Unfinished t.talk.channelID p.incoming.lastReplayBuffer false
      (p.handleUserTalking t.talk) := by
    have hpass : ¬ (t.talk.channelID ≠ p.radio.currentChannelID ∨
        t.talk.callsign = p.radio.myCallsign) :=
      not_or.mpr ⟨not_not.mpr hears.1.symm, hears.2⟩
    unfold RadioPage.handleUserTalking RadioState.handleUserTalking
    rw [if_neg hpass, if_neg hpass]
    exact ⟨hears.1, rfl, rfl, fun h => by cases h⟩
  -- nothing among the packets is news of an idle floor
  have hsteady : ∀ (packets : List Bytes) (q : RadioPage),
      Unfinished t.talk.channelID p.incoming.lastReplayBuffer false q →
      Unfinished t.talk.channelID p.incoming.lastReplayBuffer false
        (q.onMessages (packets.map .binary)) := by
    intro packets
    induction packets with
    | nil => exact fun q hq => hq
    | cons data rest ih => exact fun q hq => ih _ (hq.onMessage (f := .binary data) rfl fun h => h)
  exact hsteady t.packets _ hstart

/-- The end of a transmission never reaches the listener's engine: the idle floor, announced
first, clears `isReceiving`, and the stop is then taken for one that has been seen. -/
theorem replay_never_kept (h : Hub) (x y : ClientRef) (e : TransmissionEnd) (t : Transmission)
    (p : RadioPage) (hears : p.Hears t.talk) :
    ¬ (pageAfter p t x y e h).incoming.Replays t.samples := by
  rintro ⟨_, hstopped⟩
  have hends := tellsIdleFirst_end (c := t.talk.channelID) (y := y) e x t.talk.channelID h
  -- the page plays up to the end, and what the end sends it stops nothing
  obtain ⟨told, hafter⟩ := (unfinished_frames hears).onMessages hends
  have hplaying : (pageAfter p t x y e h).incoming.isPlayingIncoming = true := by
    unfold pageAfter RadioPage.onMessages
    rw [List.foldl_append]
    exact hafter.playing
  rw [hstopped] at hplaying
  cases hplaying

/-- A transmission of unit 0 on channel 1: one packet of two samples. -/
def shortTransmission : Transmission where
  talk := ⟨1, (sampleClients 0).id, (sampleClients 0).callsign⟩
  timestamp := 0
  packets := [encodeAudioPacket 1 flagAudioFirst 1 [1, 0, 0, 128]]
  full := by decide

/-- The page of unit 1. -/
def listeningPage : RadioPage where
  radio := { wsOpen := true, myCallsign := (sampleClients 1).callsign }

theorem replay_never_kept_disconnect :
    ∃ s, Run (serialStep noNote)
        (SerialHub.init (newHub defaultConfig none false sampleClients 0) ()) onAir s ∧
      s.hub.holder 1 = some 0 ∧
      ¬ (pageAfter listeningPage shortTransmission 0 1 .disconnect s.hub).incoming.Replays
        shortTransmission.samples := by
  have hrun := run_get (serialStep noNote)
    (SerialHub.init (newHub defaultConfig none false sampleClients 0) ()) onAir (by decide +kernel)
  refine ⟨_, hrun, by decide +kernel, ?_⟩
  exact replay_never_kept _ 0 1 .disconnect shortTransmission listeningPage ⟨rfl, by decide⟩

/-- Unit 0 releases the button, its stop is announced to unit 1, and the page of unit 1 still has
no replay. -/
theorem replay_kept_fails :
    ∃ s, Run (serialStep noNote)
        (SerialHub.init (newHub defaultConfig none false sampleClients 0) ()) onAir s ∧
      s.hub.holder 1 = some 0 ∧ listeningPage.Hears shortTransmission.talk ∧
      (framesTo 1 (Hub.sent (TransmissionEnd.release.request 0 1).prog s.hub)).any
        (Frame.stops 1) = true ∧
      shortTransmission.samples = [1 / 32768, -1] ∧
      (pageAfter listeningPage shortTransmission 0 1 .release s.hub).incoming.lastReplayBuffer
        = none ∧
      ¬ (pageAfter listeningPage shortTransmission 0 1 .release s.hub).incoming.Replays
        shortTransmission.samples := by
  have hrun := run_get (serialStep noNote)
    (SerialHub.init (newHub defaultConfig none false sampleClients 0) ()) onAir (by decide +kernel)
  refine ⟨_, hrun, by decide +kernel, ⟨rfl, by decide⟩, by decide +kernel, by decide +kernel,
    by decide +kernel, by decide +kernel⟩

end TwoWayRadio

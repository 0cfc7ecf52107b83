import TwoWayRadio.HubCalls
import TwoWayRadio.Server

/-! The protocol every handler keeps to around the floor: what it owes the recorder, the clients
and the listeners after each of its calls on a floor. -/
namespace TwoWayRadio
open Interleaving

/-- Where a handler stands. `c` is the channel concerned, `x` the client on whose behalf the
floor was taken, left or found held, and `y` a preempted client. -/
inductive Stance
  | fresh
  -- before `identify` sets its client's callsign
  | identifying (x : ClientRef)
  -- before the floor call of the push-to-talk handlers
  | asking (x : ClientRef)
  | releasing (x : ClientRef)
  -- after a request
  | refused (c : ChannelID) (x : ClientRef)
  | preempting (c : ChannelID) (x y : ClientRef)
  | notifying (c : ChannelID) (x y : ClientRef)
  | granted (c : ChannelID) (x : ClientRef)
  | confirming (c : ChannelID) (x : ClientRef)
  | talking (c : ChannelID) (x : ClientRef)
  | talked (c : ChannelID) (x : ClientRef)
  -- after the end of a hold
  | released (c : ChannelID) (x : ClientRef)
  | saved (c : ChannelID) (x : ClientRef) (recording : Option VoiceRecording)
  | expired (c : ChannelID) (x : ClientRef)
  | timingOut (c : ChannelID) (x : ClientRef)
  | quiet (c : ChannelID) (x : ClientRef)
  | stopping (c : ChannelID) (x : ClientRef)
  | stopped (c : ChannelID) (x : ClientRef)
  -- after the floor check of an audio packet
  | checked (c : ChannelID) (x : ClientRef)
  | appending (c : ChannelID) (x : ClientRef)
  | dispatching (c : ChannelID) (x : ClientRef)
  -- after a switched client has looked at its new channel
  | shown (c : ChannelID) (isBusy : Bool)
deriving DecidableEq

namespace Stance

/-- Messages about floors move a handler on, others do not. -/
def told (msg : Signal) (moved stays : Stance) : Stance :=
  if msg.announcesFloor then moved else stays

/-- The call each stance waits for, and where its answer leads. -/
def next : Stance → (op : HubOp) → op.Res → Stance
  | fresh, .removeSubscriber c x, r => if r then quiet c x else fresh
  | fresh, .handleTOT c _, r => r.elim fresh (expired c)
  | fresh, .isFloorHolder c x, r => if r then checked c x else fresh
  | fresh, .getState c, r => shown c r.1
  | identifying _, .setCallsign .., _ => fresh
  | asking x, .currentChannel _, r => if r.isSome then asking x else fresh
  | asking _, .requestFloor c x, r =>
    if r.granted then r.preempted.elim (granted c x) (preempting c x) else refused c x
  | releasing x, .currentChannel _, r => if r.isSome then releasing x else fresh
  | releasing _, .releaseFloor c x, r => if r then released c x else fresh
  | refused c x, .sendPriorityJSON _ msg, _ => told msg fresh (refused c x)
  | preempting c x y, .onTransmissionEnd _, _ => notifying c x y
  | notifying c x y, .sendPriorityJSON _ msg, _ => told msg (granted c x) (notifying c x y)
  | granted c x, .onTransmissionStart .., _ => confirming c x
  | confirming c x, .sendPriorityJSON _ msg, _ => told msg (talking c x) (confirming c x)
  | talking c x, .broadcastSignal _ msg, _ => told msg (talked c x) (talking c x)
  | talked c x, .broadcastAll msg, _ => told msg fresh (talked c x)
  | released c x, .onTransmissionEnd _, r => saved c x r
  | saved c x _, .appendVoice .., _ => quiet c x
  | saved c x r, .broadcastSignal _ msg, _ => told msg (stopping c x) (saved c x r)
  | expired c x, .onTransmissionEnd _, _ => timingOut c x
  | timingOut c x, .sendJSON _ msg, _ => told msg (quiet c x) (timingOut c x)
  | quiet c x, .broadcastSignal _ msg, _ => told msg (stopping c x) (quiet c x)
  | stopping c x, .broadcastSignal _ msg, _ => told msg (stopped c x) (stopping c x)
  | stopped c x, .broadcastAll msg, _ => told msg fresh (stopped c x)
  | checked c x, .addAudioBytes n, _ =>
    if audioHeaderSize < n then appending c x else dispatching c x
  | appending c x, .appendAudio .., _ => dispatching c x
  | dispatching .., .broadcastAudio .., _ => fresh
  | dispatching .., .allCallAudio .., _ => fresh
  | shown c isBusy, .sendJSON _ msg, _ => told msg fresh (shown c isBusy)
  | s, _, _ => s

/-- The stances before the floor call of a push-to-talk handler. -/
def asks : Stance → Bool
  | asking _ | releasing _ => true
  | _ => false

/-- What holds of a stance that has moved and of one that has not. -/
theorem told_rule (P : Stance → Prop) {msg : Signal} {moved stays : Stance}
    (hmoved : msg.announcesFloor = true → P moved) (hstays : P stays) :
    P (told msg moved stays) := by
  unfold told
  split_ifs with hann
  · exact hmoved hann
  · exact hstays

theorem elim_rule (P : Stance → Prop) {α : Type} {o : Option α} {stays : Stance}
    {moved : α → Stance} (hstays : P stays) (hmoved : ∀ a, P (moved a)) :
    P (o.elim stays moved) := by
  cases o with
  | none => exact hstays
  | some a => exact hmoved a

theorem told_of_quiet {msg : Signal} {moved stays : Stance} (h : (!msg.announcesFloor) = true) :
    told msg moved stays = stays :=
  if_neg (by simpa using h)

theorem next_background {s : Stance} {op : HubOp} (hs : s.asks = false)
    (hop : op.background = true) (r : op.Res) : s.next op r = s := by
  cases op <;> first
    | exact absurd hop Bool.false_ne_true
    | (cases s <;> first | rfl | exact absurd hs.symm Bool.false_ne_true | exact told_of_quiet hop)

end Stance

/-- Calls that a handler may make before it is concerned with a floor. -/
def HubOp.plain : HubOp → Bool
  | register .. | unregister _ | addSubscriber .. | setCurrentChannel .. | createChannel _
  | relay .. => true
  | op => op.background

/-- The calls that thread `i` may make in a stance, besides background ones. The texts come
from answers of `fields` that `can` allows. -/
def Stance.expects (can : (op : HubOp) → op.Res → Prop) (i : Thread) : Stance → HubOp → Prop
  | fresh, .removeSubscriber _ x => i = .client x
  | fresh, .handleTOT c t => i = .tot c t
  | fresh, .isFloorHolder _ x => i = .client x
  | fresh, .getState _ => ∃ x, i = .client x
  | fresh, .broadcastAudio _ sender _ => i = .roip ∧ sender = none
  | fresh, op => op.plain = true
  | identifying x, .setCallsign x' _ => x' = x
  | asking x, .requestFloor c x' => i = .client x ∧ x' = x ∧ can (.currentChannel x) (some c)
  | releasing x, .releaseFloor c x' => i = .client x ∧ x' = x ∧ can (.currentChannel x) (some c)
  | refused c x, .sendPriorityJSON x' msg =>
    x' = x ∧ ∃ reason speaker, msg = Hub.floorDenied c reason speaker
  | preempting c _ _, .onTransmissionEnd c' => c' = c
  | notifying c x y, .sendPriorityJSON y' msg =>
    y' = y ∧ ∃ f, can (.fields x) f ∧ msg = Hub.floorPreempted c f
  | granted c x, .onTransmissionStart c' x' => c' = c ∧ x' = x
  | confirming c x, .sendPriorityJSON x' msg =>
    x' = x ∧ ∃ f, can (.fields x) f ∧ msg = Hub.floorGranted c f
  | talking c x, .broadcastSignal c' msg =>
    c' = c ∧ ∃ f, can (.fields x) f ∧ msg = Hub.keyedUp c f
  | talked c x, .broadcastAll msg => ∃ f, can (.fields x) f ∧ msg = Hub.channelBusy c f
  | released c _, .onTransmissionEnd c' => c' = c
  | saved c x r, .appendVoice c' entry => c' = c ∧ ∃ f recording, can (.fields x) f ∧
      r = some recording ∧ entry = Hub.voiceEntry c f recording
  | saved c _ _, .broadcastSignal c' msg => c' = c ∧ msg = Hub.floorIdle c
  | expired c _, .onTransmissionEnd c' => c' = c
  | timingOut c x, .sendJSON x' msg => x' = x ∧ msg = Hub.floorTimeout c
  | quiet c _, .broadcastSignal c' msg => c' = c ∧ msg = Hub.floorIdle c
  | stopping c x, .broadcastSignal c' msg =>
    c' = c ∧ ∃ f, can (.fields x) f ∧ msg = Hub.unkeyed c f
  | stopped c _, .broadcastAll msg => msg = Hub.channelIdle c
  | checked _ _, .addAudioBytes _ => True
  | appending c x, .appendAudio c' _ => i = .client x ∧ c' = c
  | dispatching c x, .broadcastAudio c' sender _ => i = .client x ∧ c' = c ∧ sender = some x
  | dispatching c x, .allCallAudio x' data => i = .client x ∧ x' = x ∧ ∃ packet : AudioPacket,
      parseAudioHeaderQuick data = .ok packet ∧ packet.channelID.toNat = c ∧
        packet.flags &&& flagAudioAllCall ≠ 0
  | shown c isBusy, .sendJSON x msg =>
    i = .client x ∧ ∃ speaker, msg = Hub.floorShown c isBusy speaker
  | _, _ => False

/-- The channel whose floor a call looks at or changes. -/
def HubOp.looksAt : HubOp → Option ChannelID
  | removeSubscriber ch _ | requestFloor ch _ | releaseFloor ch _ | isFloorHolder ch _
  | getState ch | handleTOT ch _ => some ch
  | _ => none

/-- Each call that looks at the floor of `c` is made by one thread, in one stance. -/
inductive Stance.Looks (can : (op : HubOp) → op.Res → Prop) (c : ChannelID) :
    Thread → Stance → HubOp → Prop
  | removes (x : ClientRef) : Looks can c (.client x) .fresh (.removeSubscriber c x)
  | requests (x : ClientRef) (htuned : can (.currentChannel x) (some c)) :
      Looks can c (.client x) (.asking x) (.requestFloor c x)
  | releases (x : ClientRef) (htuned : can (.currentChannel x) (some c)) :
      Looks can c (.client x) (.releasing x) (.releaseFloor c x)
  | checks (x : ClientRef) : Looks can c (.client x) .fresh (.isFloorHolder c x)
  | reads (x : ClientRef) : Looks can c (.client x) .fresh (.getState c)
  | expires (timer : ℕ) : Looks can c (.tot c timer) .fresh (.handleTOT c timer)

/-- No background call looks at a floor, and each stance expects at most one that does. -/
theorem Stance.looks {can : (op : HubOp) → op.Res → Prop} {i : Thread} {s : Stance} {op : HubOp}
    {c : ChannelID} (hok : op.background = true ∨ s.expects can i op)
    (hop : op.looksAt = some c) : Looks can c i s op := by
  have hexp : s.expects can i op := by
    rcases hok with hback | hexp
    · cases op <;> first | exact absurd hback Bool.false_ne_true | cases hop
    · exact hexp
  cases op with
  | removeSubscriber ch x =>
    obtain rfl := Option.some.inj hop
    cases s with
    | fresh =>
      obtain rfl : i = .client x := hexp
      exact .removes x
    | _ => exact hexp.elim
  | requestFloor ch x =>
    obtain rfl := Option.some.inj hop
    cases s with
    | asking y =>
      obtain ⟨rfl, rfl, htuned⟩ := hexp
      exact .requests x htuned
    | fresh => exact absurd hexp Bool.false_ne_true
    | _ => exact hexp.elim
  | releaseFloor ch x =>
    obtain rfl := Option.some.inj hop
    cases s with
    | releasing y =>
      obtain ⟨rfl, rfl, htuned⟩ := hexp
      exact .releases x htuned
    | fresh => exact absurd hexp Bool.false_ne_true
    | _ => exact hexp.elim
  | isFloorHolder ch x =>
    obtain rfl := Option.some.inj hop
    cases s with
    | fresh =>
      obtain rfl : i = .client x := hexp
      exact .checks x
    | _ => exact hexp.elim
  | getState ch =>
    obtain rfl := Option.some.inj hop
    cases s with
    | fresh =>
      obtain ⟨x, rfl⟩ : ∃ x, i = .client x := hexp
      exact .reads x
    | _ => exact hexp.elim
  | handleTOT ch timer =>
    obtain rfl := Option.some.inj hop
    cases s with
    | fresh =>
      obtain rfl : i = .tot ch timer := hexp
      exact .expires timer
    | _ => exact hexp.elim
  | _ => cases hop

/-- The stance a handler starts in. -/
def Request.stance : Request → Stance
  | .signal x (.identify p) _ => if p.ok ∧ p.value.callsign ≠ "" then .identifying x else .fresh
  | .signal x .pttDown _ => .asking x
  | .signal x .pttUp _ => .releasing x
  | _ => .fresh

/-- No handler starts in the middle of what concerns a floor. -/
theorem Request.stance_rule {P : Stance → Prop} (r : Request) (hfresh : P .fresh)
    (hidentifying : ∀ x, P (.identifying x)) (hasking : ∀ x, P (.asking x))
    (hreleasing : ∀ x, P (.releasing x)) : P r.stance := by
  unfold stance
  split
  · split_ifs
    · exact hidentifying _
    · exact hfresh
  · exact hasking _
  · exact hreleasing _
  · exact hfresh

def floorProtocol (can : (op : HubOp) → op.Res → Prop) (i : Thread) :
    Prog.Protocol HubOp.Res Stance where
  ok := fun s op => op.background = true ∨ s.expects can i op
  next := Stance.next
  can := can

section Follows

variable {can : (op : HubOp) → op.Res → Prop} {i : Thread}

/-- From stance `s` the program keeps to the floor protocol and ends in stance `t`. -/
abbrev KeepsFloor (can : (op : HubOp) → op.Res → Prop) (i : Thread) {α : Type} (s t : Stance)
    (p : HubProg α) : Prop :=
  p.Follows (floorProtocol can i) (fun _ u => u = t) s

theorem keepsFloor_bind {α β : Type} {s t u : Stance} {p : HubProg α} {f : α → HubProg β}
    (hp : KeepsFloor can i s t p) (hf : ∀ a, KeepsFloor can i t u (f a)) :
    KeepsFloor can i s u (p >>= f) :=
  Prog.follows_bind hp fun a _ hv => hv ▸ hf a

theorem keepsFloor_background {α : Type} {s : Stance} {p : HubProg α} (hs : s.asks = false)
    (hp : Hub.Background p) : KeepsFloor can i s s p :=
  Prog.follows_of_all (fun _ hop => ⟨Or.inl hop, Stance.next_background hs hop⟩) hp

theorem keepsFloor_then {α : Type} {s t : Stance} {op : HubOp} {f : op.Res → HubProg α}
    (hop : op.background = true ∨ s.expects can i op)
    (hf : ∀ r, can op r → KeepsFloor can i (s.next op r) t (f r)) :
    KeepsFloor can i s t ((Prog.perform op : HubProg op.Res) >>= f) :=
  Prog.follows_then hop hf

theorem keepsFloor_last {s t : Stance} {op : HubOp}
    (hop : op.background = true ∨ s.expects can i op) (ht : ∀ r, s.next op r = t) :
    KeepsFloor can i s t op.call :=
  ⟨hop, fun r _ => ht r⟩

theorem keepsFloor_skip {α : Type} {s t : Stance} {op : HubOp} {f : op.Res → HubProg α}
    (hs : s.asks = false) (hop : op.background = true)
    (hf : ∀ r, can op r → KeepsFloor can i s t (f r)) :
    KeepsFloor can i s t ((Prog.perform op : HubProg op.Res) >>= f) := by
  refine keepsFloor_then (Or.inl hop) fun r hr => ?_
  rw [Stance.next_background hs hop]
  exact hf r hr

theorem keepsFloor_announceIdle {s : Stance} {c : ChannelID} {x : ClientRef} {f : Client}
    (hs : s = .quiet c x ∨ ∃ r, s = .saved c x r) (hf : can (.fields x) f) :
    KeepsFloor can i s .fresh (Hub.announceIdle c f) := by
  have hok : s.expects can i (.broadcastSignal c (Hub.floorIdle c)) := by
    rcases hs with rfl | ⟨r, rfl⟩ <;> exact ⟨rfl, rfl⟩
  refine keepsFloor_then (Or.inr hok) fun r _ => ?_
  have hnext : s.next (.broadcastSignal c (Hub.floorIdle c)) r = .stopping c x := by
    rcases hs with rfl | ⟨r, rfl⟩ <;> rfl
  rw [hnext]
  refine keepsFloor_then (Or.inr ⟨rfl, f, hf, rfl⟩) fun _ _ => ?_
  show KeepsFloor can i (.stopped c x) .fresh _
  exact keepsFloor_last (Or.inr rfl) fun _ => rfl

/-- Finalising a recording moves on by what was saved; telling the channel does not. -/
theorem follows_finishRecording {s : Stance} {c : ChannelID}
    {Q : Option VoiceRecording → Stance → Prop}
    (hok : s.expects can i (.onTransmissionEnd c))
    (hQ : ∀ r, (s.next (.onTransmissionEnd c) r).asks = false ∧
      Q r (s.next (.onTransmissionEnd c) r)) :
    (Hub.finishRecording c).Follows (floorProtocol can i) Q s := by
  refine Prog.follows_then (Or.inr hok) fun r _ => ?_
  have htell : KeepsFloor can i (s.next (.onTransmissionEnd c) r) (s.next (.onTransmissionEnd c) r)
      (Prog.ifSome r fun r => (HubOp.broadcastSignal c (.transmissionRecorded r)).call) :=
    keepsFloor_background (hQ r).1 (Prog.all_ifSome fun _ => Prog.all_perform rfl)
  refine Prog.follows_bind htell fun _ t ht => ?_
  rw [ht]
  exact (hQ r).2

theorem keepsFloor_answerRequest {c : ChannelID} {x : ClientRef} {reply : FloorReply} :
    KeepsFloor can i ((Stance.asking x).next (.requestFloor c x) reply) .fresh
      (Hub.answerRequest x c reply) := by
  unfold Hub.answerRequest
  by_cases hg : reply.granted = true
  · rw [if_pos hg]
    have hstance : (Stance.asking x).next (.requestFloor c x) reply =
        reply.preempted.elim (.granted c x) (.preempting c x) := if_pos hg
    rw [hstance]
    -- who is preempted is dealt with first, and then the floor is granted as if it had been free
    have hready : KeepsFloor can i (reply.preempted.elim (.granted c x) (.preempting c x))
        (.granted c x) (Prog.ifSome reply.preempted (Hub.finalizePreempted c x)) := by
      cases reply.preempted with
      | none => rfl
      | some y =>
        refine keepsFloor_skip rfl rfl fun _ _ => ?_
        refine Prog.follows_bind (Q := fun _ t => t = .notifying c x y)
          (follows_finishRecording rfl fun _ => ⟨rfl, rfl⟩) fun _ t ht => ?_
        rw [ht]
        refine keepsFloor_skip rfl rfl fun f hf => ?_
        exact keepsFloor_last (Or.inr ⟨rfl, f, hf, rfl⟩) fun _ => rfl
    refine keepsFloor_skip (by cases reply.preempted <;> rfl) rfl fun _ _ => ?_
    refine keepsFloor_bind hready fun _ => ?_
    refine keepsFloor_then (Or.inr ⟨rfl, rfl⟩) fun _ _ => ?_
    show KeepsFloor can i (.confirming c x) .fresh _
    refine keepsFloor_skip rfl rfl fun f hf => ?_
    refine keepsFloor_then (Or.inr ⟨rfl, f, hf, rfl⟩) fun _ _ => ?_
    show KeepsFloor can i (.talking c x) .fresh _
    refine keepsFloor_then (Or.inr ⟨rfl, f, hf, rfl⟩) fun _ _ => ?_
    show KeepsFloor can i (.talked c x) .fresh _
    exact keepsFloor_last (Or.inr ⟨f, hf, rfl⟩) fun _ => rfl
  · rw [if_neg hg]
    have hstance : (Stance.asking x).next (.requestFloor c x) reply = .refused c x := if_neg hg
    rw [hstance]
    exact keepsFloor_last (Or.inr ⟨rfl, _, _, rfl⟩) fun _ => rfl

theorem keepsFloor_handlePTTDown {x : ClientRef} :
    KeepsFloor can (.client x) (.asking x) .fresh (Hub.handlePTTDown x) := by
  refine keepsFloor_then (Or.inl rfl) fun ch hch => ?_
  cases ch with
  | none => exact keepsFloor_last (Or.inl rfl) fun _ => rfl
  | some ch =>
    show KeepsFloor can (.client x) (.asking x) .fresh _
    exact keepsFloor_then (Or.inr ⟨rfl, rfl, hch⟩) fun reply _ => keepsFloor_answerRequest

theorem keepsFloor_handlePTTUp {x : ClientRef} :
    KeepsFloor can (.client x) (.releasing x) .fresh (Hub.handlePTTUp x) := by
  refine keepsFloor_then (Or.inl rfl) fun ch hch => ?_
  cases ch with
  | none => exact rfl
  | some ch =>
    show KeepsFloor can (.client x) (.releasing x) .fresh _
    refine keepsFloor_then (Or.inr ⟨rfl, rfl, hch⟩) fun released _ => ?_
    cases released with
    | false => exact rfl
    | true =>
      show KeepsFloor can (.client x) (.released ch x) .fresh _
      refine Prog.follows_bind (Q := fun r t => t = .saved ch x r)
        (follows_finishRecording rfl fun _ => ⟨rfl, rfl⟩) fun saved t ht => ?_
      rw [ht]
      refine keepsFloor_skip rfl rfl fun f hf => ?_
      cases saved with
      | none => exact keepsFloor_bind rfl fun _ => keepsFloor_announceIdle (Or.inr ⟨_, rfl⟩) hf
      | some r =>
        refine keepsFloor_bind (t := .quiet ch x) ?_ fun _ =>
          keepsFloor_announceIdle (Or.inl rfl) hf
        exact keepsFloor_last (Or.inr ⟨rfl, f, r, hf, rfl, rfl⟩) fun _ => rfl

theorem keepsFloor_totGoroutine {c : ChannelID} {timer : ℕ} :
    KeepsFloor can (.tot c timer) .fresh .fresh (Hub.totGoroutine c timer) := by
  refine keepsFloor_then (Or.inr rfl) fun speaker _ => ?_
  cases speaker with
  | none => exact rfl
  | some x =>
    show KeepsFloor can (.tot c timer) (.expired c x) .fresh (Hub.handleTOTExpired c x)
    refine Prog.follows_bind (Q := fun _ t => t = .timingOut c x)
      (follows_finishRecording rfl fun _ => ⟨rfl, rfl⟩) fun _ t ht => ?_
    rw [ht]
    refine keepsFloor_then (Or.inr ⟨rfl, rfl⟩) fun _ _ => ?_
    show KeepsFloor can (.tot c timer) (.quiet c x) .fresh _
    exact keepsFloor_skip rfl rfl fun f hf => keepsFloor_announceIdle (Or.inl rfl) hf

theorem keepsFloor_registerClient {x : ClientRef} {first : ℕ} :
    KeepsFloor can (.client x) .fresh .fresh (Hub.registerClient x first) := by
  refine keepsFloor_then (Or.inr rfl) fun ch _ => ?_
  show KeepsFloor can (.client x) .fresh .fresh _
  have henter : KeepsFloor can (.client x) .fresh .fresh (Prog.ifSome ch fun ch => do
      (HubOp.addSubscriber ch x).call
      Hub.broadcastUserList ch) := by
    cases ch with
    | none => exact rfl
    | some ch =>
      refine keepsFloor_then (Or.inr rfl) fun _ _ => ?_
      exact keepsFloor_background rfl (Hub.background_broadcastUserList ch)
  refine keepsFloor_bind henter fun _ => keepsFloor_background rfl ?_
  exact Prog.all_then rfl fun _ => Prog.all_then rfl fun _ => Prog.all_then rfl fun _ =>
    Prog.all_then rfl fun _ => Prog.all_then rfl fun _ =>
    Prog.all_bind (Prog.all_when (Prog.all_perform rfl)) fun _ =>
    Prog.all_ifSome fun _ => Prog.all_perform rfl

theorem keepsFloor_unregisterClient {x : ClientRef} :
    KeepsFloor can (.client x) .fresh .fresh (Hub.unregisterClient x) := by
  refine keepsFloor_then (Or.inr rfl) fun ch _ => ?_
  cases ch with
  | none => exact rfl
  | some ch =>
    show KeepsFloor can (.client x) .fresh .fresh _
    refine keepsFloor_then (Or.inr rfl) fun floorReleased _ => ?_
    have hstance : ((Stance.fresh).next (.removeSubscriber ch x) floorReleased).asks = false := by
      cases floorReleased <;> rfl
    refine keepsFloor_bind
      (keepsFloor_background hstance (Hub.background_broadcastUserList ch)) fun _ => ?_
    refine keepsFloor_bind
      (keepsFloor_background hstance (Hub.background_endVideoOf ch x)) fun _ => ?_
    cases floorReleased with
    | false => exact rfl
    | true => exact keepsFloor_skip rfl rfl fun f hf => keepsFloor_announceIdle (Or.inl rfl) hf

theorem keepsFloor_leaveChannel {x : ClientRef} {f : Client} {ch : ChannelID}
    (hf : can (.fields x) f) :
    KeepsFloor can (.client x) .fresh .fresh (Hub.leaveChannel x f ch) := by
  refine keepsFloor_then (Or.inr rfl) fun floorReleased _ => ?_
  have hstance : ((Stance.fresh).next (.removeSubscriber ch x) floorReleased).asks = false := by
    cases floorReleased <;> rfl
  refine keepsFloor_bind
    (keepsFloor_background hstance (Hub.background_broadcastUserList ch)) fun _ => ?_
  refine keepsFloor_bind (t := .fresh) ?_ fun _ =>
    keepsFloor_background rfl (Hub.background_endVideoOf ch x)
  cases floorReleased with
  | false => exact rfl
  | true => exact keepsFloor_announceIdle (Or.inl rfl) hf

theorem keepsFloor_enterChannel {x : ClientRef} {ch : ChannelID} :
    KeepsFloor can (.client x) .fresh .fresh (Hub.enterChannel x ch) := by
  refine keepsFloor_then (Or.inr rfl) fun _ _ => ?_
  show KeepsFloor can (.client x) .fresh .fresh _
  refine keepsFloor_then (Or.inr rfl) fun _ _ => ?_
  show KeepsFloor can (.client x) .fresh .fresh _
  refine keepsFloor_bind
    (keepsFloor_background rfl (Hub.background_broadcastUserList ch)) fun _ => ?_
  refine keepsFloor_then (Or.inr ⟨x, rfl⟩) fun state _ => ?_
  show KeepsFloor can (.client x) (.shown ch state.1) .fresh _
  refine keepsFloor_then (Or.inr ⟨rfl, state.2, rfl⟩) fun _ _ => ?_
  show KeepsFloor can (.client x) .fresh .fresh _
  refine keepsFloor_background rfl ?_
  exact Prog.all_then rfl fun _ => Prog.all_then rfl fun _ =>
    Prog.all_ifSome fun _ => Prog.all_perform rfl

theorem keepsFloor_switchChannel {x : ClientRef} (new : ChannelID) (password : String) :
    KeepsFloor can (.client x) .fresh .fresh (Hub.switchChannel x new password) := by
  refine keepsFloor_skip rfl rfl fun r _ => ?_
  dsimp only
  split
  · exact keepsFloor_last (Or.inl rfl) fun _ => rfl
  · refine keepsFloor_skip rfl rfl fun f hf => ?_
    split_ifs
    · exact rfl
    · exact keepsFloor_last (Or.inl rfl) fun _ => rfl
    · refine keepsFloor_bind (t := .fresh) ?_ fun _ => keepsFloor_enterChannel
      cases r.2 with
      | none => exact rfl
      | some ch => exact keepsFloor_leaveChannel hf

theorem keepsFloor_createSignal {x : ClientRef} (p : Decoded CreateChannelPayload) :
    KeepsFloor can (.client x) .fresh .fresh (Hub.createSignal x p) := by
  unfold Hub.createSignal Prog.when
  split_ifs
  · refine keepsFloor_then (Or.inr rfl) fun newID _ => ?_
    show KeepsFloor can (.client x) .fresh .fresh _
    exact keepsFloor_skip rfl rfl fun _ _ => keepsFloor_skip rfl rfl fun _ _ =>
      keepsFloor_switchChannel newID p.value.password
  · exact rfl

theorem keepsFloor_identifySignal {x : ClientRef} {p : Decoded IdentifyPayload}
    {choices : Choices} : KeepsFloor can (.client x)
      (Request.signal x (.identify p) choices).stance .fresh (Hub.identifySignal x p) := by
  show KeepsFloor can (.client x)
    (if p.ok ∧ p.value.callsign ≠ "" then .identifying x else .fresh) .fresh _
  unfold Hub.identifySignal
  by_cases hp : p.ok ∧ p.value.callsign ≠ ""
  · rw [if_pos hp, Prog.when, if_pos hp]
    refine keepsFloor_then (Or.inr rfl) fun _ _ => ?_
    show KeepsFloor can (.client x) .fresh .fresh _
    refine keepsFloor_background rfl ?_
    exact Prog.all_bind (Prog.all_when (Prog.all_perform rfl)) fun _ => Prog.all_then rfl fun _ =>
      Prog.all_ifSome Hub.background_broadcastUserList
  · rw [if_neg hp, Prog.when, if_neg hp]
    exact rfl

theorem keepsFloor_dispatchAudio {x : ClientRef} {data : Bytes} {packet : AudioPacket}
    (hparse : parseAudioHeaderQuick data = .ok packet) :
    KeepsFloor can (.client x) (.checked packet.channelID.toNat x) .fresh
      (Hub.dispatchAudio x packet.channelID.toNat packet.flags data) := by
  have hfan : KeepsFloor can (.client x) (.dispatching packet.channelID.toNat x) .fresh
      (Hub.fanOut x packet.channelID.toNat packet.flags data) := by
    unfold Hub.fanOut
    split_ifs with hflag
    · exact keepsFloor_last (Or.inr ⟨rfl, rfl, packet, hparse, rfl, hflag⟩) fun _ => rfl
    · exact keepsFloor_last (Or.inr ⟨rfl, rfl, rfl⟩) fun _ => rfl
  refine keepsFloor_then (Or.inr trivial) fun _ _ => ?_
  refine keepsFloor_bind (t := .dispatching packet.channelID.toNat x) ?_ fun _ =>
    keepsFloor_bind hfan fun _ => keepsFloor_skip rfl rfl fun relays _ => ?_
  · show KeepsFloor can (.client x) (if audioHeaderSize < data.length then _ else _) _ _
    unfold Prog.when
    split_ifs
    · exact keepsFloor_last (Or.inr ⟨rfl, rfl⟩) fun _ => rfl
    · exact rfl
  · unfold Prog.when
    split_ifs
    · exact keepsFloor_last (Or.inr rfl) fun _ => rfl
    · exact rfl

theorem keepsFloor_handleBinaryAudio {x : ClientRef} (data : Bytes) :
    KeepsFloor can (.client x) .fresh .fresh (Hub.handleBinaryAudio x data) := by
  unfold Hub.handleBinaryAudio
  split
  · exact rfl
  · rename_i packet hparse
    refine keepsFloor_skip rfl rfl fun found _ => ?_
    unfold Prog.when
    split_ifs
    · refine keepsFloor_skip rfl rfl fun f _ => ?_
      split_ifs
      · refine keepsFloor_then (Or.inr rfl) fun holder _ => ?_
        cases holder with
        | false => exact rfl
        | true => exact keepsFloor_dispatchAudio hparse
      · exact rfl
    · exact rfl

theorem keepsFloor_roipDatagram (datagram : Bytes) :
    KeepsFloor can .roip .fresh .fresh (Hub.roipDatagram datagram) := by
  unfold Hub.roipDatagram
  dsimp only
  split
  · exact rfl
  · refine keepsFloor_skip rfl rfl fun found _ => ?_
    unfold Prog.when
    split_ifs
    · exact keepsFloor_last (Or.inr ⟨rfl, rfl⟩) fun _ => rfl
    · exact rfl

/-- Every handler keeps to the floor protocol. -/
theorem keepsFloor_prog (r : Request) : KeepsFloor can r.thread r.stance .fresh r.prog := by
  cases r with
  | connect x first => exact keepsFloor_registerClient
  | signal x msg choices =>
    by_cases hdown : msg = .pttDown
    · subst hdown
      exact keepsFloor_handlePTTDown
    by_cases hup : msg = .pttUp
    · subst hup
      exact keepsFloor_handlePTTUp
    by_cases hid : ∃ p, msg = .identify p
    · obtain ⟨p, rfl⟩ := hid
      exact keepsFloor_identifySignal
    have hstance : (Request.signal x msg choices).stance = .fresh := by
      cases msg with
      | identify p => exact absurd ⟨p, rfl⟩ hid
      | pttDown => contradiction
      | pttUp => contradiction
      | _ => rfl
    rw [hstance]
    exact Hub.handleSignal_rule (M := KeepsFloor can (.client x) .fresh .fresh) x msg choices
      (fun _ hp => keepsFloor_background rfl hp) (fun p hp => absurd ⟨p, hp⟩ hid)
      keepsFloor_switchChannel keepsFloor_createSignal (fun h => absurd h hdown)
      (fun h => absurd h hup)
  | audio x data => exact keepsFloor_handleBinaryAudio data
  | disconnect x => exact keepsFloor_unregisterClient
  | totExpires c timer => exact keepsFloor_totGoroutine
  | datagram data => exact keepsFloor_roipDatagram data

end Follows

end TwoWayRadio

import TwoWayRadio.AudioFanOut
import TwoWayRadio.FloorHistory
import TwoWayRadio.OwnChannel

/-! `SwitchChannel` as a transaction: a switch is refused and leaves no trace but its answer, or it
is carried out whole and touches nothing but the client, its two channels and its own video. -/
namespace TwoWayRadio
open Interleaving Transition

/-- The calls that read the hub and send, and change nothing else. -/
def HubOp.reports : HubOp → Bool
  | currentChannel _ | lookupSwitch .. | lookupChannel _ | getChannelList | history _
  | activeVideo _ | clientByID _ | broadcastAll _ | allCallAudio .. | getRelay | isFloorHolder ..
  | getState _ | getUserCallsigns _ | getSubscribersInfo _ | broadcastSignal .. | broadcastAudio ..
  | sendJSON .. | sendPriorityJSON .. | fields _ | clock | relay .. => true
  | _ => false

/-- The shared state, without what has been sent. -/
def Hub.withoutOutbox (h : Hub) : Hub := { h with outbox := [] }

theorem HubOp.withoutOutbox_run {op : HubOp} (hop : op.reports = true) (h : Hub) :
    (op.run h).2.withoutOutbox = h.withoutOutbox := by
  cases op <;> first | rfl | cases hop

/-- `chan'` is what a channel is once `x` has left it: without `x` among its subscribers and, just
when `x` held its floor, with that floor idle and its time-out timer stopped. -/
structure Channel.Leaves (x : ClientRef) (chan chan' : Channel) : Prop where
  released : chan.isFloorHolder x = true → chan' = { chan with
    subscribers := chan.subscribers.erase x
    activeSpeaker := none
    isBusy := false
    totTimer := none
    timers := chan.totTimer.elim chan.timers fun t => chan.timers.modify t Timer.stop }
  kept : chan.isFloorHolder x = false → chan' = { chan with
    subscribers := chan.subscribers.erase x }

theorem Channel.leaves_removeSubscriber (x : ClientRef) {chan : Channel} (hb : chan.BusyAgrees) :
    chan.Leaves x (chan.removeSubscriber x).2 := by
  have hholder : chan.isFloorHolder x = true ↔ chan.activeSpeaker = some x := by
    unfold isFloorHolder
    rw [Bool.and_eq_true, beq_iff_eq]
    refine ⟨fun hboth => hboth.2, fun hspeaker => ⟨?_, hspeaker⟩⟩
    apply hb.mpr
    rw [hspeaker]
    exact Option.some_ne_none x
  constructor
  · intro hheld
    rw [removeSubscriber, if_pos (hholder.mp hheld)]
    unfold cancelTOT
    cases hnone : chan.totTimer with
    | none => simp
    | some t => simp
  · intro hnot
    have hspeaker : chan.activeSpeaker ≠ some x := by
      intro hspeaker
      rw [hholder.mpr hspeaker] at hnot
      cases hnot
    rw [removeSubscriber, if_neg hspeaker]

namespace Hub

section Reports

variable {α : Type}

/-- A handler that only reports leaves the shared state as it was. -/
theorem withoutOutbox_after {p : HubProg α} (hp : p.All fun op => op.reports = true) (h : Hub) :
    (after p h).withoutOutbox = h.withoutOutbox :=
  after_of_all (I := fun g => g.withoutOutbox = h.withoutOutbox)
    (fun _ g hop hg => (HubOp.withoutOutbox_run hop g).trans hg) hp rfl

theorem reports_broadcastUserList (ch : ChannelID) :
    (broadcastUserList ch).All fun op => op.reports = true :=
  Prog.all_then rfl fun _ => Prog.all_then rfl fun _ => Prog.all_perform rfl

theorem reports_announceIdle (ch : ChannelID) (c : Client) :
    (announceIdle ch c).All fun op => op.reports = true :=
  Prog.all_then rfl fun _ => Prog.all_then rfl fun _ => Prog.all_perform rfl

theorem reports_showChannel (x : ClientRef) (ch : ChannelID) :
    (showChannel x ch).All fun op => op.reports = true :=
  Prog.all_then rfl fun _ => Prog.all_then rfl fun _ => Prog.all_then rfl fun _ =>
    Prog.all_then rfl fun _ => Prog.all_ifSome fun _ => Prog.all_perform rfl

end Reports

section Effects

variable {x : ClientRef} {new : ChannelID} {password : String}

/-- The critical section of a channel neither reads what has been sent nor adds to it. -/
theorem withoutOutbox_onChannel {α : Type} (ch : ChannelID) (absent : α)
    (f : Channel → α × Channel) (h : Hub) :
    (h.onChannel ch absent f).2.withoutOutbox = (h.withoutOutbox.onChannel ch absent f).2 := by
  unfold onChannel
  rw [show h.withoutOutbox.channels = h.channels from rfl]
  split <;> rfl

/-- The video of `ch` is taken off if it is the one that `x` sends. -/
def endOwnVideo (x : ClientRef) (ch : ChannelID) (h : Hub) : Hub :=
  { h with
    activeVideoByChannel := Function.update h.activeVideoByChannel ch
      (if (h.activeVideoByChannel ch).any fun v => v.senderID == (h.heap x).id then none
        else h.activeVideoByChannel ch) }

/-- What the departure of `x` from `ch` does to the shared state. -/
def afterLeave (x : ClientRef) (ch : ChannelID) (h : Hub) : Hub :=
  (h.onChannel ch false fun c => c.removeSubscriber x).2.endOwnVideo x ch

/-- Of a client on no channel there is nothing to take off. -/
def afterLeaveOld (x : ClientRef) (h : Hub) : Hub :=
  (h.channelOf x).elim h fun old => h.afterLeave x old

/-- What the arrival of `x` on `ch` does to it. -/
def afterEnter (x : ClientRef) (ch : ChannelID) (h : Hub) : Hub :=
  ((h.setClient x { h.heap x with currentChannelID := ch }).onChannel ch () fun c =>
    ((), c.addSubscriber x)).2

theorem withoutOutbox_endVideoOf (x : ClientRef) (ch : ChannelID) (h : Hub) :
    (after (endVideoOf ch x) h).withoutOutbox = h.withoutOutbox.endOwnVideo x ch := by
  have hvideo : (HubOp.activeVideo ch).run h = (h.activeVideoByChannel ch, h) := rfl
  have hfields : (HubOp.fields x).run h = (h.heap x, h) := rfl
  have hread : h.withoutOutbox.activeVideoByChannel = h.activeVideoByChannel ∧
      h.withoutOutbox.heap = h.heap := ⟨rfl, rfl⟩
  simp only [endVideoOf, Prog.perform_bind, after_call, hvideo, hfields]
  rw [after_when, endOwnVideo, hread.1, hread.2]
  split_ifs
  · rfl
  · rw [Function.update_eq_self]
    rfl

theorem withoutOutbox_leaveChannel (x : ClientRef) (c : Client) (ch : ChannelID) (h : Hub) :
    (after (leaveChannel x c ch) h).withoutOutbox = h.withoutOutbox.afterLeave x ch := by
  let removed := ((HubOp.removeSubscriber ch x).run h).2
  have hremoved : removed.withoutOutbox =
      (h.withoutOutbox.onChannel ch false fun c => c.removeSubscriber x).2 :=
    withoutOutbox_onChannel ch false _ h
  simp only [leaveChannel, Prog.perform_bind, after_call, after_bind]
  rw [withoutOutbox_endVideoOf, afterLeave, ← hremoved]
  -- between the removal and the end of the video there are only announcements
  apply congrArg (endOwnVideo x ch)
  calc
    _ = (after (broadcastUserList ch) removed).withoutOutbox :=
      withoutOutbox_after (Prog.all_when (reports_announceIdle ch c)) _
    _ = removed.withoutOutbox := withoutOutbox_after (reports_broadcastUserList ch) removed

theorem withoutOutbox_enterChannel (x : ClientRef) (ch : ChannelID) (h : Hub) :
    (after (enterChannel x ch) h).withoutOutbox = h.withoutOutbox.afterEnter x ch := by
  let tuned := ((HubOp.setCurrentChannel x ch).run h).2
  simp only [enterChannel, Prog.perform_bind, after_call, after_bind]
  calc
    _ = (after (broadcastUserList ch) ((HubOp.addSubscriber ch x).run tuned).2).withoutOutbox :=
      withoutOutbox_after (reports_showChannel x ch) _
    _ = ((HubOp.addSubscriber ch x).run tuned).2.withoutOutbox :=
      withoutOutbox_after (reports_broadcastUserList ch) _
    _ = h.withoutOutbox.afterEnter x ch := withoutOutbox_onChannel ch () _ tuned

/-- The early returns of `SwitchChannel`, each with the text of its error, if it sends one. -/
inductive RefusesSwitch (x : ClientRef) (new : ChannelID) (password : String) (h : Hub) :
    Option String → Prop
  | unknown (hnew : ¬ h.HasChannel new) :
    RefusesSwitch x new password h (some "channel does not exist")
  | same (hnew : h.HasChannel new) (hcur : (h.heap x).currentChannelID = new) :
    RefusesSwitch x new password h none
  | wrongPassword (definition : ChannelDef) (hnew : h.definitionOf new = some definition)
    (hcur : (h.heap x).currentChannelID ≠ new) (hprivate : definition.isPrivate = true)
    (hwrong : definition.password ≠ password) :
    RefusesSwitch x new password h (some "incorrect password for private channel")

/-- The answer of a refused switch, which goes to `x` and nobody else. -/
def refusal (x : ClientRef) (reply : Option String) (h : Hub) : List Delivery :=
  reply.toList.map fun text => .enqueue x .send (.json (.error text) h.unixMilli)

theorem after_switchChannel_refused {reply : Option String} {h : Hub}
    (hrefused : h.RefusesSwitch x new password reply) :
    after (switchChannel x new password) h =
      { h with outbox := h.outbox ++ h.refusal x reply } := by
  have hlook : (HubOp.lookupSwitch x new).run h = ((h.definitionOf new, h.channelOf x), h) := rfl
  have hfields : (HubOp.fields x).run h = (h.heap x, h) := rfl
  simp only [switchChannel, Prog.perform_bind, after_call, hlook]
  cases hrefused with
  | unknown hnew =>
    have hnone : h.definitionOf new = none := by
      rw [hasChannel_iff_definition, not_exists] at hnew
      exact Option.eq_none_iff_forall_ne_some.mpr hnew
    simp only [hnone]
    rfl
  | same hnew hcur =>
    obtain ⟨definition, hd⟩ := hasChannel_iff_definition.mp hnew
    simp only [hd, after_call, hfields]
    rw [if_pos hcur, refusal]
    simp
  | wrongPassword definition hnew hcur hprivate hwrong =>
    simp only [hnew, after_call, hfields]
    rw [if_neg hcur, if_pos ⟨hprivate, hwrong⟩]
    rfl

/-- A switch that is not refused is a departure from the old channel, if there is one, and an
arrival on the new one. -/
theorem after_switchChannel_moved {h : Hub}
    (hmoved : ∀ reply, ¬ h.RefusesSwitch x new password reply) :
    (after (switchChannel x new password) h).withoutOutbox =
      (h.withoutOutbox.afterLeaveOld x).afterEnter x new := by
  have hlook : (HubOp.lookupSwitch x new).run h = ((h.definitionOf new, h.channelOf x), h) := rfl
  have hfields : (HubOp.fields x).run h = (h.heap x, h) := rfl
  have hnew : h.HasChannel new := by
    by_contra hnone
    exact hmoved _ (.unknown hnone)
  have hcur : (h.heap x).currentChannelID ≠ new := fun hcur => hmoved _ (.same hnew hcur)
  obtain ⟨definition, hd⟩ := hasChannel_iff_definition.mp hnew
  have hfits : ¬ (definition.isPrivate = true ∧ definition.password ≠ password) :=
    fun hwrong => hmoved _ (.wrongPassword definition hd hcur hwrong.1 hwrong.2)
  simp only [switchChannel, Prog.perform_bind, after_call, hlook, hd, hfields]
  rw [if_neg hcur, if_neg hfits, after_bind, withoutOutbox_enterChannel]
  apply congrArg (afterEnter x new)
  rw [afterLeaveOld, show h.withoutOutbox.channelOf x = h.channelOf x from rfl]
  cases h.channelOf x with
  | none => rfl
  | some old => exact withoutOutbox_leaveChannel x (h.heap x) old h

end Effects

section Moves

/-- `h'` is `h` but for channels, videos, the fields of clients and what has been sent. -/
def KeepsRest (h h' : Hub) : Prop :=
  h' = { h with
    channels := h'.channels
    activeVideoByChannel := h'.activeVideoByChannel
    heap := h'.heap
    outbox := h'.outbox }

theorem KeepsRest.trans {h g k : Hub} (h₁ : h.KeepsRest g) (h₂ : g.KeepsRest k) :
    h.KeepsRest k := by
  apply Eq.trans h₂
  rw [h₁]

theorem keepsRest_onChannel {α : Type} (ch : ChannelID) (absent : α) (f : Channel → α × Channel)
    (h : Hub) : h.KeepsRest (h.onChannel ch absent f).2 := by
  unfold onChannel
  split <;> rfl

theorem keepsRest_afterLeaveOld (x : ClientRef) (h : Hub) : h.KeepsRest (h.afterLeaveOld x) := by
  unfold afterLeaveOld
  cases h.channelOf x with
  | none => rfl
  | some old =>
    have hvideo : ∀ g : Hub, g.KeepsRest (g.endOwnVideo x old) := fun g => rfl
    exact (keepsRest_onChannel old false _ h).trans (hvideo _)

theorem keepsRest_afterEnter (x : ClientRef) (ch : ChannelID) (h : Hub) :
    h.KeepsRest (h.afterEnter x ch) := by
  have hclient : ∀ c : Client, h.KeepsRest (h.setClient x c) := fun c => rfl
  exact (hclient _).trans (keepsRest_onChannel ch () _ _)

theorem heap_afterLeaveOld (x : ClientRef) (h : Hub) : (h.afterLeaveOld x).heap = h.heap := by
  unfold afterLeaveOld
  cases h.channelOf x with
  | none => rfl
  | some old => exact onChannel_heap old false _ h

theorem lookup_afterLeaveOld (x : ClientRef) (h : Hub) (c : ChannelID) :
    (h.afterLeaveOld x).channels.lookup c =
      if h.channelOf x = some c then
        (h.channels.lookup c).map fun chan => (chan.removeSubscriber x).2
      else h.channels.lookup c := by
  unfold afterLeaveOld
  cases h.channelOf x with
  | none => rfl
  | some old =>
    apply (lookup_onChannel old c false _ h).trans
    by_cases heq : c = old
    · rw [heq, if_pos rfl, if_pos rfl]
    · rw [if_neg heq, if_neg fun hold => heq (Option.some.inj hold).symm]

theorem video_afterLeaveOld (x : ClientRef) (h : Hub) (c : ChannelID) :
    (h.afterLeaveOld x).activeVideoByChannel c =
      if h.channelOf x = some c ∧
        (h.activeVideoByChannel c).any (fun v => v.senderID == (h.heap x).id) = true then none
      else h.activeVideoByChannel c := by
  unfold afterLeaveOld
  cases h.channelOf x with
  | none => rfl
  | some old =>
    show Function.update _ old _ c = _
    rw [onChannel_part (g := Hub.activeVideoByChannel) (fun _ _ => rfl), onChannel_heap]
    by_cases heq : c = old
    · rw [heq, Function.update_self]
      simp only [true_and]
    · rw [Function.update_of_ne heq, if_neg fun hold => heq (Option.some.inj hold.1).symm]

/-- `h'` is `h` after `x` has moved to the channel `new`, and after nothing else. `channelOf` is the
channel that `x` comes from. -/
structure Moved (x : ClientRef) (new : ChannelID) (h h' : Hub) : Prop where
  tuned : h'.heap = Function.update h.heap x { h.heap x with currentChannelID := new }
  left : ∀ old chan, h.channelOf x = some old → h.channels.lookup old = some chan →
    ∃ chan', h'.channels.lookup old = some chan' ∧ chan.Leaves x chan'
  entered : ∃ chan, h.channels.lookup new = some chan ∧
    h'.channels.lookup new = some (chan.addSubscriber x)
  video : ∀ old, h.channelOf x = some old → h'.activeVideoByChannel old =
    if (h.activeVideoByChannel old).any fun v => v.senderID == (h.heap x).id then none
    else h.activeVideoByChannel old
  otherChannels : ∀ c, h.channelOf x ≠ some c → c ≠ new →
    h'.channels.lookup c = h.channels.lookup c
  otherVideos : ∀ c, h.channelOf x ≠ some c →
    h'.activeVideoByChannel c = h.activeVideoByChannel c
  rest : h.KeepsRest h'

/-- The two halves of a switch make up a move. -/
theorem moved_of_withoutOutbox {x : ClientRef} {new : ChannelID} {h h' : Hub} (hb : h.BusyAgrees)
    (hnew : h.HasChannel new) (hcur : (h.heap x).currentChannelID ≠ new)
    (heq : h'.withoutOutbox = (h.withoutOutbox.afterLeaveOld x).afterEnter x new) :
    h.Moved x new h' := by
  obtain ⟨chan, hchan⟩ := hasChannel_iff.mp hnew
  have hne : h.channelOf x ≠ some new := fun hold => hcur (channelOf_eq hold).symm
  -- the channels and the videos after both halves, each in terms of those before
  have hlookup : ∀ c, h'.channels.lookup c =
      if c = new then
        ((h.withoutOutbox.afterLeaveOld x).channels.lookup new).map fun chan => chan.addSubscriber x
      else (h.withoutOutbox.afterLeaveOld x).channels.lookup c := by
    intro c
    apply (congrArg (fun g => g.channels.lookup c) heq).trans
    exact lookup_onChannel new c () _ _
  have hleft : ∀ c, (h.withoutOutbox.afterLeaveOld x).channels.lookup c =
      if h.channelOf x = some c then
        (h.channels.lookup c).map fun chan => (chan.removeSubscriber x).2
      else h.channels.lookup c :=
    lookup_afterLeaveOld x h.withoutOutbox
  have hvideo : ∀ c, h'.activeVideoByChannel c =
      if h.channelOf x = some c ∧
        (h.activeVideoByChannel c).any (fun v => v.senderID == (h.heap x).id) = true then none
      else h.activeVideoByChannel c := by
    intro c
    calc
      _ = (h.withoutOutbox.afterLeaveOld x).activeVideoByChannel c :=
        (congrArg (fun g => g.activeVideoByChannel c) heq).trans
          (onChannel_part (g := fun g => g.activeVideoByChannel c) (fun _ _ => rfl) new () _ _)
      _ = _ := video_afterLeaveOld x h.withoutOutbox c
  constructor
  case tuned =>
    calc
      _ = ((h.withoutOutbox.afterLeaveOld x).afterEnter x new).heap := congrArg heap heq
      _ = _ := by
        rw [afterEnter, onChannel_heap, setClient, heap_afterLeaveOld]
        rfl
  case left =>
    intro old chan' hold hchan'
    have hother : old ≠ new := fun heq => hne (heq ▸ hold)
    rw [hlookup, if_neg hother, hleft, if_pos hold, hchan']
    exact ⟨_, rfl, Channel.leaves_removeSubscriber x (hb old chan' hchan')⟩
  case entered =>
    rw [hlookup, if_pos rfl, hleft, if_neg hne, hchan]
    exact ⟨chan, rfl, rfl⟩
  case video =>
    intro old hold
    rw [hvideo]
    simp only [hold, true_and]
  case otherChannels =>
    intro c hc hcnew
    rw [hlookup, if_neg hcnew, hleft, if_neg hc]
  case otherVideos =>
    intro c hc
    rw [hvideo, if_neg fun hold => hc hold.1]
  case rest =>
    have hrest : h.withoutOutbox.KeepsRest h'.withoutOutbox := by
      rw [heq]
      exact (keepsRest_afterLeaveOld x _).trans (keepsRest_afterEnter x new _)
    exact congrArg (fun g => { g with outbox := h'.outbox }) hrest

end Moves

end Hub

section Run

variable {γ : Type} {note : Request → Hub → Hub → γ → γ} {cfg : Config}
  {recorder : Option AudioRecorder} {roipRelay : Bool} {heap : Clients} {now : ℤ} {g : γ}
  {es : List SerialEvent} {s : SerialHub γ}

theorem busyAgrees_of_serial (hrun : Run (serialStep note)
    (SerialHub.init (newHub cfg recorder roipRelay heap now) g) es s) : s.hub.BusyAgrees := by
  obtain ⟨fs, u, hr, hu⟩ := SerialHub.refines hrun
  have hbusy := hr.invariant (I := fun u => u.hub.BusyAgrees)
    (fun _ _ _ hs h => busyAgrees_step hs h) (newHub_busyAgrees cfg recorder roipRelay heap now)
  rwa [hu.hub] at hbusy

/-- A registered client is tuned to its channel after a switch as it was before. -/
theorem home_of_switch (hcfg : cfg.defaultChannels ≠ [])
    (hrun : Run (serialStep note) (SerialHub.init (newHub cfg recorder roipRelay heap now) g) es s)
    {x : ClientRef} (hlive : s.phase x = .live) (new : ChannelID) (password : String) :
    Home x (Hub.after (Hub.switchChannel x new password) s.hub) := by
  let join := Request.signal x (.joinChannel ⟨⟨new, password⟩, true⟩) {}
  have hadm : join.admitted s.hub s.phase = true := decide_eq_true hlive
  obtain ⟨t, ht⟩ := @serialStep_enabled _ note _ _ hadm
  obtain ⟨_, hhub, hphase, _⟩ := serialStep_serve ht
  have hhome := home_of_serial hcfg (hrun.append (Run.cons ht (Run.nil t))) x
  have hstays : join.phaseAfter s.phase x = .live := hlive
  rw [hphase, hhub, if_pos hstays] at hhome
  exact hhome

/-- A switch is all or nothing. A refused one sends at most an error to its client and changes
nothing else. Any other moves the client: off its old channel, whose floor and video end if they
were its own, and onto the new one, with the rest of the hub as it was. A registered client is on
one channel before and after. -/
theorem switch_all_or_nothing
    (hrun : Run (serialStep note) (SerialHub.init (newHub cfg recorder roipRelay heap now) g) es s)
    (x : ClientRef) (new : ChannelID) (password : String) :
    (∀ reply, s.hub.RefusesSwitch x new password reply →
      Hub.after (Hub.switchChannel x new password) s.hub =
        { s.hub with outbox := s.hub.outbox ++ s.hub.refusal x reply }) ∧
    ((∀ reply, ¬ s.hub.RefusesSwitch x new password reply) →
      s.hub.Moved x new (Hub.after (Hub.switchChannel x new password) s.hub)) ∧
    (cfg.defaultChannels ≠ [] → s.phase x = .live →
      Home x s.hub ∧ Home x (Hub.after (Hub.switchChannel x new password) s.hub)) := by
  refine ⟨fun reply hrefused => Hub.after_switchChannel_refused hrefused, fun haccepted => ?_,
    fun hcfg hlive => ⟨?_, home_of_switch hcfg hrun hlive new password⟩⟩
  · have hnew : s.hub.HasChannel new := by
      by_contra hnone
      exact haccepted _ (.unknown hnone)
    have hcur : (s.hub.heap x).currentChannelID ≠ new :=
      fun hcur => haccepted _ (.same hnew hcur)
    exact Hub.moved_of_withoutOutbox (busyAgrees_of_serial hrun) hnew hcur
      (Hub.after_switchChannel_moved haccepted)
  · have hhome := home_of_serial hcfg hrun x
    rwa [if_pos hlive] at hhome

end Run

/-- Unit 0 has the floor of channel 1 and sends a video there. -/
def onAirWithVideo : List SerialEvent :=
  onAir ++ [.serve (.signal 0 (.videoCallStart ⟨{ channelID := 1 }, true⟩) {})]

theorem switch_all_or_nothing_onAirWithVideo :
    ∃ s, Run (serialStep noNote)
        (SerialHub.init (newHub defaultConfig none false sampleClients 0) ()) onAirWithVideo s ∧
      s.hub.holder 1 = some 0 ∧
      s.hub.Moved 0 2 (Hub.after (Hub.switchChannel 0 2 "") s.hub) := by
  have hrun := run_get (serialStep noNote)
    (SerialHub.init (newHub defaultConfig none false sampleClients 0) ()) onAirWithVideo
    (by decide +kernel)
  refine ⟨_, hrun, by decide +kernel, ?_⟩
  apply (switch_all_or_nothing hrun 0 2 "").2.1
  intro reply hrefused
  cases hrefused with
  | unknown hnew =>
    apply hnew
    unfold Hub.HasChannel
    decide +kernel
  | same hnew hcur => exact absurd hcur (by decide +kernel)
  | wrongPassword definition hnew hcur hprivate hwrong =>
    have hany := congrArg (Option.any fun d => d.isPrivate) hnew
    rw [Option.any_some, hprivate] at hany
    exact absurd hany (by decide +kernel)

end TwoWayRadio

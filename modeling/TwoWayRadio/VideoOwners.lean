import TwoWayRadio.FloorNames
import TwoWayRadio.VideoAnnouncements

/-! The owners of the video slots: for any interleaving of the handlers of all clients, a client's
video is on the channel that the client is tuned to, and on no other. -/
namespace TwoWayRadio
open Interleaving Transition

/-- How far the handlers of a client have come with its video. -/
inductive VideoStage
  | fresh
  | rest
  -- off the list of its channel, which may still show its video
  | leaving
  | looked (video : Option VideoSignalingPayload)
  | found
  | gone

/-- Whether a slot can hold a video of the client with this ID. -/
def VideoStage.mayShow (id : String) : VideoStage → Bool
  | fresh | gone => false
  | looked video => video.any fun v => v.senderID == id
  | rest | leaving | found => true

/-- Where the handler of a client stands: the IDs it has read, the channels it has seen to exist,
and the video that it has read in a slot and has still to show. -/
structure VideoDuty where
  stage : VideoStage
  ids : List String := []
  targets : List ChannelID := []
  shown : Option VideoSignalingPayload := none

/-- The video that a handler has still to show its client after a call. -/
def HubOp.shows : (op : HubOp) → op.Res → Option VideoSignalingPayload →
    Option VideoSignalingPayload
  | history _, r, _ => r.2
  | sendJSON _ (.videoCallStart _), _, _ => none
  | _, _, video => video

namespace VideoDuty

/-- A handler that has read the slot of its channel decides by its client's ID. -/
def decided (id : String) : VideoStage → VideoStage
  | .looked video => if video.any fun v => v.senderID == id then .found else .gone
  | stage => stage

def next (d : VideoDuty) : (op : HubOp) → op.Res → VideoDuty
  | .register .., _ | .setCurrentChannel .., _ => { d with stage := .rest }
  | .unregister _, _ | .removeSubscriber .., _ => { d with stage := .leaving }
  | .activeVideo _, video => { d with stage := .looked video }
  | .fields _, c => { d with stage := decided c.id d.stage, ids := c.id :: d.ids }
  | .deleteVideo _, _ => { d with stage := .gone }
  | .lookupSwitch _ new, r =>
    { d with targets := if r.1.isSome then new :: d.targets else d.targets }
  | .history _, r => { d with shown := r.2 }
  | .sendJSON _ (.videoCallStart _), _ => { d with shown := none }
  | _, _ => d

def Permits (d : VideoDuty) : HubOp → Prop
  | .register .. => d.stage = .fresh ∧ d.shown = none
  | .unregister _ => d.stage = .rest
  | .removeSubscriber .. => d.stage = .rest ∨ d.stage = .leaving
  | .activeVideo _ => d.stage = .leaving
  | .deleteVideo _ => d.stage = .found
  | .startVideo _ p => d.stage = .rest ∧ p.senderID ∈ d.ids
  | .setCurrentChannel _ new => d.stage = .gone ∧ d.shown = none ∧ new ∈ d.targets
  | .lookupSwitch .. => d.stage ≠ .fresh
  | .sendJSON _ (.videoCallStart v) => d.shown = some v
  | _ => True

/-- A handler past the registration of its client stays past it. -/
theorem next_stage_ne_fresh {d : VideoDuty} {op : HubOp} (hd : d.stage ≠ .fresh) (r : op.Res) :
    (d.next op r).stage ≠ .fresh := by
  cases op with
  | register y first => exact VideoStage.noConfusion
  | setCurrentChannel y new => exact VideoStage.noConfusion
  | unregister y => exact VideoStage.noConfusion
  | removeSubscriber ch y => exact VideoStage.noConfusion
  | activeVideo ch => exact VideoStage.noConfusion
  | deleteVideo ch => exact VideoStage.noConfusion
  | fields y =>
    show decided r.id d.stage ≠ .fresh
    unfold decided
    split
    · split_ifs <;> exact VideoStage.noConfusion
    · exact hd
  | sendJSON x msg => cases msg <;> exact hd
  | _ => exact hd

theorem next_shown (d : VideoDuty) (op : HubOp) (r : op.Res) :
    (d.next op r).shown = op.shows r d.shown := by
  cases op with
  | sendJSON x msg => cases msg <;> rfl
  | _ => rfl

end VideoDuty

/-- A client that is on a channel finds its channel when it leaves. -/
def videoDuty : Prog.Protocol HubOp.Res VideoDuty where
  ok := VideoDuty.Permits
  next := VideoDuty.next
  can := fun op r => match op, r with
    | .unregister _, r => r.isSome = true
    | .lookupSwitch .., r => r.2.isSome = true
    | _, _ => True

/-- The calls that are always permitted and move no handler. -/
def HubOp.offAir : HubOp → Bool
  | register .. | unregister _ | removeSubscriber .. | activeVideo _ | deleteVideo _ | startVideo ..
  | setCurrentChannel .. | lookupSwitch .. | history _ | sendJSON _ (.videoCallStart _) => false
  | _ => true

/-- A handler at this stage, with this video still to show, which knows at least these channels to
exist. -/
structure VideoDuty.At (stage : VideoStage) (shown : Option VideoSignalingPayload)
    (targets : List ChannelID) (d : VideoDuty) : Prop where
  stage : d.stage = stage
  shown : d.shown = shown
  targets : ∀ ch ∈ targets, ch ∈ d.targets

theorem VideoDuty.At.here (d : VideoDuty) : d.At d.stage d.shown [] :=
  ⟨rfl, rfl, List.forall_mem_nil _⟩

/-- The stage of a client none of whose handlers is in progress. -/
def Phase.videoStage : Phase → VideoStage
  | fresh => .fresh
  | live => .rest
  | closed => .gone

section Follows

open Prog

variable {α : Type} {x : ClientRef} {ch : ChannelID} {d : VideoDuty} {stage : VideoStage}
  {shown : Option VideoSignalingPayload} {targets : List ChannelID}

theorem duty_offAir {p : HubProg α} (hstage : ∀ video, stage ≠ .looked video)
    (hp : p.All fun op => op.offAir = true) (hd : d.At stage shown targets) :
    p.Follows videoDuty (fun _ => VideoDuty.At stage shown targets) d := by
  refine follows_of_kept (fun d op hd hop => ?_) hp hd
  obtain ⟨rfl, rfl, htargets⟩ := hd
  cases op with
  | fields y =>
    refine ⟨trivial, fun c => ⟨?_, rfl, htargets⟩⟩
    show VideoDuty.decided c.id d.stage = d.stage
    cases hs : d.stage with
    | looked video => exact absurd hs (hstage video)
    | _ => rfl
  | sendJSON y msg =>
    cases msg <;> first | exact ⟨trivial, fun _ => ⟨rfl, rfl, htargets⟩⟩ | cases hop
  | lookupSwitch y new => cases hop
  | history ch => cases hop
  | register y first => cases hop
  | unregister y => cases hop
  | removeSubscriber ch y => cases hop
  | activeVideo ch => cases hop
  | deleteVideo ch => cases hop
  | startVideo y p => cases hop
  | setCurrentChannel y new => cases hop
  | _ => exact ⟨trivial, fun _ => ⟨rfl, rfl, htargets⟩⟩

/-- Where nothing more is asked of the handler than its stage. -/
theorem duty_offAir_stage {p : HubProg α} (hstage : ∀ video, stage ≠ .looked video)
    (hp : p.All fun op => op.offAir = true) (hd : d.stage = stage) :
    p.Follows videoDuty (fun _ d => d.stage = stage) d := by
  subst hd
  exact (duty_offAir hstage hp (.here d)).mono fun _ _ h => h.stage

theorem offAir_broadcastUserList (ch : ChannelID) :
    (Hub.broadcastUserList ch).All fun op => op.offAir = true :=
  all_then rfl fun _ => all_then rfl fun _ => all_perform rfl

theorem offAir_announceIdle (ch : ChannelID) (c : Client) :
    (Hub.announceIdle ch c).All fun op => op.offAir = true :=
  all_then rfl fun _ => all_then rfl fun _ => all_perform rfl

/-- The end of the video of a client that leaves: whatever it finds, its channel does not show it
afterwards. -/
theorem duty_endVideoOf (hd : d.At .leaving shown targets) :
    (Hub.endVideoOf ch x).Follows videoDuty (fun _ => VideoDuty.At .gone shown targets) d := by
  refine follows_then hd.stage fun video _ => follows_then trivial fun c _ => ?_
  have hstage : (VideoDuty.decided c.id (.looked video)) =
      if video.any fun v => v.senderID == c.id then .found else .gone := rfl
  unfold when
  split_ifs with hown
  · rw [if_pos hown] at hstage
    refine follows_then hstage fun _ _ => ?_
    exact duty_offAir (fun _ => VideoStage.noConfusion) (all_perform rfl)
      ⟨rfl, hd.shown, hd.targets⟩
  · rw [if_neg hown] at hstage
    exact ⟨hstage, hd.shown, hd.targets⟩

/-- Telling a client of the video that it has just read. -/
theorem duty_showVideo {video : Option VideoSignalingPayload} (hd : d.At stage video targets) :
    (ifSome video fun v => (HubOp.sendJSON x (.videoCallStart v)).call).Follows videoDuty
      (fun _ d => d.stage = stage) d := by
  cases video with
  | none => exact hd.stage
  | some v => exact follows_then hd.shown fun _ _ => hd.stage

theorem duty_welcomeClient (hd : d.stage = .rest) :
    (Hub.welcomeClient x).Follows videoDuty (fun _ d => d.stage = .rest) d := by
  refine follows_then trivial fun c _ => follows_then trivial fun _ _ => follows_then trivial
    fun _ _ => follows_then trivial fun _ _ => follows_then trivial fun r _ => ?_
  have hrest : VideoDuty.decided c.id d.stage = .rest := by rw [hd]; rfl
  refine follows_bind (duty_offAir (fun _ => VideoStage.noConfusion) (all_when (all_perform rfl))
    ⟨hrest, rfl, List.forall_mem_nil _⟩) fun _ d' hd' => duty_showVideo hd'

theorem duty_showChannel (hd : d.stage = .rest) :
    (Hub.showChannel x ch).Follows videoDuty (fun _ d => d.stage = .rest) d :=
  follows_then trivial fun _ _ => follows_then trivial fun _ _ => follows_then trivial
    fun _ _ => follows_then trivial fun _ _ => duty_showVideo ⟨hd, rfl, List.forall_mem_nil _⟩

theorem duty_registerClient {first : ℕ} (hd : d.stage = .fresh) (hshown : d.shown = none) :
    (Hub.registerClient x first).Follows videoDuty (fun _ d => d.stage = .rest) d := by
  refine follows_then ⟨hd, hshown⟩ fun r _ => follows_bind (Q := fun _ d => d.stage = .rest) ?_
    fun _ d' hd' => duty_welcomeClient hd'
  cases r with
  | none => rfl
  | some ch =>
    refine follows_then trivial fun _ _ => ?_
    exact duty_offAir_stage (fun _ => VideoStage.noConfusion) (offAir_broadcastUserList ch) rfl

theorem duty_unregisterClient (hd : d.stage = .rest) :
    (Hub.unregisterClient x).Follows videoDuty (fun _ d => d.stage = .gone) d := by
  refine follows_then hd fun r hr => ?_
  cases r with
  | none => cases hr
  | some ch =>
    refine follows_then (Or.inr rfl) fun released _ => ?_
    refine follows_bind (duty_offAir (fun _ => VideoStage.noConfusion)
      (offAir_broadcastUserList ch) ⟨rfl, rfl, List.forall_mem_nil _⟩) fun _ d' hd' => ?_
    refine follows_bind (duty_endVideoOf hd') fun _ d'' hd'' => ?_
    refine duty_offAir_stage (fun _ => VideoStage.noConfusion) (all_when ?_) hd''.stage
    exact all_then rfl fun c => offAir_announceIdle ch c

theorem duty_leaveChannel {c : Client} (hd : d.At .rest shown targets) :
    (Hub.leaveChannel x c ch).Follows videoDuty (fun _ => VideoDuty.At .gone shown targets) d := by
  refine follows_then (Or.inl hd.stage) fun released _ => ?_
  refine follows_bind (duty_offAir (fun _ => VideoStage.noConfusion)
    (offAir_broadcastUserList ch) ⟨rfl, hd.shown, hd.targets⟩) fun _ d' hd' => ?_
  refine follows_bind (duty_offAir (fun _ => VideoStage.noConfusion)
    (all_when (offAir_announceIdle ch c)) hd') fun _ d'' hd'' => duty_endVideoOf hd''

theorem duty_enterChannel {new : ChannelID} (hd : d.At .gone none [new]) :
    (Hub.enterChannel x new).Follows videoDuty (fun _ d => d.stage = .rest) d := by
  have hnew := hd.targets new (List.mem_singleton_self new)
  refine follows_then ⟨hd.stage, hd.shown, hnew⟩ fun _ _ => follows_then trivial fun _ _ => ?_
  refine follows_bind (duty_offAir (fun _ => VideoStage.noConfusion)
    (offAir_broadcastUserList new) ⟨rfl, hd.shown, hd.targets⟩) fun _ d' hd' =>
    duty_showChannel hd'.stage

theorem duty_switchChannel {new : ChannelID} {password : String} (hd : d.stage = .rest)
    (hshown : d.shown = none) :
    (Hub.switchChannel x new password).Follows videoDuty (fun _ d => d.stage = .rest) d := by
  refine follows_then (fun heq => by rw [hd] at heq; cases heq) fun r hr => ?_
  dsimp only
  split
  · exact follows_then trivial fun _ _ => hd
  · rename_i definition htarget
    refine follows_then trivial fun c _ => ?_
    have hrest : VideoDuty.decided c.id d.stage = .rest := by rw [hd]; rfl
    split_ifs
    · exact hrest
    · exact follows_then trivial fun _ _ => hrest
    -- the channel to enter has been seen to exist, and the one to leave exists
    · have htargets : ∀ ch ∈ [new], ch ∈ if r.1.isSome then new :: d.targets else d.targets := by
        intro ch hch
        rw [htarget, List.mem_singleton.mp hch]
        exact List.mem_cons_self
      cases hold : r.2 with
      | none =>
        rw [videoDuty] at hr
        dsimp only at hr
        rw [hold] at hr
        cases hr
      | some old =>
        exact follows_bind (duty_leaveChannel ⟨hrest, hshown, htargets⟩) fun _ _ hd' =>
          duty_enterChannel hd'

theorem duty_createSignal {p : Decoded CreateChannelPayload} (hd : d.stage = .rest)
    (hshown : d.shown = none) :
    (Hub.createSignal x p).Follows videoDuty (fun _ d => d.stage = .rest) d := by
  unfold Hub.createSignal when
  split_ifs
  · exact follows_then trivial fun newID _ => follows_then trivial fun _ _ =>
      follows_then trivial fun _ _ => duty_switchChannel hd hshown
  · exact hd

/-- A client signs its video with its own ID. -/
theorem duty_videoStartSignal {p : Decoded VideoSignalingPayload} (hd : d.stage = .rest) :
    (Hub.videoStartSignal x p).Follows videoDuty (fun _ d => d.stage = .rest) d := by
  refine follows_then trivial fun c _ => ?_
  have hrest : VideoDuty.decided c.id d.stage = .rest := by rw [hd]; rfl
  refine follows_then ⟨hrest, List.mem_cons_self⟩ fun r _ => ?_
  cases r with
  | none => exact hrest
  | some ch => exact follows_then trivial fun _ _ => hrest

/-- The handler of a request that takes nobody off a channel and shows nobody a video makes no
call that moves it. -/
theorem offAir_prog {r : Request} (hdeparts : r.departs = false) (hshows : r.showsVideo = false) :
    r.prog.All fun op => op.offAir = true := by
  have harrives : r.arrives = false := by
    unfold Request.showsVideo at hshows
    split at hshows
    · rfl
    · exact hshows
  refine (makes_prog r).mono fun op hop => ?_
  have hserved := HubOp.servedBy_of_madeBy hop
  rcases HubOp.untouched_of_servedBy harrives hdeparts hserved with hnone | ⟨ch, y, rfl⟩
  swap
  · rfl
  cases op with
  | register y first => cases hnone
  | unregister y => cases hnone
  | removeSubscriber ch y => cases hnone
  | setCurrentChannel y new => cases hnone
  | activeVideo ch => exact absurd (hdeparts.symm.trans hserved) Bool.false_ne_true
  | deleteVideo ch => exact absurd (hdeparts.symm.trans hserved) Bool.false_ne_true
  | lookupSwitch y new =>
    exact absurd (harrives.symm.trans (arrives_of_switches hserved)) Bool.false_ne_true
  | history ch => exact absurd (harrives.symm.trans hserved) Bool.false_ne_true
  | startVideo y p =>
    simp only [HubOp.servedBy] at hserved
    split at hserved
    · cases hshows
    · cases hserved
  | sendJSON y msg =>
    cases msg with
    | videoCallStart p =>
      have hshown := HubOp.toldBy_of_madeBy hop rfl
      exact absurd (hshows.symm.trans hshown) Bool.false_ne_true
    | _ => rfl
  | _ => rfl

/-- Only switches and the start of a video move the handler of a signal. -/
theorem duty_handleSignal {msg : ClientSignal} {choices : Choices} (hd : d.stage = .rest)
    (hshown : d.shown = none) :
    (Hub.handleSignal x msg choices).Follows videoDuty (fun _ d => d.stage = .rest) d := by
  have hback (hdeparts : (Request.signal x msg choices).departs = false)
      (hshows : (Request.signal x msg choices).showsVideo = false) :
      (Hub.handleSignal x msg choices).Follows videoDuty (fun _ d => d.stage = .rest) d :=
    duty_offAir_stage (fun _ => VideoStage.noConfusion) (offAir_prog hdeparts hshows) hd
  cases msg with
  | joinChannel p =>
    unfold Hub.handleSignal when
    dsimp only
    split_ifs
    · exact duty_switchChannel hd hshown
    · exact hd
  | createChannel p => exact duty_createSignal hd hshown
  | videoCallStart p => exact duty_videoStartSignal hd
  | _ => exact hback rfl rfl

/-- A handler of `x` starts at the stage of its client's phase and ends at that of the next. -/
theorem duty_prog {r : Request} {h : Hub} {phase : ClientRef → Phase} (hr : r.thread = .client x)
    (hadm : r.admitted h phase = true) (hd : d.stage = (phase x).videoStage)
    (hshown : d.shown = none) :
    r.prog.Follows videoDuty (fun _ d => d.stage = (r.phaseAfter phase x).videoStage) d := by
  have hlive : phase x = .live → d.stage = .rest := by
    intro hlive
    rw [hd, hlive]
    rfl
  cases r with
  | connect y first =>
    obtain rfl := Thread.client.inj hr
    have hfresh : phase y = .fresh := of_decide_eq_true hadm
    rw [hfresh] at hd
    rw [show (Request.connect y first).phaseAfter phase y = .live from Function.update_self ..]
    exact duty_registerClient hd hshown
  | signal y msg choices =>
    obtain rfl := Thread.client.inj hr
    have hphase : phase y = .live := of_decide_eq_true hadm
    rw [show (Request.signal y msg choices).phaseAfter phase y = .live from hphase]
    exact duty_handleSignal (hlive hphase) hshown
  | audio y data =>
    obtain rfl := Thread.client.inj hr
    have hphase : phase y = .live := of_decide_eq_true hadm
    rw [show (Request.audio y data).phaseAfter phase y = .live from hphase]
    exact duty_offAir_stage (fun _ => VideoStage.noConfusion)
      (offAir_prog (r := .audio y data) rfl rfl) (hlive hphase)
  | disconnect y =>
    obtain rfl := Thread.client.inj hr
    have hphase : phase y = .live := of_decide_eq_true hadm
    rw [show (Request.disconnect y).phaseAfter phase y = .closed from Function.update_self ..]
    exact duty_unregisterClient (hlive hphase)
  | totExpires ch timer => cases hr
  | datagram data => cases hr

end Follows

/-- What is so of `x` and of the slots where its handler stands. -/
structure VideoDuty.Holds (x : ClientRef) (d : VideoDuty) (h : Hub) : Prop where
  ids : ∀ id ∈ d.ids, id = (h.heap x).id
  targets : ∀ ch ∈ d.targets, h.HasChannel ch
  tuned : d.stage ≠ .fresh → h.HasChannel (h.heap x).currentChannelID
  slots : ∀ c, h.Shows c (h.heap x).id →
    c = (h.heap x).currentChannelID ∧ d.stage.mayShow (h.heap x).id = true

section Holds

variable {x : ClientRef} {d : VideoDuty} {h h' : Hub} {op : HubOp} {c : ChannelID} {id : String}

/-- Only the start of a video with this ID makes a slot show it. -/
theorem shows_run (hop : ∀ y p, op = .startVideo y p → p.senderID ≠ id)
    (hs : (op.run h).2.Shows c id) : h.Shows c id := by
  by_cases heq : (op.run h).2.activeVideoByChannel c = h.activeVideoByChannel c
  · rwa [Hub.Shows, heq] at hs
  · exfalso
    obtain ⟨v, hv, hid⟩ := hs
    cases HubOp.videoCall heq with
    | deleted hgone =>
      rw [hgone] at hv
      cases hv
    | ended y _ _ hgone =>
      rw [hgone] at hv
      cases hv
    | started y p _ hnew =>
      rw [hnew] at hv
      obtain rfl := Option.some.inj hv
      exact hop y p rfl hid

namespace VideoDuty.Holds

/-- A change that leaves `x` where it is and shows no new video of it. -/
theorem kept (hd : d.Holds x h) (hhas : ∀ ch, h.HasChannel ch → h'.HasChannel ch)
    (hid : (h'.heap x).id = (h.heap x).id)
    (hcur : (h'.heap x).currentChannelID = (h.heap x).currentChannelID)
    (hslots : ∀ c, h'.Shows c (h.heap x).id → h.Shows c (h.heap x).id) : d.Holds x h' := by
  refine ⟨fun id hmem => ?_, fun ch hch => hhas ch (hd.targets ch hch), fun hs => ?_,
    fun c hs => ?_⟩
  · rw [hid]
    exact hd.ids id hmem
  · rw [hcur]
    exact hhas _ (hd.tuned hs)
  · rw [hid] at hs ⊢
    rw [hcur]
    exact hd.slots c (hslots c hs)

/-- Calls that neither tune `x` nor start its video. -/
theorem run (hd : d.Holds x h) (htune : op.tunes ≠ some x)
    (hop : ∀ y p, op = .startVideo y p → p.senderID ≠ (h.heap x).id) :
    d.Holds x (op.run h).2 :=
  hd.kept (fun _ => HubOp.hasChannel_run op) (HubOp.id_run op h x) (current_run htune)
    fun _ => shows_run hop

/-- A handler that goes on to a stage at which the same videos can be shown. -/
theorem moves {stage : VideoStage} (hd : d.Holds x h) (hfresh : d.stage ≠ .fresh)
    (hmay : ∀ c, h.Shows c (h.heap x).id → d.stage.mayShow (h.heap x).id = true →
      stage.mayShow (h.heap x).id = true) :
    VideoDuty.Holds x { d with stage := stage } h :=
  ⟨hd.ids, hd.targets, fun _ => hd.tuned hfresh,
    fun c hs => ⟨(hd.slots c hs).1, hmay c hs (hd.slots c hs).2⟩⟩

/-- A call that tunes `x`, at a stage at which nothing of it can be shown. -/
theorem retuned {stage : VideoStage} (hd : d.Holds x h)
    (hsilent : d.stage.mayShow (h.heap x).id = false)
    (hop : ∀ y p, op ≠ .startVideo y p)
    (hin : (op.run h).2.HasChannel ((op.run h).2.heap x).currentChannelID) :
    VideoDuty.Holds x { d with stage := stage } (op.run h).2 := by
  have hid := HubOp.id_run op h x
  refine ⟨fun id hmem => ?_, fun ch hch => HubOp.hasChannel_run op (hd.targets ch hch),
    fun _ => hin, fun c hs => ?_⟩
  · rw [hid]
    exact hd.ids id hmem
  · rw [hid] at hs
    have hmay := (hd.slots c (shows_run (fun y p heq => absurd heq (hop y p)) hs)).2
    rw [hsilent] at hmay
    cases hmay

theorem register (hd : d.Holds x h) (hstage : d.stage = .fresh) (hc : ∃ ch, h.HasChannel ch)
    (first : ℕ) :
    VideoDuty.Holds x { d with stage := .rest } ((HubOp.register x first).run h).2 := by
  have hin : (h.register x first).2.HasChannel
      ((h.register x first).2.heap x).currentChannelID := by
    obtain ⟨ch, hreg, hch⟩ := registrationChannel_some (x := x) first hc
    rw [Hub.register_eq, hreg]
    simp only [Function.update_self]
    exact hch
  exact hd.retuned (by rw [hstage]; rfl) (fun _ _ heq => by cases heq) hin

theorem setCurrentChannel {new : ChannelID} (hd : d.Holds x h) (hstage : d.stage = .gone)
    (hnew : h.HasChannel new) :
    VideoDuty.Holds x { d with stage := .rest } ((HubOp.setCurrentChannel x new).run h).2 := by
  have hcur : (((HubOp.setCurrentChannel x new).run h).2.heap x).currentChannelID = new := by
    simp [HubOp.run, Hub.setClient]
  have hin := HubOp.hasChannel_run (.setCurrentChannel x new) hnew
  rw [← hcur] at hin
  exact hd.retuned (by rw [hstage]; rfl) (fun _ _ heq => by cases heq) hin

theorem startVideo (hd : d.Holds x h) (hstage : d.stage = .rest) (p : VideoSignalingPayload) :
    d.Holds x ((HubOp.startVideo x p).run h).2 := by
  refine ⟨hd.ids, hd.targets, hd.tuned, fun c hs => ⟨?_, ?_⟩⟩
  · by_contra hne
    obtain ⟨v, hv, hid⟩ := hs
    have hold : h.activeVideoByChannel c = some v := by
      rw [← hv]
      exact (Function.update_of_ne hne ..).symm
    exact hne (hd.slots c ⟨v, hold, hid⟩).1
  · rw [hstage]
    rfl

/-- A handler that has found the video of its client deletes it. -/
theorem deleteVideo (hd : d.Holds x h) (hstage : d.stage = .found) :
    VideoDuty.Holds x { d with stage := .gone }
      ((HubOp.deleteVideo (h.heap x).currentChannelID).run h).2 := by
  have hd' : d.Holds x ((HubOp.deleteVideo (h.heap x).currentChannelID).run h).2 :=
    hd.run (Option.some_ne_none x).symm fun _ _ heq => by cases heq
  refine hd'.moves (fun heq => by rw [hstage] at heq; cases heq) fun c hs _ => ?_
  obtain rfl : c = (h.heap x).currentChannelID := (hd'.slots c hs).1
  obtain ⟨v, hv, _⟩ := hs
  have hgone : ((HubOp.deleteVideo (h.heap x).currentChannelID).run h).2.activeVideoByChannel
      (h.heap x).currentChannelID = none := Function.update_self ..
  rw [hgone] at hv
  cases hv

/-- A handler that has looked at the slot of its channel knows whether it shows its client. -/
theorem activeVideo (hd : d.Holds x h) (hstage : d.stage = .leaving) :
    VideoDuty.Holds x
      { d with stage := .looked (h.activeVideoByChannel (h.heap x).currentChannelID) } h := by
  refine hd.moves (fun heq => by rw [hstage] at heq; cases heq) fun c hs _ => ?_
  obtain rfl : c = (h.heap x).currentChannelID := (hd.slots c hs).1
  obtain ⟨v, hv, hid⟩ := hs
  rw [hv]
  exact beq_iff_eq.mpr hid

theorem fields (hd : d.Holds x h) :
    VideoDuty.Holds x { d with
      stage := decided (h.heap x).id d.stage, ids := (h.heap x).id :: d.ids } h := by
  refine ⟨fun id hmem => ?_, hd.targets, fun hs => ?_, fun c hs => ?_⟩
  · rcases List.mem_cons.mp hmem with rfl | hmem
    · rfl
    · exact hd.ids id hmem
  · refine hd.tuned fun heq => hs ?_
    rw [heq]
    rfl
  · obtain ⟨hcur, hmay⟩ := hd.slots c hs
    refine ⟨hcur, ?_⟩
    show (decided (h.heap x).id d.stage).mayShow (h.heap x).id = true
    cases hs : d.stage with
    | looked video =>
      rw [hs, VideoStage.mayShow] at hmay
      rw [decided, if_pos hmay]
      rfl
    | _ =>
      rw [hs] at hmay
      exact hmay

/-- A client that goes off the list of its channel may still be shown there. -/
theorem leaves (hd : d.Holds x h) (hfresh : d.stage ≠ .fresh) (htune : op.tunes ≠ some x)
    (hop : ∀ y p, op ≠ .startVideo y p) :
    VideoDuty.Holds x { d with stage := .leaving } (op.run h).2 :=
  (hd.run htune fun y p heq => absurd heq (hop y p)).moves hfresh fun _ _ _ => rfl

/-- A switch that finds the channel it asks for knows it to exist. -/
theorem lookupSwitch (hd : d.Holds x h) (new : ChannelID) :
    (d.next (.lookupSwitch x new) ((HubOp.lookupSwitch x new).run h).1).Holds x h := by
  refine ⟨hd.ids, fun ch hch => ?_, hd.tuned, hd.slots⟩
  have hmem : ch ∈ if ((h.channels.lookup new).map fun c => c.definition).isSome then
      new :: d.targets else d.targets := hch
  split_ifs at hmem with hsome
  · rcases List.mem_cons.mp hmem with rfl | hmem
    · rwa [Option.isSome_map] at hsome
    · exact hd.targets ch hmem
  · exact hd.targets ch hmem

/-- What a handler of `x` knows stays so through its own calls. -/
theorem call (hd : d.Holds x h) (hkeep : op.KeepsTo x [(h.heap x).currentChannelID])
    (hok : d.Permits op) (hc : ∃ ch, h.HasChannel ch) :
    (d.next op (op.run h).1).Holds x (op.run h).2 := by
  cases op with
  | register y first =>
    obtain rfl : y = x := hkeep
    exact hd.register hok.1 hc first
  | setCurrentChannel y new =>
    obtain rfl : y = x := hkeep
    exact hd.setCurrentChannel hok.1 (hd.targets new hok.2.2)
  | startVideo y p =>
    obtain rfl : y = x := hkeep
    exact hd.startVideo hok.1 p
  | deleteVideo ch =>
    obtain rfl : ch = (h.heap x).currentChannelID := List.mem_singleton.mp hkeep
    exact hd.deleteVideo hok
  | activeVideo ch =>
    obtain rfl : ch = (h.heap x).currentChannelID := List.mem_singleton.mp hkeep
    exact hd.activeVideo hok
  | fields y =>
    obtain rfl : y = x := hkeep
    exact hd.fields
  | unregister y =>
    exact hd.leaves (fun heq => by rw [show d.stage = .rest from hok] at heq; cases heq)
      (Option.some_ne_none x).symm fun _ _ heq => by cases heq
  | removeSubscriber ch y =>
    refine hd.leaves (fun heq => ?_) (Option.some_ne_none x).symm fun _ _ heq => by cases heq
    rcases hok with hs | hs
    · rw [hs] at heq
      cases heq
    · rw [hs] at heq
      cases heq
  | lookupSwitch y new =>
    obtain rfl : y = x := hkeep
    exact hd.lookupSwitch new
  | history ch => exact ⟨hd.ids, hd.targets, hd.tuned, hd.slots⟩
  | sendJSON y msg =>
    have hd' : d.Holds x (HubOp.run (.sendJSON y msg) h).2 :=
      hd.run (Option.some_ne_none x).symm fun _ _ heq => by cases heq
    cases msg <;> exact ⟨hd'.ids, hd'.targets, hd'.tuned, hd'.slots⟩
  | _ => exact hd.run (Option.some_ne_none x).symm fun _ _ heq => by cases heq

end VideoDuty.Holds

end Holds

/-- The video that the handler of each thread has read in a slot and has still to show its
client. -/
def showObserver : Observer (Thread → Option VideoSignalingPayload) where
  starts := fun r g => Function.update g r.thread none
  sees := fun i op r _ g => Function.update g i (op.shows r (g i))

/-- The handler of `x` stands at `d`. -/
structure Attending (s : Server (Thread → Option VideoSignalingPayload)) (x : ClientRef)
    (d : VideoDuty) : Prop where
  holds : d.Holds x s.hub
  shown : d.shown = s.history (.client x)
  follows : (s.pool.task (.client x)).Follows videoDuty
    (fun _ d => d.stage = (s.phase x).videoStage) d

/-- Every slot holds the video of a client, on the channel of that client, and every handler
stands where its client's videos are known. -/
structure VideosOwned (s : Server (Thread → Option VideoSignalingPayload)) : Prop where
  keeps : KeepsToChannels s
  starts : ∀ i, (s.pool.task i).All fun op => ∀ y p, op = .startVideo y p → ∃ x, i = .client x
  distinct : ∀ x y, (s.hub.heap x).id = (s.hub.heap y).id → x = y
  channel : ∃ ch, s.hub.HasChannel ch
  signed : ∀ c v, s.hub.activeVideoByChannel c = some v → ∃ x, (s.hub.heap x).id = v.senderID
  duty : ∀ x, ∃ d, Attending s x d

namespace VideosOwned

variable {s t : Server (Thread → Option VideoSignalingPayload)} {e : ServerEvent} {x : ClientRef}

theorem starts_prog (r : Request) :
    r.prog.All fun op => ∀ y p, op = .startVideo y p → ∃ x, r.thread = .client x := by
  refine (serves_prog r).mono fun op hop y p hstart => ?_
  subst hstart
  cases r with
  | signal x msg choices => exact ⟨x, rfl⟩
  | _ => cases hop

theorem id_step (h : serverStep showObserver s e = some t) (x : ClientRef) :
    (t.hub.heap x).id = (s.hub.heap x).id := by
  rcases serverStep_part (f := Hub.heap) (fun _ _ _ => rfl) h with
    hsame | ⟨i, op, k, _, _, hhub⟩
  · rw [hsame]
  · rw [hhub]
    exact HubOp.id_run op s.hub x

theorem hasChannel_step (h : serverStep showObserver s e = some t) {ch : ChannelID}
    (hc : s.hub.HasChannel ch) : t.hub.HasChannel ch := by
  cases e with
  | serve r =>
    rw [(serverStep_starts h).1]
    exact hc
  | advance i =>
    obtain ⟨op, k, _, _, hhub, _⟩ := serverStep_advance h
    rw [hhub]
    exact HubOp.hasChannel_run op hc
  | timerFires ch timer =>
    obtain ⟨hf, _⟩ := serverStep_timerFires h
    exact (elsewhere_fireTimer (x := 0) hf).hasChannel _ hc
  | tick d =>
    rw [(serverStep_tick h).1]
    exact hc

/-- The steps of others move neither the phase of `x` nor what its handler has read. -/
theorem unmoved_step (h : serverStep showObserver s e = some t)
    (he : e.thread ≠ some (.client x)) :
    t.phase x = s.phase x ∧ t.history (.client x) = s.history (.client x) := by
  cases e with
  | serve r =>
    have hne : r.thread ≠ .client x := fun heq => he (congrArg some heq)
    obtain ⟨_, _, hphase, _⟩ := serverStep_serve h
    rw [hphase, (serverStep_starts h).2]
    exact ⟨Request.phaseAfter_of_ne hne, Function.update_of_ne hne.symm ..⟩
  | advance i =>
    obtain ⟨_, _, _, hphase, _, hhist, _⟩ := serverStep_advance h
    rw [hphase, hhist]
    exact ⟨rfl, Function.update_of_ne (fun heq => he (congrArg some heq.symm)) ..⟩
  | timerFires ch timer =>
    obtain ⟨_, hphase, hhist, _⟩ := serverStep_timerFires h
    rw [hphase, hhist]
    exact ⟨rfl, rfl⟩
  | tick d =>
    obtain ⟨_, hphase, hhist, _⟩ := serverStep_tick h
    rw [hphase, hhist]
    exact ⟨rfl, rfl⟩

/-- A video is started by the handler of a client, which signs it with that client's ID. -/
theorem sender_of_start (hs : VideosOwned s) {i : Thread} {y : ClientRef}
    {p : VideoSignalingPayload} {k : Option ChannelID → HubProg Unit}
    (hk : s.pool.task i = .call (.startVideo y p) k) :
    i = .client y ∧ p.senderID = (s.hub.heap y).id := by
  have hstarts := hs.starts i
  rw [hk] at hstarts
  obtain ⟨x, rfl⟩ := hstarts.1 y p rfl
  obtain rfl : y = x := hs.keeps.keepsTo hk
  obtain ⟨d, hd⟩ := hs.duty y
  have hfollows := hd.follows
  rw [hk] at hfollows
  exact ⟨rfl, hd.holds.ids _ hfollows.1.2⟩

/-- The steps of others leave `x` and its videos alone. -/
theorem holds_step (hs : VideosOwned s) (h : serverStep showObserver s e = some t)
    (he : e.thread ≠ some (.client x)) {d : VideoDuty} (hd : d.Holds x s.hub) :
    d.Holds x t.hub := by
  refine hd.kept (fun _ => hasChannel_step h) (id_step h x) (hs.keeps.current_step h he)
    fun c hshows => ?_
  rcases serverStep_part (f := Hub.activeVideoByChannel) (fun _ _ _ => rfl) h with
    hsame | ⟨i, op, k, rfl, hk, hhub⟩
  · rwa [Hub.Shows, hsame] at hshows
  · rw [hhub] at hshows
    refine shows_run (fun y p hop hid => he ?_) hshows
    subst hop
    obtain ⟨rfl, hsender⟩ := hs.sender_of_start hk
    rw [hs.distinct x y (hid.symm.trans hsender)]
    rfl

theorem signed_step (hs : VideosOwned s) (h : serverStep showObserver s e = some t)
    {c : ChannelID} {v : VideoSignalingPayload} (hv : t.hub.activeVideoByChannel c = some v) :
    ∃ x, (t.hub.heap x).id = v.senderID := by
  by_cases hsame : t.hub.activeVideoByChannel c = s.hub.activeVideoByChannel c
  · rw [hsame] at hv
    obtain ⟨x, hx⟩ := hs.signed c v hv
    exact ⟨x, (id_step h x).trans hx⟩
  · obtain ⟨i, op, k, rfl, hk, hhub, hcall⟩ := serverStep_video h hsame
    cases hcall with
    | deleted hgone =>
      rw [hgone] at hv
      cases hv
    | ended y _ _ hgone =>
      rw [hgone] at hv
      cases hv
    | started y p _ hnew =>
      rw [hnew] at hv
      obtain rfl := Option.some.inj hv
      exact ⟨y, (id_step h y).trans (hs.sender_of_start hk).2.symm⟩

/-- The answers of the calls by which a client leaves are those of a client on a channel. -/
theorem answers (hs : VideosOwned s) {op : HubOp} {k : op.Res → HubProg Unit}
    (hk : s.pool.task (.client x) = .call op k) {d : VideoDuty} (hd : d.Holds x s.hub)
    (hok : d.Permits op) : videoDuty.can op (op.run s.hub).1 := by
  have hkeep := hs.keeps.keepsTo hk
  cases op with
  | unregister y =>
    obtain rfl : y = x := hkeep
    have hcur := hd.tuned fun heq => by rw [show d.stage = .rest from hok] at heq; cases heq
    exact Option.isSome_of_eq_some (Hub.channelOf_some rfl hcur)
  | lookupSwitch y new =>
    obtain rfl : y = x := hkeep
    exact Option.isSome_of_eq_some (Hub.channelOf_some rfl (hd.tuned hok))
  | _ => trivial

theorem attending_step (hs : VideosOwned s) (h : serverStep showObserver s e = some t)
    {d : VideoDuty} (hd : Attending s x d) :
    ∃ d', Attending t x d' ∧ (d.stage ≠ .fresh → d'.stage ≠ .fresh) := by
  have hfollows := hd.follows
  by_cases he : e.thread = some (.client x)
  -- a step of another thread leaves `x`, its videos and its handler alone
  swap
  · obtain ⟨hphase, hhist⟩ := unmoved_step h he
    refine ⟨d, ⟨hs.holds_step h he hd.holds, hd.shown.trans hhist.symm, ?_⟩, id⟩
    rw [serverStep_task h he, hphase]
    exact hfollows
  cases e with
  | serve r =>
    -- a new handler has read nothing
    have hr : r.thread = .client x := Option.some.inj he
    obtain ⟨hadm, hidle, hphase, _, htask, _⟩ := serverStep_serve h
    obtain ⟨hhub, hhist⟩ := serverStep_starts h
    have hread : t.history (.client x) = none := by
      rw [hhist, ← hr]
      exact Function.update_self ..
    rw [hr] at hidle htask
    rw [hidle] at hfollows
    have hstage : d.stage = (s.phase x).videoStage := hfollows
    refine ⟨{ stage := d.stage }, ⟨?_, hread.symm, ?_⟩, id⟩
    · rw [hhub]
      exact ⟨List.forall_mem_nil _, List.forall_mem_nil _, hd.holds.tuned, hd.holds.slots⟩
    · rw [htask, hphase]
      exact duty_prog hr hadm hstage rfl
  | advance i =>
    obtain rfl : i = .client x := Option.some.inj he
    obtain ⟨op, k, hk, hphase, hhub, hhist, htask, _⟩ := serverStep_advance h
    have hread : t.history (.client x) = op.shows (op.run s.hub).1 (s.history (.client x)) := by
      rw [hhist]
      exact Function.update_self ..
    rw [hk] at hfollows
    obtain ⟨hok, hrest⟩ := hfollows
    refine ⟨d.next op (op.run s.hub).1, ⟨?_, ?_, ?_⟩,
      fun hpast => VideoDuty.next_stage_ne_fresh hpast _⟩
    · rw [hhub]
      exact hd.holds.call (hs.keeps.keepsTo hk) hok hs.channel
    · rw [hread, d.next_shown, hd.shown]
    · rw [htask, hphase]
      exact hrest _ (hs.answers hk hd.holds hok)
  | timerFires ch timer => cases he
  | tick d => cases he

theorem step (hs : VideosOwned s) (h : serverStep showObserver s e = some t) : VideosOwned t := by
  obtain ⟨ch, hch⟩ := hs.channel
  refine ⟨hs.keeps.step h, tasks_all_step starts_prog hs.starts h, fun x y heq => ?_,
    ⟨ch, hasChannel_step h hch⟩, fun c v => hs.signed_step h, fun x => ?_⟩
  · rw [id_step h x, id_step h y] at heq
    exact hs.distinct x y heq
  · obtain ⟨d, hd⟩ := hs.duty x
    obtain ⟨d', hd', _⟩ := hs.attending_step h hd
    exact ⟨d', hd'⟩

theorem init {cfg : Config} (hcfg : cfg.defaultChannels ≠ []) (recorder : Option AudioRecorder)
    (roipRelay : Bool) {heap : Clients} (hids : ∀ x y, (heap x).id = (heap y).id → x = y)
    (now : ℤ) :
    VideosOwned (Server.init (newHub cfg recorder roipRelay heap now) fun _ => none) := by
  refine ⟨KeepsToChannels.init _ _, fun _ => trivial, hids,
    newHub_hasChannel hcfg recorder roipRelay heap now, ?_, fun x => ?_⟩
  · intro c v hv
    cases hv
  refine ⟨{ stage := .fresh }, ⟨?_, ?_, fun hne => absurd rfl hne, ?_⟩, rfl, rfl⟩
  · exact List.forall_mem_nil _
  · exact List.forall_mem_nil _
  · rintro c ⟨v, hv, _⟩
    cases hv

end VideosOwned

section OnAir

variable {s t : Server (Thread → Option VideoSignalingPayload)} {e : ServerEvent}
  {x y : ClientRef} {c : ChannelID} {v : VideoSignalingPayload}

/-- The sender of the video is tuned to channel `c`, and registered if none of its handlers is in
progress. -/
def OnAir {γ : Type} (s : Server γ) (c : ChannelID) (v : VideoSignalingPayload) : Prop :=
  ∃ x, (s.hub.heap x).id = v.senderID ∧ (s.hub.heap x).currentChannelID = c ∧
    (s.pool.Idle (.client x) → x ∈ s.hub.clients)

/-- The call by which a handler tunes its client to another channel. -/
def HubOp.retunes : HubOp → Bool
  | setCurrentChannel .. => true
  | _ => false

/-- With its next call `y` is gone from its channel: the call tunes it to another one, or it is the
last of the handler that has taken `y` off the hub. -/
def Departs {γ : Type} (y : ClientRef) (s : Server γ) : Prop :=
  match s.pool.task (.client y) with
  | .ret _ => False
  | .call op k =>
    op.retunes = true ∨ y ∉ s.hub.clients ∧ (k (op.run s.hub).1).nextCall = none

instance {γ : Type} (y : ClientRef) (s : Server γ) : Decidable (Departs y s) :=
  match hk : s.pool.task (.client y) with
  | .ret _ => isFalse fun hdep => by rw [Departs, hk] at hdep; exact hdep
  | .call op k =>
    decidable_of_iff
      (op.retunes = true ∨ y ∉ s.hub.clients ∧ (k (op.run s.hub).1).nextCall = none)
      (by rw [Departs, hk])

/-- No sender of a video that a handler has read in a slot, and has still to show its client, is
gone with this step. -/
def SenderStays (s : Server (Thread → Option VideoSignalingPayload)) (e : ServerEvent) : Prop :=
  ∀ y, e = .advance (.client y) → Departs y s →
    ∀ x v, s.history (.client x) = some v → (s.hub.heap y).id ≠ v.senderID

/-- The sender `y` of a video on the air, whose registration lies behind it. -/
structure Sends (s : Server (Thread → Option VideoSignalingPayload)) (c : ChannelID)
    (v : VideoSignalingPayload) (y : ClientRef) : Prop where
  id : (s.hub.heap y).id = v.senderID
  current : (s.hub.heap y).currentChannelID = c
  clients : s.pool.Idle (.client y) → y ∈ s.hub.clients
  duty : ∃ d, Attending s y d ∧ d.stage ≠ .fresh

theorem Sends.onAir (hy : Sends s c v y) : OnAir s c v := ⟨y, hy.id, hy.current, hy.clients⟩

/-- The video in a slot has its sender on the channel. -/
theorem VideosOwned.sends (hs : VideosOwned s) (hunderway : Underway showObserver s)
    (hv : s.hub.activeVideoByChannel c = some v) : ∃ y, Sends s c v y := by
  obtain ⟨y, hy⟩ := hs.signed c v hv
  obtain ⟨d, hd⟩ := hs.duty y
  have hfollows := hd.follows
  obtain ⟨hcur, hmay⟩ := hd.holds.slots c ⟨v, hv, hy.symm⟩
  refine ⟨y, hy, hcur.symm, fun hidle => ?_, d, hd, fun hfresh => ?_⟩
  · rw [hidle] at hfollows
    rw [show d.stage = (s.phase y).videoStage from hfollows] at hmay
    obtain ⟨_, hset⟩ := hunderway.idle hidle
    -- a slot shows the video of a client between two handlers only if the client is connected
    cases hphase : s.phase y with
    | live =>
      rw [if_pos hphase] at hset
      obtain ⟨_, hplaced⟩ := hset
      exact hplaced.clients.mpr trivial
    | fresh =>
      rw [hphase] at hmay
      cases hmay
    | closed =>
      rw [hphase] at hmay
      cases hmay
  · rw [hfresh] at hmay
    cases hmay

/-- A handler that ends with this call has not just taken its client off the hub. -/
theorem VideosOwned.clients_last (hs : VideosOwned s) {op : HubOp} {k : op.Res → HubProg Unit}
    (hk : s.pool.task (.client y) = .call op k) (hlast : k (op.run s.hub).1 = .ret ())
    (hy : y ∈ s.hub.clients) : y ∈ (op.run s.hub).2.clients := by
  obtain ⟨d, hd⟩ := hs.duty y
  have hfollows := hd.follows
  rw [hk] at hfollows
  by_cases htouched : op.touched = some y
  swap
  · exact (elsewhere_run htouched s.hub).clients.mpr hy
  cases op with
  | unregister z =>
    have hrest := hfollows.2 _ (hs.answers hk hd.holds hfollows.1)
    rw [hlast] at hrest
    -- such a handler has still to look at the slot
    have hleaving : VideoStage.leaving = (s.phase y).videoStage := hrest
    cases hphase : s.phase y <;> rw [hphase] at hleaving <;> cases hleaving
  | register z first =>
    obtain rfl : z = y := hs.keeps.keepsTo hk
    show z ∈ (s.hub.register z first).2.clients
    obtain ⟨ch, hreg, _⟩ := registrationChannel_some (x := z) first hs.channel
    rw [Hub.register_eq, hreg]
    exact (AList.mem_insert _).mpr (Or.inl rfl)
  | addSubscriber ch z => exact (Hub.onChannel_clients ..).symm ▸ hy
  | removeSubscriber ch z => exact (Hub.onChannel_clients ..).symm ▸ hy
  | requestFloor ch z => exact (Hub.onChannel_clients ..).symm ▸ hy
  | setCurrentChannel z new => exact hy
  | _ => cases htouched

/-- A sender stays on the air until it is gone. -/
theorem Sends.step (hs : VideosOwned s) (h : serverStep showObserver s e = some t)
    (hstays : e = .advance (.client y) → ¬ Departs y s) (hy : Sends s c v y) : Sends t c v y := by
  obtain ⟨d, hd, hfresh⟩ := hy.duty
  obtain ⟨d', hd', hpast⟩ := hs.attending_step h hd
  refine ⟨(VideosOwned.id_step h y).trans hy.id, ?_, ?_, d', hd', hpast hfresh⟩
  · by_cases he : e.thread = some (.client y)
    swap
    · exact (hs.keeps.current_step h he).trans hy.current
    cases e with
    | serve r =>
      rw [(serverStep_starts h).1]
      exact hy.current
    | advance i =>
      obtain rfl : i = .client y := Option.some.inj he
      obtain ⟨op, k, hk, _, hhub, _⟩ := serverStep_advance h
      have hnot := hstays rfl
      rw [Departs, hk] at hnot
      rw [hhub]
      refine (current_run fun htunes => ?_).trans hy.current
      cases op with
      | setCurrentChannel z new => exact hnot (Or.inl rfl)
      | register z first =>
        have hfollows := hd.follows
        rw [hk] at hfollows
        exact hfresh hfollows.1.1
      | _ => cases htunes
    | timerFires ch timer => cases he
    | tick d => cases he
  · intro hidle
    by_cases he : e.thread = some (.client y)
    swap
    · rw [Pool.Idle, serverStep_task h he] at hidle
      exact (hs.keeps.elsewhere h he).clients.mpr (hy.clients hidle)
    cases e with
    | serve r =>
      obtain ⟨_, hbefore, _⟩ := serverStep_serve h
      rw [show r.thread = .client y from Option.some.inj he] at hbefore
      rw [(serverStep_starts h).1]
      exact hy.clients hbefore
    | advance i =>
      obtain rfl : i = .client y := Option.some.inj he
      obtain ⟨op, k, hk, _, hhub, _, htask, _⟩ := serverStep_advance h
      have hnot := hstays rfl
      rw [Departs, hk] at hnot
      have hret : k (op.run s.hub).1 = .ret () := htask.symm.trans hidle
      rw [hhub]
      refine hs.clients_last hk hret ?_
      by_contra hgone
      exact hnot (Or.inr ⟨hgone, by rw [hret]; rfl⟩)
    | timerFires ch timer => cases he
    | tick d => cases he

/-- Every video that a handler has still to show its client has its sender on the channel. -/
def ShownOnAir (s : Server (Thread → Option VideoSignalingPayload)) : Prop :=
  ∀ x v, s.history (.client x) = some v → ∃ y, Sends s (s.hub.heap x).currentChannelID v y

theorem ShownOnAir.step (hair : ShownOnAir s) (hs : VideosOwned s) (ht : VideosOwned t)
    (hunderway : Underway showObserver t) (hstays : SenderStays s e)
    (h : serverStep showObserver s e = some t) : ShownOnAir t := by
  intro x v hv
  have hkept (hold : s.history (.client x) = some v) :
      ∃ y, Sends t (s.hub.heap x).currentChannelID v y := by
    obtain ⟨y, hy⟩ := hair x v hold
    exact ⟨y, hy.step hs h fun he hdep => hstays y he hdep x v hold hy.id⟩
  by_cases he : e.thread = some (.client x)
  swap
  · rw [(VideosOwned.unmoved_step h he).2] at hv
    rw [hs.keeps.current_step h he]
    exact hkept hv
  cases e with
  | serve r =>
    have hread : t.history (.client x) = none := by
      rw [(serverStep_starts h).2, ← show r.thread = .client x from Option.some.inj he]
      exact Function.update_self ..
    rw [hread] at hv
    cases hv
  | advance i =>
    obtain rfl : i = .client x := Option.some.inj he
    obtain ⟨op, k, hk, _, hhub, hhist, _⟩ := serverStep_advance h
    have hread : t.history (.client x) = op.shows (op.run s.hub).1 (s.history (.client x)) := by
      rw [hhist]
      exact Function.update_self ..
    obtain ⟨d, hd⟩ := hs.duty x
    have hok := hd.follows
    rw [hk] at hok
    replace hok : d.Permits op := hok.1
    rw [hread] at hv
    -- while there is something to show, `x` is not tuned to another channel
    have hsame (hold : s.history (.client x) = some v) (htunes : op.tunes ≠ some x) :
        ∃ y, Sends t (t.hub.heap x).currentChannelID v y := by
      rw [hhub, current_run htunes]
      exact hkept hold
    have hnothing (hold : s.history (.client x) = some v) (hnone : d.shown = none) : False := by
      rw [← hd.shown, hnone] at hold
      cases hold
    cases op with
    | history ch =>
      obtain rfl : ch = (s.hub.heap x).currentChannelID :=
        List.mem_singleton.mp (hs.keeps.keepsTo hk)
      refine ht.sends hunderway ?_
      rw [hhub]
      exact hv
    | register y first => exact (hnothing hv hok.2).elim
    | setCurrentChannel y new => exact (hnothing hv hok.2.1).elim
    | sendJSON y msg =>
      have htunes : (HubOp.sendJSON y msg).tunes ≠ some x := (Option.some_ne_none x).symm
      cases msg <;> first | exact hsame hv htunes | cases hv
    | _ => exact hsame hv (Option.some_ne_none x).symm
  | timerFires ch timer => cases he
  | tick d => cases he

end OnAir

/-- Units with the IDs "", "u", "uu" and so on. -/
def countedClients : Clients := fun n => newClient (String.ofList (List.replicate n 'u')) "UNIT"

def showHub : Server (Thread → Option VideoSignalingPayload) :=
  Server.init (newHub defaultConfig none false countedClients 0) fun _ => none

/-- Unit 0 shows its video on channel 1, where unit 1 is about to be told of it as it connects. -/
def joinsShow : List ServerEvent :=
  uninterrupted (.connect 0 0) 10 ++
    uninterrupted (.signal 0 (.videoCallStart ⟨{ channelID := 1 }, true⟩) {}) 3 ++
    uninterrupted (.connect 1 0) 10

theorem countedClients_distinct (x y : ClientRef)
    (heq : (countedClients x).id = (countedClients y).id) : x = y := by
  have hlength := congrArg List.length (String.ofList_injective heq)
  rwa [List.length_replicate, List.length_replicate] at hlength

/-- Unit 0 is gone before its video is shown to unit 1. -/
def leavesUnseen (leaving : Request) (calls : ℕ) : List ServerEvent :=
  joinsShow ++ uninterrupted leaving calls

theorem not_onAir_of_gone {s : Server (Thread → Option VideoSignalingPayload)}
    {es : List ServerEvent} (hrun : Run (serverStep showObserver) showHub es s) {c : ChannelID}
    {v : VideoSignalingPayload} {x : ClientRef} (hv : (s.hub.heap x).id = v.senderID)
    (hgone : (s.hub.heap x).currentChannelID ≠ c ∨ s.pool.Idle (.client x) ∧ x ∉ s.hub.clients) :
    ¬ OnAir s c v := by
  have hs : VideosOwned s := hrun.invariant (fun _ _ _ hs h => hs.step h)
    (VideosOwned.init (by decide) _ _ countedClients_distinct _)
  rintro ⟨y, hid, hcur, hreg⟩
  obtain rfl := hs.distinct x y (hv.trans hid.symm)
  rcases hgone with hne | ⟨hidle, hout⟩
  · exact hne hcur
  · exact hout (hreg hidle)

/-- No client is gone with this step. -/
def NobodyDeparts (s : Server (Thread → Option VideoSignalingPayload)) (e : ServerEvent) : Prop :=
  match e with
  | .advance (.client y) => ¬ Departs y s
  | _ => True

instance (s : Server (Thread → Option VideoSignalingPayload)) (e : ServerEvent) :
    Decidable (NobodyDeparts s e) :=
  match e with
  | .advance (.client y) => inferInstanceAs (Decidable (¬ Departs y s))
  | .advance (.tot ..) | .advance .roip | .serve _ | .timerFires .. | .tick _ => .isTrue trivial

theorem NobodyDeparts.senderStays {s : Server (Thread → Option VideoSignalingPayload)}
    {e : ServerEvent} (hnobody : NobodyDeparts s e) : SenderStays s e := by
  rintro y rfl hdep
  exact absurd hdep hnobody

end TwoWayRadio

import TwoWayRadio.ChannelDirectory
import TwoWayRadio.ChannelScanner
import TwoWayRadio.SerialHub
import TwoWayRadio.UnlistedCalls

/-! The channel list of a page against the channels and floors of the hub. -/
namespace TwoWayRadio
open Interleaving Transition

/-- An entry without the fields that only the next whole list brings up to date. -/
def ChannelInfo.lights (info : ChannelInfo) : ChannelInfo :=
  { info with userCount := 0, currentSpeaker := "", users := [] }

def ChannelDef.lit (d : ChannelDef) (isBusy : Bool) : ChannelInfo where
  id := d.id
  name := d.name
  frequency := d.frequency
  ctcss := d.ctcss
  color := d.color
  latitude := d.latitude
  longitude := d.longitude
  coverageKm := d.coverageKm
  region := d.region
  userCount := 0
  isBusy := isBusy
  isPrivate := d.isPrivate
  currentSpeaker := ""
  users := []

/-- An entry with its light switched. -/
def ChannelInfo.switch (ch : ChannelID) (isBusy : Bool) (info : ChannelInfo) : ChannelInfo :=
  if info.id = ch then { info with isBusy := isBusy } else info

theorem switch_lit (d : ChannelDef) (ch : ChannelID) (was isBusy : Bool) :
    (d.lit was).switch ch isBusy = d.lit (if d.id = ch then isBusy else was) := by
  unfold ChannelInfo.switch
  by_cases hch : d.id = ch
  · rw [if_pos hch]
    exact if_pos hch
  · rw [if_neg hch]
    exact if_neg hch

/-- Messages that change the page's list of channels. -/
def Signal.listsChannels : Signal → Bool
  | channelList _ | channelActivity .. => true
  | _ => false

def Frame.listsChannels : Frame → Bool
  | .json msg _ => msg.listsChannels
  | .binary _ => false

namespace Hub

/-- The listing with these lights. -/
def board (busy : ChannelID → Bool) (h : Hub) : List ChannelInfo :=
  (List.range h.channels.entries.length).filterMap fun n : ℕ =>
    (h.definitionOf ((n : ℤ) + 1)).map fun d => d.lit (busy ((n : ℤ) + 1))

def carrier (h : Hub) (c : ChannelID) : Bool := (h.holder c).isSome

/-- The channels as a client is told that has fetched a list before. -/
def shownTo (fetched : List ChannelInfo) (y : ClientRef) (h : Hub) : List ChannelInfo :=
  (framesTo y h.outbox).foldl (fun channels frame => RadioState.shown frame channels) fetched

/-- All clients but perhaps one, which has just been registered, are shown these lights. -/
structure Lit (busy : ChannelID → Bool) (deaf : Option ClientRef) (h : Hub) : Prop where
  keyed : h.Keyed
  busyAgrees : h.BusyAgrees
  shown : ∀ y ∈ h.clients, deaf ≠ some y → ∀ fetched,
    (h.shownTo fetched y).map ChannelInfo.lights = h.board busy

variable {h h' : Hub} {y : ClientRef} {c ch : ChannelID} {busy : ChannelID → Bool}

theorem lights_channelInfo (hb : h.BusyAgrees) {chan : Channel}
    (hc : h.channels.lookup c = some chan) :
    (h.channelInfo chan).lights = chan.definition.lit (h.carrier c) := by
  have hbusy : (chan.getState h.heap).1 = h.carrier c := by
    have hstate : ((HubOp.getState c).run h).1.1 = h.carrier c := HubOp.getState_run hb
    simp only [HubOp.run, readChannel, hc] at hstate
    exact hstate
  rw [channelInfo, hbusy]
  rfl

/-- While the busy flags agree with the holders, the lights of the listing are the floors. -/
theorem lights_getChannelList (hb : h.BusyAgrees) :
    h.getChannelList.map ChannelInfo.lights = h.board h.carrier := by
  rw [getChannelList_eq, board, List.map_filterMap]
  refine List.filterMap_congr fun n _ => ?_
  rw [definitionOf]
  cases hc : h.channels.lookup ((n : ℤ) + 1) with
  | none => rfl
  | some chan => exact congrArg some (lights_channelInfo hb hc)

theorem board_congr (hs : SameChannels h h') : h'.board busy = h.board busy := by
  rw [board, hs.length, board]
  exact List.filterMap_congr fun n _ => by rw [hs.definition]

/-- Switching one light of the listing. -/
theorem board_update (hk : h.Keyed) (isBusy : Bool) :
    h.board (Function.update busy ch isBusy) =
      (h.board busy).map (ChannelInfo.switch ch isBusy) := by
  rw [board, board, List.map_filterMap]
  refine List.filterMap_congr fun n _ => ?_
  cases hd : h.definitionOf ((n : ℤ) + 1) with
  | none => rfl
  | some d =>
    have hid : d.id = (n : ℤ) + 1 := hk _ d hd
    show some (d.lit (Function.update busy ch isBusy ((n : ℤ) + 1))) =
      some ((d.lit (busy ((n : ℤ) + 1))).switch ch isBusy)
    rw [switch_lit, Function.update_apply, hid]

theorem nodup_board (hk : h.Keyed) : ((h.board busy).map ChannelInfo.id).Nodup := by
  have hids : (h.board busy).map ChannelInfo.id =
      (List.range h.channels.entries.length).filterMap fun n : ℕ =>
        (h.definitionOf ((n : ℤ) + 1)).map fun _ => (n : ℤ) + 1 := by
    rw [board, List.map_filterMap]
    refine List.filterMap_congr fun n _ => ?_
    cases hd : h.definitionOf ((n : ℤ) + 1) with
    | none => rfl
    | some d => exact congrArg some (hk _ d hd)
  rw [hids]
  refine List.Nodup.filterMap (fun m n c hm hn => ?_) List.nodup_range
  obtain ⟨-, -, hm⟩ := Option.map_eq_some_iff.mp (Option.mem_def.mp hm)
  obtain ⟨-, -, hn⟩ := Option.map_eq_some_iff.mp (Option.mem_def.mp hn)
  have heq : (m : ℤ) + 1 = (n : ℤ) + 1 := hm.trans hn.symm
  omega

end Hub

theorem lights_markActivity {channels : List ChannelInfo} {ch : ChannelID} {isBusy : Bool}
    {speaker : String} (hnodup : (channels.map ChannelInfo.id).Nodup) :
    (RadioState.markActivity ch isBusy speaker channels).map ChannelInfo.lights =
      (channels.map ChannelInfo.lights).map (ChannelInfo.switch ch isBusy) := by
  induction channels with
  | nil => rfl
  | cons info rest ih =>
    obtain ⟨hnew, hnodup⟩ := List.nodup_cons.mp hnodup
    rw [RadioState.markActivity]
    by_cases hid : info.id = ch
    · -- no further entry has this ID
      have hrest : (rest.map ChannelInfo.lights).map (ChannelInfo.switch ch isBusy) =
          rest.map ChannelInfo.lights := by
        rw [List.map_map]
        refine List.map_congr_left fun other hother => if_neg fun heq => hnew ?_
        rw [hid, ← heq]
        exact List.mem_map.mpr ⟨other, hother, rfl⟩
      rw [if_pos hid, List.map_cons, List.map_cons, List.map_cons, hrest]
      exact congrArg (· :: _) (if_pos hid).symm
    · rw [if_neg hid, List.map_cons, List.map_cons, List.map_cons, ih hnodup]
      exact congrArg (· :: _) (if_neg hid).symm

/-- A call that makes no channel, registers nobody and tells nothing about channels. -/
def HubOp.silent : HubOp → Bool
  | register .. | createChannel _ => false
  | op => op.message.all fun msg => !msg.listsChannels

/-- A silent call that moves no floor. -/
def HubOp.keepsBoard : HubOp → Bool
  | removeSubscriber .. | requestFloor .. | releaseFloor .. | handleTOT .. => false
  | op => op.silent

section Calls

variable {h : Hub} {op : HubOp} {x y : ClientRef} {c ch : ChannelID} {busy : ChannelID → Bool}
  {deaf : Option ClientRef}

theorem shown_of_not_listsChannels {frame : Frame} (hf : frame.listsChannels = false)
    (channels : List ChannelInfo) : RadioState.shown frame channels = channels := by
  cases frame with
  | binary data => rfl
  | json msg now => cases msg <;> first | rfl | cases hf

theorem foldl_shown {frames : List Frame} (hf : ∀ frame ∈ frames, frame.listsChannels = false)
    (channels : List ChannelInfo) :
    frames.foldl (fun channels frame => RadioState.shown frame channels) channels = channels := by
  induction frames with
  | nil => rfl
  | cons frame rest ih =>
    rw [List.foldl_cons, shown_of_not_listsChannels (hf frame List.mem_cons_self)]
    exact ih fun f hmem => hf f (List.mem_cons_of_mem _ hmem)

theorem shownTo_run (op : HubOp) (fetched : List ChannelInfo) (y : ClientRef) (h : Hub) :
    (op.run h).2.shownTo fetched y =
      (framesTo y (op.sends h)).foldl (fun channels frame => RadioState.shown frame channels)
        (h.shownTo fetched y) := by
  rw [Hub.shownTo, HubOp.outbox_sends, framesTo_append, List.foldl_append, Hub.shownTo]

/-- Whoever is sent nothing about channels sees what it saw. -/
theorem shownTo_run_of_silent (hop : op.message.all (fun msg => !msg.listsChannels) = true)
    (fetched : List ChannelInfo) (y : ClientRef) (h : Hub) :
    (op.run h).2.shownTo fetched y = h.shownTo fetched y := by
  rw [shownTo_run]
  refine foldl_shown (fun frame hframe => ?_) _
  obtain ⟨queue, hd⟩ := mem_framesTo.mp hframe
  cases frame with
  | binary data => rfl
  | json msg now =>
    rw [(HubOp.message_of_sends hd).1] at hop
    exact (Bool.not_eq_true' _).mp hop

theorem keyed_run (hk : h.Keyed) (op : HubOp) : (op.run h).2.Keyed := by
  by_cases hop : op.createsChannel = false
  · intro c d hd
    rw [(sameChannels_run hop h).definition] at hd
    exact hk c d hd
  · cases op with
    | createChannel p =>
      intro c d hd
      have ha := Hub.allocated_run p h
      by_cases hc : c = h.newChannelID
      · rw [hc, Hub.definitionOf, ha.added] at hd
        obtain rfl := Option.some.inj hd
        exact hc.symm
      · rw [Hub.definitionOf, ha.others c hc] at hd
        exact hk c d hd
    | _ => exact absurd rfl hop

/-- A silent call changes no light that is shown. -/
theorem lit_run (hl : h.Lit busy deaf) (hop : op.silent = true) : (op.run h).2.Lit busy deaf := by
  have hcreates : op.createsChannel = false := by
    cases op <;> first | rfl | cases hop
  have hmessage : op.message.all (fun msg => !msg.listsChannels) = true := by
    cases op <;> first | rfl | exact hop
  refine ⟨keyed_run hl.keyed op, HubOp.busyAgrees_run hl.busyAgrees op,
    fun y hy hdeaf fetched => ?_⟩
  have hmem : y ∈ h.clients := by
    have hjoins : op.joins .activity y 0 = false := by
      cases op <;> first | rfl | cases hop
    have hreach : Feed.activity.Reaches (op.run h).2 y 0 := hy
    exact HubOp.reaches_of_run hreach hjoins
  rw [shownTo_run_of_silent hmessage, Hub.board_congr (sameChannels_run hcreates h)]
  exact hl.shown y hmem hdeaf fetched

theorem silent_of_keepsBoard (hop : op.keepsBoard = true) : op.silent = true := by
  cases op <;> first | exact hop | cases hop

theorem carrier_run (hop : op.keepsBoard = true) (h : Hub) :
    (op.run h).2.carrier = h.carrier := by
  funext c
  rw [Hub.carrier, Hub.carrier]
  by_cases ht : op.target = none
  · rw [HubOp.holder_run_of_ne (by rw [ht]; exact (Option.some_ne_none c).symm)]
  · cases op with
    | addSubscriber ch client => rw [HubOp.holder_run_addSubscriber]
    | removeSubscriber ch client => cases hop
    | requestFloor ch client => cases hop
    | releaseFloor ch client => cases hop
    | handleTOT ch timer => cases hop
    | _ => exact absurd rfl ht

end Calls

section Handlers

open Hub Prog

variable {α β : Type} {h : Hub} {x y : ClientRef} {c ch new : ChannelID}
  {busy : ChannelID → Bool} {deaf : Option ClientRef}

/-- The pages show every floor as it is. -/
def Hub.Showing (h : Hub) : Prop := h.Lit h.carrier none

/-- The pages show every floor as it is, except perhaps that of `ch`. -/
def Hub.Lags (ch : ChannelID) (h : Hub) : Prop :=
  ∃ busy, h.Lit busy none ∧ ∀ c, c ≠ ch → busy c = h.carrier c

/-- A program of calls that keep the board. -/
abbrev KeepsBoard (p : HubProg α) : Prop := p.All fun op => op.keepsBoard = true

theorem keepsBoard_of_unlisted {p : HubProg α} (hp : Unlisted p) : KeepsBoard p := by
  have hlists {msg : Signal} (hmsg : (!msg.isListing) = true) :
      (!msg.listsChannels) = true := by
    cases msg <;> first | rfl | cases hmsg
  refine hp.mono fun op hop => ?_
  cases op with
  | broadcastAll msg => exact hlists hop
  | broadcastSignal ch msg => exact hlists hop
  | sendJSON y msg => exact hlists hop
  | sendPriorityJSON y msg => exact hlists hop
  | _ => first | rfl | cases hop

theorem keepsBoard_broadcastUserList (ch : ChannelID) : KeepsBoard (broadcastUserList ch) :=
  all_then rfl fun _ => all_then rfl fun _ => all_perform rfl

theorem carrier_after {p : HubProg α} (hp : KeepsBoard p) (h : Hub) :
    (after p h).carrier = h.carrier :=
  after_of_all (I := fun h' => h'.carrier = h.carrier)
    (fun _ h' hop hsame => (carrier_run hop h').trans hsame) hp rfl

theorem lit_after {p : HubProg α} (hp : KeepsBoard p) (hl : h.Lit busy deaf) :
    (after p h).Lit busy deaf :=
  after_of_all (fun _ _ hop hl => lit_run hl (silent_of_keepsBoard hop)) hp hl

theorem showing_after {p : HubProg α} (hp : KeepsBoard p) (hs : h.Showing) :
    (after p h).Showing := by
  rw [Showing, carrier_after hp]
  exact lit_after hp hs

theorem lags_after {p : HubProg α} (hp : KeepsBoard p) (hl : h.Lags ch) : (after p h).Lags ch := by
  obtain ⟨busy, hlit, hothers⟩ := hl
  refine ⟨busy, lit_after hp hlit, ?_⟩
  rw [carrier_after hp]
  exact hothers

/-- A call that moves the floor of `ch` leaves the pages behind for that channel at most. -/
theorem lags_run {op : HubOp} (hs : h.Showing) (hop : op.silent = true)
    (ht : op.target = some ch) : (op.run h).2.Lags ch := by
  refine ⟨h.carrier, lit_run hs hop, fun c hc => ?_⟩
  rw [carrier, carrier, HubOp.holder_run_of_ne]
  rw [ht]
  exact fun heq => hc (Option.some.inj heq).symm

/-- If the light is still right, nothing has to be told. -/
theorem showing_run {op : HubOp} (hs : h.Showing) (hop : op.silent = true)
    (ht : op.target = some ch) (hsame : (op.run h).2.holder ch = h.holder ch) :
    (op.run h).2.Showing := by
  have hcarrier : (op.run h).2.carrier = h.carrier := by
    funext c
    rw [carrier, carrier]
    by_cases hc : c = ch
    · rw [hc, hsame]
    · rw [HubOp.holder_run_of_ne]
      rw [ht]
      exact fun heq => hc (Option.some.inj heq).symm
  rw [Showing, hcarrier]
  exact lit_run hs hop

theorem framesTo_broadcastAll (msg : Signal) (hy : y ∈ h.clients) :
    framesTo y ((HubOp.broadcastAll msg).sends h) = [.json msg h.unixMilli] := by
  have hcount : h.clients.keys.count y = 1 :=
    List.count_eq_one_of_mem h.clients.keys_nodup (AList.mem_keys.mp hy)
  rw [HubOp.sends, framesTo_map, hcount, List.replicate_one]

/-- Telling all of the floor of `ch` as it is brings the pages up to date. -/
theorem showing_channelActivity {isBusy : Bool} (speaker : String) (hl : h.Lags ch)
    (hbusy : h.carrier ch = isBusy) :
    ((HubOp.broadcastAll (.channelActivity ch isBusy speaker)).run h).2.Showing := by
  obtain ⟨busy, hlit, hothers⟩ := hl
  have hlights : Function.update busy ch isBusy = h.carrier := by
    funext c
    by_cases hc : c = ch
    · rw [hc, Function.update_self, hbusy]
    · rw [Function.update_of_ne hc, hothers c hc]
  refine ⟨keyed_run hlit.keyed _, HubOp.busyAgrees_run hlit.busyAgrees _,
    fun y hy _ fetched => ?_⟩
  have hy : y ∈ h.clients := hy
  have hshown := hlit.shown y hy (Option.some_ne_none y).symm fetched
  have hnodup : ((h.shownTo fetched y).map ChannelInfo.id).Nodup := by
    have hids : (h.shownTo fetched y).map ChannelInfo.id =
        ((h.shownTo fetched y).map ChannelInfo.lights).map ChannelInfo.id := by
      rw [List.map_map]
      rfl
    rw [hids, hshown]
    exact nodup_board hlit.keyed
  rw [shownTo_run, framesTo_broadcastAll _ hy]
  show (RadioState.markActivity ch isBusy speaker (h.shownTo fetched y)).map ChannelInfo.lights =
    h.board h.carrier
  rw [lights_markActivity hnodup, hshown, ← board_update hlit.keyed, hlights]

/-- So does the whole list, whatever they were shown before. -/
theorem showing_channelList (hk : h.Keyed) (hb : h.BusyAgrees) :
    ((HubOp.broadcastAll (.channelList h.getChannelList)).run h).2.Showing := by
  refine ⟨keyed_run hk _, HubOp.busyAgrees_run hb _, fun y hy _ fetched => ?_⟩
  have hy : y ∈ h.clients := hy
  rw [shownTo_run, framesTo_broadcastAll _ hy]
  exact lights_getChannelList hb

theorem showing_announceIdle (c : Client) (hl : h.Lags ch) (hidle : h.holder ch = none) :
    (after (announceIdle ch c) h).Showing := by
  let p : HubProg Unit := do
    (HubOp.broadcastSignal ch (floorIdle ch)).call
    (HubOp.broadcastSignal ch (unkeyed ch c)).call
  have hp : KeepsBoard p := all_then rfl fun _ => all_perform rfl
  show ((HubOp.broadcastAll (.channelActivity ch false "")).run (after p h)).2.Showing
  refine showing_channelActivity "" (lags_after hp hl) ?_
  rw [carrier_after hp, carrier, hidle]
  rfl

theorem idle_after {p : HubProg α} (hp : KeepsBoard p) (hidle : h.holder ch = none) :
    (after p h).holder ch = none := by
  have hcarrier := congrFun (carrier_after hp h) ch
  rw [carrier, carrier, hidle] at hcarrier
  exact Option.not_isSome_iff_eq_none.mp (by rw [hcarrier]; exact Bool.false_ne_true)

/-- A floor that has just been given up, or kept: what is still to be told. -/
def Hub.Ended (ch : ChannelID) (released : Bool) (h : Hub) : Prop :=
  if released then h.Lags ch ∧ h.holder ch = none else h.Showing

theorem ended_of_run {op : HubOp} {released : Bool} (hs : h.Showing) (hop : op.silent = true)
    (ht : op.target = some ch)
    (hrun : (released = true ∧ (op.run h).2.holder ch = none) ∨
      (released = false ∧ (op.run h).2.holder ch = h.holder ch)) :
    (op.run h).2.Ended ch released := by
  rcases hrun with ⟨rfl, hidle⟩ | ⟨rfl, hsame⟩
  · exact ⟨lags_run hs hop ht, hidle⟩
  · exact showing_run hs hop ht hsame

theorem ended_releaseFloor (hs : h.Showing) :
    ((HubOp.releaseFloor ch x).run h).2.Ended ch ((HubOp.releaseFloor ch x).run h).1 := by
  refine ended_of_run hs rfl rfl ?_
  rcases HubOp.releaseFloor_run h ch x with ⟨-, hr, hidle⟩ | ⟨-, hr, hsame⟩
  · exact Or.inl ⟨hr, hidle⟩
  · exact Or.inr ⟨hr, hsame⟩

theorem ended_removeSubscriber (hs : h.Showing) :
    ((HubOp.removeSubscriber ch x).run h).2.Ended ch ((HubOp.removeSubscriber ch x).run h).1 := by
  refine ended_of_run hs rfl rfl ?_
  rcases HubOp.removeSubscriber_run h ch x with ⟨-, hr, hidle⟩ | ⟨-, hr, hsame⟩
  · exact Or.inl ⟨hr, hidle⟩
  · exact Or.inr ⟨hr, hsame⟩

theorem ended_after {p : HubProg α} {released : Bool} (hp : KeepsBoard p)
    (he : h.Ended ch released) : (after p h).Ended ch released := by
  cases released with
  | false => exact showing_after hp he
  | true => exact ⟨lags_after hp he.1, idle_after hp he.2⟩

/-- A handler that announces a release ends with the pages up to date. -/
theorem showing_of_ended {p : HubProg Unit} {released : Bool} (he : h.Ended ch released)
    (hp : h.Lags ch → h.holder ch = none → (after p h).Showing) :
    (after (Prog.when (released = true) p) h).Showing := by
  cases released with
  | false => exact he
  | true => exact hp he.1 he.2

theorem showing_finishRelease (hl : h.Lags ch) (hidle : h.holder ch = none) :
    (after (finishRelease x ch) h).Showing := by
  have hfinish := keepsBoard_of_unlisted (unlisted_finishRecording ch)
  unfold finishRelease
  rw [after_bind]
  generalize ((finishRecording ch).exec HubOp.run h).1 = saved
  let p : HubProg Unit := do
    let c ← (HubOp.fields x).call
    Prog.ifSome saved fun r => (HubOp.appendVoice ch (voiceEntry ch c r)).call
  have hp : KeepsBoard p := all_then rfl fun _ => all_ifSome fun _ => all_perform rfl
  have hdone := showing_announceIdle ((after (finishRecording ch) h).heap x)
    (lags_after hp (lags_after hfinish hl)) (idle_after hp (idle_after hfinish hidle))
  show (after (Prog.ifSome saved (fun r => (HubOp.appendVoice ch (voiceEntry ch
    ((after (finishRecording ch) h).heap x) r)).call) >>= fun _ => announceIdle ch
      ((after (finishRecording ch) h).heap x)) (after (finishRecording ch) h)).Showing
  rw [after_bind]
  exact hdone

theorem showing_handlePTTUp (hs : h.Showing) : (after (handlePTTUp x) h).Showing := by
  show (after (Prog.ifSome (h.channelOf x) fun ch => (HubOp.releaseFloor ch x).call >>=
    fun released => Prog.when released (finishRelease x ch)) h).Showing
  cases h.channelOf x with
  | none => exact hs
  | some ch => exact showing_of_ended (ended_releaseFloor hs) showing_finishRelease

theorem showing_totGoroutine (timer : ℕ) (hs : h.Showing) :
    (after (totGoroutine ch timer) h).Showing := by
  have hfinish := keepsBoard_of_unlisted (unlisted_finishRecording ch)
  show (after (Prog.ifSome ((HubOp.handleTOT ch timer).run h).1 (handleTOTExpired ch))
    ((HubOp.handleTOT ch timer).run h).2).Showing
  rcases HubOp.handleTOT_run h ch timer with ⟨hnone, hsame⟩ | ⟨y, hy, -, hidle⟩
  · rw [hnone]
    exact showing_run hs rfl rfl hsame
  · rw [hy]
    have hl : ((HubOp.handleTOT ch timer).run h).2.Lags ch := lags_run hs rfl rfl
    show (after (handleTOTExpired ch y) _).Showing
    unfold handleTOTExpired
    rw [after_bind]
    let p : HubProg Unit := (HubOp.sendJSON y (floorTimeout ch)).call
    have hp : KeepsBoard p := all_perform rfl
    have hidle' := idle_after hp (idle_after hfinish hidle)
    exact showing_announceIdle _ (lags_after hp (lags_after hfinish hl)) hidle'

/-- A granted request is announced to all. -/
theorem showing_answerRequest {reply : FloorReply}
    (hgranted : reply.granted = true → h.Lags ch ∧ h.carrier ch = true)
    (hdenied : reply.granted = false → h.Showing) :
    (after (answerRequest x ch reply) h).Showing := by
  cases hreply : reply.granted with
  | false =>
    rw [answerRequest, hreply]
    have hp : KeepsBoard (HubOp.sendPriorityJSON x
      (floorDenied ch reply.reason reply.speaker)).call := all_perform rfl
    exact showing_after hp (hdenied hreply)
  | true =>
    obtain ⟨hl, hbusy⟩ := hgranted hreply
    rw [answerRequest, hreply]
    let told : Hub := ((HubOp.addTransmission).run h).2
    have hpreempts : KeepsBoard (Prog.ifSome reply.preempted (finalizePreempted ch x)) :=
      all_ifSome fun y => keepsBoard_of_unlisted (unlisted_finalizePreempted ch x y)
    let p : HubProg Unit := do
      (HubOp.onTransmissionStart ch x).call
      let c ← (HubOp.fields x).call
      (HubOp.sendPriorityJSON x (floorGranted ch c)).call
      (HubOp.broadcastSignal ch (keyedUp ch c)).call
    have hp : KeepsBoard p := all_then rfl fun _ => all_then rfl fun _ => all_then rfl fun _ =>
      all_perform rfl
    have hstart : KeepsBoard (HubOp.addTransmission).call := all_perform rfl
    have hl' : (after (Prog.ifSome reply.preempted (finalizePreempted ch x)) told).Lags ch :=
      lags_after hpreempts (lags_after hstart hl)
    have hbusy' : (after (Prog.ifSome reply.preempted (finalizePreempted ch x)) told).carrier ch =
        true := by
      rw [carrier_after hpreempts]
      exact hbusy
    show (after (Prog.ifSome reply.preempted (finalizePreempted ch x) >>= fun _ => _) told).Showing
    rw [after_bind]
    generalize after (Prog.ifSome reply.preempted (finalizePreempted ch x)) told = h' at hl' hbusy'
    show ((HubOp.broadcastAll (channelBusy ch _)).run (after p h')).2.Showing
    refine showing_channelActivity _ (lags_after hp hl') ?_
    rw [carrier_after hp, hbusy']

theorem holder_of_requested {reply : FloorReply} {before now : Option ClientRef}
    (hreq : HubOp.Requested h x before reply now) :
    now = if reply.granted = true then some x else before := by
  cases hreq <;> rfl

theorem showing_handlePTTDown (hs : h.Showing) : (after (handlePTTDown x) h).Showing := by
  simp only [handlePTTDown, perform_bind, after_call]
  cases hof : h.channelOf x with
  | none =>
    have hp : KeepsBoard (HubOp.sendJSON x (.error "channel not found")).call := all_perform rfl
    rw [show ((HubOp.currentChannel x).run h).1 = none from hof]
    exact showing_after hp hs
  | some ch =>
    rw [show ((HubOp.currentChannel x).run h).1 = some ch from hof]
    show (after (answerRequest x ch ((HubOp.requestFloor ch x).run h).1)
      ((HubOp.requestFloor ch x).run h).2).Showing
    have hl : ((HubOp.requestFloor ch x).run h).2.Lags ch := lags_run hs rfl rfl
    have hreq := holder_of_requested (HubOp.requestFloor_run ch x hs.busyAgrees)
    refine showing_answerRequest (fun hgranted => ⟨hl, ?_⟩) fun hdenied => ?_
    · rw [hgranted, if_pos rfl] at hreq
      rw [carrier, hreq]
      rfl
    · rw [hdenied, if_neg Bool.false_ne_true] at hreq
      exact showing_run hs rfl rfl hreq

theorem showing_leaveChannel (c : Client) (hs : h.Showing) :
    (after (leaveChannel x c ch) h).Showing := by
  show (after (broadcastUserList ch >>= fun _ =>
    Prog.when ((HubOp.removeSubscriber ch x).run h).1 (announceIdle ch c) >>= fun _ =>
      endVideoOf ch x) ((HubOp.removeSubscriber ch x).run h).2).Showing
  rw [after_bind, after_bind]
  refine showing_after (keepsBoard_of_unlisted (unlisted_endVideoOf ch x)) ?_
  exact showing_of_ended (ended_after (keepsBoard_broadcastUserList ch) (ended_removeSubscriber hs))
    (showing_announceIdle c)

theorem showing_unregisterClient (hs : h.Showing) : (after (unregisterClient x) h).Showing := by
  have hgone : KeepsBoard (HubOp.unregister x).call := all_perform rfl
  have hs' : ((HubOp.unregister x).run h).2.Showing := showing_after hgone hs
  show (after (Prog.ifSome ((HubOp.unregister x).run h).1 _) ((HubOp.unregister x).run h).2).Showing
  generalize ((HubOp.unregister x).run h).2 = h' at hs'
  cases ((HubOp.unregister x).run h).1 with
  | none => exact hs'
  | some ch =>
    show (after (broadcastUserList ch >>= fun _ => endVideoOf ch x >>= fun _ =>
      Prog.when ((HubOp.removeSubscriber ch x).run h').1
        ((HubOp.fields x).call >>= fun c => announceIdle ch c))
          ((HubOp.removeSubscriber ch x).run h').2).Showing
    rw [after_bind, after_bind]
    have he : (after (endVideoOf ch x) (after (broadcastUserList ch)
        ((HubOp.removeSubscriber ch x).run h').2)).Ended ch
          ((HubOp.removeSubscriber ch x).run h').1 :=
      ended_after (keepsBoard_of_unlisted (unlisted_endVideoOf ch x))
        (ended_after (keepsBoard_broadcastUserList ch) (ended_removeSubscriber hs'))
    generalize after (endVideoOf ch x) (after (broadcastUserList ch)
      ((HubOp.removeSubscriber ch x).run h').2) = left at he
    exact showing_of_ended he fun hl hidle => showing_announceIdle (left.heap x) hl hidle

theorem keepsBoard_enterChannel (x : ClientRef) (new : ChannelID) :
    KeepsBoard (enterChannel x new) :=
  all_then rfl fun _ => all_then rfl fun _ => all_bind (keepsBoard_broadcastUserList new) fun _ =>
    keepsBoard_of_unlisted (unlisted_showChannel x new)

theorem showing_switchChannel (password : String) (hs : h.Showing) :
    (after (switchChannel x new password) h).Showing := by
  rcases after_switchChannel_cases x new password h with heq | ⟨text, heq⟩ | heq
  · rw [heq]
    exact hs
  · rw [heq]
    have hrefused : KeepsBoard (HubOp.sendJSON x (.error text)).call := all_perform rfl
    exact showing_after hrefused hs
  · rw [heq]
    refine showing_after (keepsBoard_enterChannel x new) ?_
    cases h.channelOf x with
    | none => exact hs
    | some old => exact showing_leaveChannel _ hs

/-- A new channel is on the list that everybody is sent. -/
theorem showing_createSignal (p : Decoded CreateChannelPayload) (hs : h.Showing) :
    (after (createSignal x p) h).Showing := by
  unfold createSignal
  rw [after_when]
  split_ifs
  · refine showing_switchChannel (h := ((HubOp.broadcastAll (.channelList
      ((HubOp.createChannel p.value).run h).2.getChannelList)).run
        ((HubOp.createChannel p.value).run h).2).2) p.value.password ?_
    exact showing_channelList (keyed_run hs.keyed _) (HubOp.busyAgrees_run hs.busyAgrees _)
  · exact hs

/-- A registration leaves the pages of the others as they are. -/
theorem lit_register (first : ℕ) (hs : h.Showing) :
    ((HubOp.register x first).run h).2.Lit h.carrier (some x) := by
  refine ⟨keyed_run hs.keyed _, HubOp.busyAgrees_run hs.busyAgrees _,
    fun y hy hother fetched => ?_⟩
  have hne : y ≠ x := fun heq => hother (congrArg some heq.symm)
  have hmem : y ∈ h.clients := by
    have hother : (HubOp.register x first).touched ≠ some y :=
      fun heq => hne (Option.some.inj heq).symm
    have helse := elsewhere_run hother h
    exact helse.clients.mp hy
  rw [shownTo_run_of_silent rfl, board_congr (sameChannels_run rfl h)]
  exact hs.shown y hmem (Option.some_ne_none y).symm fetched

/-- Whoever is sent the whole list is up to date. -/
theorem showing_sendList (hl : h.Lit h.carrier (some x)) :
    ((HubOp.sendJSON x (.channelList h.getChannelList)).run h).2.Showing := by
  refine ⟨keyed_run hl.keyed _, HubOp.busyAgrees_run hl.busyAgrees _,
    fun y hy _ fetched => ?_⟩
  have hy : y ∈ h.clients := hy
  rw [shownTo_run]
  by_cases hyx : y = x
  · have hsent : framesTo y ((HubOp.sendJSON x (.channelList h.getChannelList)).sends h) =
        [.json (.channelList h.getChannelList) h.unixMilli] := by
      simp [HubOp.sends, framesTo, hyx]
    rw [hsent]
    exact lights_getChannelList hl.busyAgrees
  · have hsent : framesTo y ((HubOp.sendJSON x (.channelList h.getChannelList)).sends h) = [] := by
      simp [HubOp.sends, framesTo, Ne.symm hyx]
    rw [hsent]
    exact hl.shown y hy (fun heq => hyx (Option.some.inj heq).symm) fetched

theorem showing_welcomeClient (hl : h.Lit h.carrier (some x)) :
    (after (welcomeClient x) h).Showing := by
  let h' := ((HubOp.sendJSON x (.clientWelcome (h.heap x).id (h.heap x).callsign
    (h.heap x).currentChannelID)).run h).2
  have hl' : h'.Lit h'.carrier (some x) := lit_run hl rfl
  let p : HubProg Unit := do
    let (hist, video) ← (HubOp.history (h.heap x).currentChannelID).call
    Prog.when (0 < hist.length)
      (HubOp.sendJSON x (.chatHistory (h.heap x).currentChannelID hist)).call
    Prog.ifSome video fun v => (HubOp.sendJSON x (.videoCallStart v)).call
  have hp : KeepsBoard p := all_then rfl fun _ => all_bind (all_when (all_perform rfl)) fun _ =>
    all_ifSome fun _ => all_perform rfl
  show (after p ((HubOp.sendJSON x (.channelList h'.getChannelList)).run h').2).Showing
  exact showing_after hp (showing_sendList hl')

theorem showing_registerClient (first : ℕ) (hs : h.Showing) :
    (after (registerClient x first) h).Showing := by
  have hcarrier : ((HubOp.register x first).run h).2.carrier = h.carrier := by
    funext c
    rw [carrier, carrier, HubOp.holder_run_of_ne]
    exact (Option.some_ne_none c).symm
  have hl : ((HubOp.register x first).run h).2.Lit ((HubOp.register x first).run h).2.carrier
      (some x) := by
    rw [hcarrier]
    exact lit_register first hs
  have hjoin : KeepsBoard (Prog.ifSome ((HubOp.register x first).run h).1 fun ch =>
      (HubOp.addSubscriber ch x).call >>= fun _ => broadcastUserList ch) :=
    all_ifSome fun ch => all_then rfl fun _ => keepsBoard_broadcastUserList ch
  show (after (Prog.ifSome ((HubOp.register x first).run h).1 (fun ch =>
    (HubOp.addSubscriber ch x).call >>= fun _ => broadcastUserList ch) >>= fun _ =>
      welcomeClient x) ((HubOp.register x first).run h).2).Showing
  rw [after_bind]
  refine showing_welcomeClient ?_
  rw [carrier_after hjoin]
  exact lit_after hjoin hl

theorem showing_handleSignal (msg : ClientSignal) (choices : Choices) (hs : h.Showing) :
    (after (handleSignal x msg choices) h).Showing := by
  cases msg with
  | identify p =>
    refine showing_after (all_when (all_then rfl fun _ => all_bind (all_when (all_perform rfl))
      fun _ => all_then rfl fun _ => all_ifSome keepsBoard_broadcastUserList)) hs
  | joinChannel p =>
    unfold handleSignal
    rw [after_when]
    split_ifs
    · exact showing_switchChannel p.value.password hs
    · exact hs
  | createChannel p => exact showing_createSignal p hs
  | pttDown => exact showing_handlePTTDown hs
  | pttUp => exact showing_handlePTTUp hs
  | other type => exact hs
  | _ => exact showing_after (keepsBoard_of_unlisted (unlisted_handleSignal x choices rfl)) hs

theorem showing_serve (r : Request) (hs : h.Showing) : (after r.prog h).Showing := by
  cases r with
  | connect x first => exact showing_registerClient first hs
  | signal x msg choices => exact showing_handleSignal msg choices hs
  | audio x data =>
    exact showing_after (keepsBoard_of_unlisted (unlisted_handleBinaryAudio x data)) hs
  | disconnect x => exact showing_unregisterClient hs
  | totExpires ch timer => exact showing_totGoroutine timer hs
  | datagram data => exact showing_after (keepsBoard_of_unlisted (unlisted_roipDatagram data)) hs

theorem showing_fireTimer {timer : ℕ} {h' : Hub} (hs : h.Showing)
    (hf : h.fireTimer ch timer = some h') : h'.Showing := by
  have hcarrier : h'.carrier = h.carrier := by
    funext c
    rw [carrier, carrier, fireTimer_holder hf]
  have hbusy := fireTimer_busyAgrees hs.busyAgrees hf
  obtain ⟨c, c', hc, hfire, rfl⟩ := fireTimer_eq hf
  obtain ⟨τ, _, _, _, rfl⟩ := Channel.fireTimer_eq hfire
  let fired : Channel := { c with timers := c.timers.modify timer Timer.fire }
  have hsame : SameChannels h { h with channels := h.channels.insert ch fired } := by
    refine ⟨fun d => ?_, length_insert_of_mem (AList.lookup_isSome.mp (by rw [hc]; rfl)) _⟩
    by_cases hd : d = ch
    · rw [hd, definitionOf, AList.lookup_insert, definitionOf, hc]
      rfl
    · rw [definitionOf, AList.lookup_insert_ne hd, definitionOf]
  refine ⟨fun d e hd => ?_, hbusy, fun y hy hdeaf fetched => ?_⟩
  · rw [hsame.definition] at hd
    exact hs.keyed d e hd
  · rw [hcarrier, board_congr hsame]
    exact hs.shown y hy hdeaf fetched

end Handlers

section Run

variable {γ : Type} {note : Request → Hub → Hub → γ → γ} {s : SerialHub γ}

/-- Between two handlers the pages of all clients show every floor as it is. -/
theorem showing_of_serial {cfg : Config} {recorder : Option AudioRecorder} {roipRelay : Bool}
    {heap : Clients} {now : ℤ} {g : γ} {es : List SerialEvent}
    (hrun : Run (serialStep note) (SerialHub.init (newHub cfg recorder roipRelay heap now) g) es
      s) : s.hub.Showing := by
  refine hrun.invariant (I := fun s => s.hub.Showing) (fun s e t hs hstep => ?_) ?_
  · cases e with
    | serve r =>
      obtain ⟨-, hafter, -, -⟩ := serialStep_serve hstep
      rw [hafter]
      exact showing_serve r hs
    | timerFires ch timer =>
      obtain ⟨h', hf, rfl⟩ := Option.map_eq_some_iff.mp hstep
      exact showing_fireTimer hs hf
    | tick d =>
      obtain rfl := Option.some.inj hstep
      exact ⟨hs.keyed, hs.busyAgrees, hs.shown⟩
  · refine ⟨newHub_keyed cfg recorder roipRelay heap now,
      newHub_busyAgrees cfg recorder roipRelay heap now, fun y hy => ?_⟩
    exact absurd (AList.mem_keys.mp hy) List.not_mem_nil

theorem foldl_shown_filter (frames : List Frame) (channels : List ChannelInfo) :
    (frames.filter Frame.listsChannels).foldl
        (fun channels frame => RadioState.shown frame channels) channels =
      frames.foldl (fun channels frame => RadioState.shown frame channels) channels := by
  induction frames generalizing channels with
  | nil => rfl
  | cons frame rest ih =>
    cases hf : frame.listsChannels with
    | true => rw [List.filter_cons_of_pos hf, List.foldl_cons, List.foldl_cons, ih]
    | false =>
      rw [List.filter_cons_of_neg (by rw [hf]; exact Bool.false_ne_true), List.foldl_cons, ih,
        shown_of_not_listsChannels hf]

/-- The list is not loaded after a message about channels. -/
def PageEvent.LoadsBefore (told e : PageEvent) : Prop :=
  told.frame.any Frame.listsChannels = true → e.isLoad = false

instance (told e : PageEvent) : Decidable (told.LoadsBefore e) :=
  inferInstanceAs (Decidable (_ → _))

theorem channels_of_loaded {page page' : RadioState} {ps : List PageEvent}
    (hpage : Run pageStep page ps page') (hloaded : ∀ e ∈ ps, e.isLoad = false) :
    page'.channels = (ps.filterMap PageEvent.frame).foldl
      (fun channels frame => RadioState.shown frame channels) page.channels := by
  induction hpage with
  | nil page => rfl
  | @cons page next last e ps hstep _ ih =>
    rw [ih fun e' he' => hloaded e' (List.mem_cons_of_mem _ he'),
      channels_pageStep hstep (hloaded e List.mem_cons_self)]
    cases hframe : e.frame with
    | none => rw [List.filterMap_cons_none hframe, Option.elim_none]
    | some frame => rw [List.filterMap_cons_some hframe, Option.elim_some, List.foldl_cons]

/-- The messages about channels say it all, unless the list is loaded after one of them. -/
theorem channels_of_run {page page' : RadioState} {ps : List PageEvent}
    (hpage : Run pageStep page ps page') (hloads : ps.Pairwise PageEvent.LoadsBefore) :
    ∃ loaded, page'.channels = (ps.filterMap PageEvent.frame).foldl
      (fun channels frame => RadioState.shown frame channels) loaded := by
  induction hpage with
  | nil page => exact ⟨page.channels, rfl⟩
  | @cons page next last e ps hstep hrest ih =>
    obtain ⟨hbefore, hloads⟩ := List.pairwise_cons.mp hloads
    cases hframe : e.frame with
    | none =>
      rw [List.filterMap_cons_none hframe]
      exact ih hloads
    | some frame =>
      rw [List.filterMap_cons_some hframe]
      cases hlists : frame.listsChannels with
      | true =>
        -- from here on the page only goes by what it is told
        have hloaded : ∀ e' ∈ e :: ps, e'.isLoad = false := by
          intro e' he'
          rcases List.mem_cons.mp he' with rfl | hlater
          · cases e' <;> first | rfl | cases hframe
          · exact hbefore e' hlater (by rw [hframe]; exact hlists)
        have hpage := channels_of_loaded (Run.cons hstep hrest) hloaded
        rw [List.filterMap_cons_some hframe] at hpage
        exact ⟨page.channels, hpage⟩
      | false =>
        obtain ⟨loaded, heq⟩ := ih hloads
        refine ⟨loaded, ?_⟩
        rw [heq, List.foldl_cons, shown_of_not_listsChannels hlists]

/-- A page that has handled what its client was sent about channels, in that order and after what
it loads itself, shows the list of the hub, and as busy just those channels whose floor is held,
whatever its user and its scanner have done meanwhile. -/
theorem board_agrees {cfg : Config} (hcfg : cfg.defaultChannels ≠ [])
    {recorder : Option AudioRecorder} {roipRelay : Bool} {heap : Clients} {now : ℤ} {g : γ}
    {es : List SerialEvent}
    (hrun : Run (serialStep note) (SerialHub.init (newHub cfg recorder roipRelay heap now) g) es
      s) {x : ClientRef} (hx : s.phase x = .live) {start page : RadioState}
    {ps : List PageEvent} (hpage : Run pageStep start ps page)
    (hloads : ps.Pairwise PageEvent.LoadsBefore)
    (htold : (ps.filterMap PageEvent.frame).filter Frame.listsChannels =
      (framesTo x s.hub.outbox).filter Frame.listsChannels) :
    page.channels.map ChannelInfo.lights = s.hub.getChannelList.map ChannelInfo.lights ∧
      ∀ info ∈ page.channels, info.isBusy = (s.hub.holder info.id).isSome := by
  have hs := showing_of_serial hrun
  have hin : x ∈ s.hub.clients := by
    have hhome := home_of_serial hcfg hrun x
    rw [if_pos hx] at hhome
    obtain ⟨ch, hp⟩ := hhome
    exact hp.clients.mpr trivial
  obtain ⟨loaded, hloaded⟩ := channels_of_run hpage hloads
  have hchannels : page.channels = s.hub.shownTo loaded x := by
    rw [hloaded, ← foldl_shown_filter, htold, foldl_shown_filter]
    rfl
  have hboard : page.channels.map ChannelInfo.lights = s.hub.board s.hub.carrier := by
    rw [hchannels]
    exact hs.shown x hin (Option.some_ne_none x).symm loaded
  refine ⟨hboard.trans (Hub.lights_getChannelList hs.busyAgrees).symm, fun info hinfo => ?_⟩
  have hmem : info.lights ∈ s.hub.board s.hub.carrier := by
    rw [← hboard]
    exact List.mem_map.mpr ⟨info, hinfo, rfl⟩
  obtain ⟨n, -, hn⟩ := List.mem_filterMap.mp hmem
  obtain ⟨d, hd, hlit⟩ := Option.map_eq_some_iff.mp hn
  have hid : info.id = (n : ℤ) + 1 := (congrArg ChannelInfo.id hlit).symm.trans (hs.keyed _ d hd)
  rw [hid]
  exact (congrArg ChannelInfo.isBusy hlit).symm

/-- Unit 0 registers and keys up while unit 1 listens. -/
def listened : List SerialEvent :=
  [.serve (.connect 0 0), .serve (.connect 1 0), .serve (.signal 0 .pttDown {})]

/-- The page of unit 1, which has loaded the list before unit 0 keys up, and starts its scanner
between two messages. -/
def listening (h : Hub) : List PageEvent :=
  .loads (newHub defaultConfig none false sampleClients 0).getChannelList ::
    ((framesTo 1 h.outbox).map .receives).flatMap fun e => [e, .toggleScanner]

def listenedTo : SerialHub Unit :=
  (listened.foldlM (serialStep noNote)
    (SerialHub.init (newHub defaultConfig none false sampleClients 0) ())).get (by decide +kernel)

def pageOfListener : RadioState :=
  ((listening listenedTo.hub).foldlM pageStep (pageLoad "UNIT-1")).get (by decide +kernel)

theorem board_agrees_listened :
    ∃ page, Run pageStep (pageLoad "UNIT-1") (listening listenedTo.hub) page ∧
      page.channels.map ChannelInfo.lights =
        listenedTo.hub.getChannelList.map ChannelInfo.lights := by
  have hrun : Run (serialStep noNote)
      (SerialHub.init (newHub defaultConfig none false sampleClients 0) ()) listened listenedTo :=
    run_get ..
  have hpage : Run pageStep (pageLoad "UNIT-1") (listening listenedTo.hub) pageOfListener :=
    run_get ..
  have htold : ((listening listenedTo.hub).filterMap PageEvent.frame).filter Frame.listsChannels =
      (framesTo 1 listenedTo.hub.outbox).filter Frame.listsChannels := by
    decide +kernel
  have hlive : listenedTo.phase 1 = .live := by decide +kernel
  have hloads : (listening listenedTo.hub).Pairwise PageEvent.LoadsBefore := by decide +kernel
  exact ⟨pageOfListener, hpage, (board_agrees (by decide) hrun hlive hpage hloads htold).1⟩

end Run

end TwoWayRadio

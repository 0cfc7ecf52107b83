import TwoWayRadio.Session

/-! The channel scanner of the page, stepping on while messages come in. -/
namespace TwoWayRadio
open Transition

namespace RadioState

def startScanner (s : RadioState) : RadioState :=
  if s.channels.length = 0 then s else { s with isScanning := true }

def stopScanner (s : RadioState) : RadioState := { s with isScanning := false }

def toggleScanner (s : RadioState) : RadioState :=
  if s.isScanning then s.stopScanner else s.startScanner

/-- `channels.find` by ID. -/
def findChannel (c : ChannelID) (s : RadioState) : Option ChannelInfo :=
  s.channels.find? fun ch => ch.id == c

/-- The channel is shown with traffic on it. -/
def showsBusy (c : ChannelID) (s : RadioState) : Bool :=
  (s.findChannel c).any fun ch => ch.isBusy

/-- The current channel carries somebody else's voice. -/
def hearsTraffic (s : RadioState) : Bool :=
  (s.findChannel s.currentChannelID).any fun curCh =>
    curCh.isBusy && curCh.currentSpeaker ≠ "" && curCh.currentSpeaker ≠ s.myCallsign

def nextChannelID (s : RadioState) : ChannelID :=
  if s.currentChannelID + 1 > s.channels.length then 1 else s.currentChannelID + 1

/-- The callback of `scanIntervalTimer`; `answer` is what a password prompt returns. -/
def scanStep (answer : Option String) (s : RadioState) : RadioState :=
  if !s.isScanning || s.channels.length == 0 then s
  else if s.hearsTraffic then s.stopScanner
  else
    let nextID := s.nextChannelID
    let s := s.changeChannel nextID answer
    if s.showsBusy nextID then s.stopScanner else s

/-- The list that the page fetches while it loads has come in. -/
def loadInitialChannels (data : List ChannelInfo) (s : RadioState) : RadioState :=
  if data.length = 0 then s else { s with channels := data }

end RadioState

inductive PageEvent
  | receives (frame : Frame)
  -- the page does not wait for it, so it may come before or after any message
  | loads (data : List ChannelInfo)
  | acts (e : RadioEvent)
  | toggleScanner
  | scans (answer : Option String)
deriving DecidableEq

/-- What the user and the microphone do. -/
def RadioEvent.isAct : RadioEvent → Bool
  | floorStatus _ | channelList _ | socket _ => false
  | _ => true

def pageStep (s : RadioState) : PageEvent → Option RadioState
  | .receives frame => some (s.onMessage frame)
  | .loads data => some (s.loadInitialChannels data)
  | .acts e => if e.isAct then some (radioEvent s e) else none
  | .toggleScanner => some s.toggleScanner
  | .scans answer => some (s.scanStep answer)

namespace RadioState

variable {s : RadioState}

/-- What the scanner goes by. -/
def tuner (s : RadioState) : List ChannelInfo × Bool × ChannelID :=
  (s.channels, s.isScanning, s.currentChannelID)

theorem tuner_eq_iff {channels : List ChannelInfo} {isScanning : Bool} {c : ChannelID} :
    s.tuner = (channels, isScanning, c) ↔
      s.channels = channels ∧ s.isScanning = isScanning ∧ s.currentChannelID = c := by
  rw [tuner, Prod.mk.injEq, Prod.mk.injEq]

theorem tuner_wsSend (frames : List ClientFrame) (s : RadioState) :
    (s.wsSend frames).tuner = s.tuner := by
  unfold wsSend
  split <;> rfl

theorem tuner_onEngine (f : AudioEngine → List Bytes × AudioEngine) (s : RadioState) :
    (s.onEngine f).tuner = s.tuner :=
  tuner_wsSend ..

theorem tuner_releaseFloor (s : RadioState) : s.releaseFloor.tuner = s.tuner := by
  unfold releaseFloor
  split_ifs
  · rfl
  · dsimp only
    rw [tuner_wsSend]
    split_ifs <;> exact tuner_onEngine ..

/-- A switch retunes the page, unless there is no such channel or the prompt is cancelled. -/
theorem tuner_changeChannel (c : ChannelID) (answer : Option String) (s : RadioState) :
    (s.changeChannel c answer).tuner =
      if (s.findChannel c).any fun ch => !ch.isPrivate || answer.isSome then
        (s.channels, s.isScanning, c)
      else s.tuner := by
  have hsend (s' : RadioState) (hs : s'.tuner = s.tuner) (frames : List ClientFrame) :
      ({ s' with currentChannelID := c }.wsSend frames).tuner =
        (s.channels, s.isScanning, c) := by
    rw [tuner_wsSend, tuner]
    rw [tuner, tuner, Prod.mk.injEq, Prod.mk.injEq] at hs
    rw [hs.1, hs.2.1]
  have hends (s' : RadioState) : s'.endVideoCall.tuner = s'.tuner := tuner_wsSend ..
  have hleaves : (if (if s.isTransmitting then s.releaseFloor else s).isVideoCallActive then
      (if s.isTransmitting then s.releaseFloor else s).endVideoCall
        else if s.isTransmitting then s.releaseFloor else s).tuner = s.tuner := by
    split_ifs
    · rw [hends, tuner_releaseFloor]
    · exact tuner_releaseFloor s
    · exact hends s
    · rfl
  unfold changeChannel findChannel
  cases s.channels.find? fun ch => ch.id == c with
  | none => rfl
  | some ch =>
    cases hprivate : ch.isPrivate <;> cases answer
    · simpa [hprivate] using hsend _ hleaves _
    · simpa [hprivate] using hsend _ hleaves _
    · simp [hprivate]
    · simpa [hprivate] using hsend _ hleaves _

/-- A message about a floor leaves the scanner alone. -/
theorem tuner_handleFloorStatus (payload : FloorStatusPayload) (s : RadioState) :
    (s.handleFloorStatus payload).tuner = s.tuner := by
  unfold handleFloorStatus
  by_cases hch : payload.channelID ≠ s.currentChannelID
  · rw [if_pos hch]
  · rw [if_neg hch]
    cases payload.status with
    | granted =>
      dsimp only
      split_ifs
      · exact tuner_releaseFloor s
      · exact tuner_onEngine ..
    | timeout => exact tuner_onEngine ..
    | _ => rfl

/-- What a frame makes of the page's list of channels. -/
def shown : Frame → List ChannelInfo → List ChannelInfo
  | .json (.channelList channels) _, _ => channels
  | .json (.channelActivity ch isBusy speaker) _, channels =>
    markActivity ch isBusy speaker channels
  | _, channels => channels

/-- The page locks onto a carrier of its channel. -/
def locksOn (s : RadioState) : Frame → Bool
  | .json (.channelActivity ch isBusy speaker) _ =>
    isBusy && speaker ≠ "" && speaker ≠ s.myCallsign && s.isScanning && s.currentChannelID == ch
  | _ => false

/-- Messages neither retune the page nor start its scanner. -/
theorem tuner_onMessage (frame : Frame) (s : RadioState) : (s.onMessage frame).tuner =
    (shown frame s.channels, s.isScanning && !s.locksOn frame, s.currentChannelID) := by
  have hrest : (s.channels, s.isScanning && !false, s.currentChannelID) = s.tuner := by
    rw [Bool.not_false, Bool.and_true, tuner]
  cases frame with
  | binary data => exact hrest.symm
  | json msg now =>
    cases msg with
    | channelList channels =>
      show (channels, s.isScanning, s.currentChannelID) =
        (channels, s.isScanning && !false, s.currentChannelID)
      rw [Bool.not_false, Bool.and_true]
    | floorStatus payload => exact (tuner_handleFloorStatus payload s).trans hrest.symm
    | userTalking payload =>
      refine Eq.trans ?_ hrest.symm
      show (s.handleUserTalking payload).tuner = _
      unfold handleUserTalking
      split_ifs <;> rfl
    | userStopped payload =>
      refine Eq.trans ?_ hrest.symm
      show (s.handleUserStopped payload).tuner = _
      unfold handleUserStopped
      split_ifs <;> rfl
    | channelActivity ch isBusy speaker =>
      show (s.handleChannelActivity ch isBusy speaker).tuner = _
      unfold handleChannelActivity locksOn
      dsimp only
      split_ifs with hlock
      · obtain ⟨hbusy, hspeaker, hother, hscan, hcur⟩ := hlock
        simp [tuner, shown, hbusy, hspeaker, hother, hscan, hcur]
      · have hnone : (isBusy && speaker ≠ "" && speaker ≠ s.myCallsign && s.isScanning &&
            s.currentChannelID == ch) = false := by
          rw [← Bool.not_eq_true]
          simpa [and_assoc] using hlock
        rw [hnone]
        simp [tuner, shown]
    | _ => exact hrest.symm

theorem findChannel_of_channels {s t : RadioState} (h : t.channels = s.channels) (c : ChannelID) :
    t.findChannel c = s.findChannel c := by
  rw [findChannel, h, findChannel]

/-- A step of the scanner goes on to the next channel, or it locks: onto traffic of that channel,
or of the one that the page is on already. -/
theorem scanStep_cases (answer : Option String) (hscan : s.isScanning = true)
    (hanswer : answer.isSome = true) (hnext : (s.findChannel s.nextChannelID).isSome = true) :
    ((s.scanStep answer).tuner = (s.channels, true, s.nextChannelID) ∧
      s.showsBusy s.nextChannelID = false) ∨
    ∃ c, (s.scanStep answer).tuner = (s.channels, false, c) ∧ s.showsBusy c = true := by
  have hsome : ¬ s.channels.length = 0 := by
    intro hnone
    rw [findChannel, List.length_eq_zero_iff.mp hnone] at hnext
    cases hnext
  rw [scanStep, if_neg (by simp [hscan, hsome])]
  by_cases hhears : s.hearsTraffic = true
  · rw [if_pos hhears]
    refine Or.inr ⟨s.currentChannelID, rfl, ?_⟩
    obtain ⟨ch, hch, htraffic⟩ := (Option.any_eq_true ..).mp hhears
    rw [Bool.and_eq_true, Bool.and_eq_true] at htraffic
    exact (Option.any_eq_true ..).mpr ⟨ch, hch, htraffic.1.1⟩
  · rw [if_neg hhears]
    have hretuned : (s.changeChannel s.nextChannelID answer).tuner =
        (s.channels, true, s.nextChannelID) := by
      rw [tuner_changeChannel, if_pos, hscan]
      obtain ⟨ch, hch⟩ := Option.isSome_iff_exists.mp hnext
      rw [hch, Option.any_some, hanswer, Bool.or_true]
    have hshows : (s.changeChannel s.nextChannelID answer).showsBusy s.nextChannelID =
        s.showsBusy s.nextChannelID := by
      rw [showsBusy, findChannel_of_channels (congrArg Prod.fst hretuned), showsBusy]
    dsimp only
    rw [hshows]
    cases hbusy : s.showsBusy s.nextChannelID with
    | false =>
      rw [if_neg Bool.false_ne_true]
      exact Or.inl ⟨hretuned, rfl⟩
    | true =>
      rw [if_pos rfl]
      refine Or.inr ⟨s.nextChannelID, ?_, hbusy⟩
      have hstopped (u : RadioState) : u.stopScanner.tuner = (u.tuner.1, false, u.tuner.2.2) := rfl
      rw [hstopped, hretuned]

theorem find?_markActivity (c : ChannelID) (isBusy : Bool) (speaker : String)
    (channels : List ChannelInfo) :
    (markActivity c isBusy speaker channels).find? (fun ch => ch.id == c) =
      (channels.find? fun ch => ch.id == c).map fun ch =>
        { ch with isBusy := isBusy, currentSpeaker := speaker } := by
  induction channels with
  | nil => rfl
  | cons ch rest ih =>
    by_cases hid : ch.id = c
    · simp [markActivity, hid]
    · simp [markActivity, hid, ih]

/-- A page that locks onto a carrier shows it. -/
theorem showsBusy_of_locksOn {frame : Frame} (hlock : s.locksOn frame = true)
    (hcur : (s.findChannel s.currentChannelID).isSome = true) :
    (s.onMessage frame).showsBusy s.currentChannelID = true := by
  have hchannels : (s.onMessage frame).channels = shown frame s.channels :=
    congrArg Prod.fst (tuner_onMessage frame s)
  rw [showsBusy, findChannel, hchannels]
  unfold locksOn at hlock
  split at hlock
  · simp only [Bool.and_eq_true, beq_iff_eq] at hlock
    obtain ⟨⟨⟨⟨rfl, -⟩, -⟩, -⟩, rfl⟩ := hlock
    obtain ⟨ch, hch⟩ := Option.isSome_iff_exists.mp hcur
    have hfind : s.channels.find? (fun ch => ch.id == s.currentChannelID) = some ch := hch
    rw [shown, find?_markActivity, hfind]
    rfl
  · cases hlock

theorem channels_requestFloor (s : RadioState) : s.requestFloor.channels = s.channels := by
  unfold requestFloor
  split_ifs
  · rfl
  · exact congrArg Prod.fst (tuner_wsSend ..)

theorem channels_releaseFloor (s : RadioState) : s.releaseFloor.channels = s.channels :=
  congrArg Prod.fst s.tuner_releaseFloor

theorem channels_changeChannel (c : ChannelID) (answer : Option String) (s : RadioState) :
    (s.changeChannel c answer).channels = s.channels := by
  have htuner := congrArg Prod.fst (tuner_changeChannel c answer s)
  split_ifs at htuner <;> exact htuner

theorem channels_scanStep (answer : Option String) (s : RadioState) :
    (s.scanStep answer).channels = s.channels := by
  unfold scanStep
  dsimp only
  split_ifs
  · rfl
  · rfl
  · exact channels_changeChannel ..
  · exact channels_changeChannel ..

theorem channels_acts {act : RadioEvent} (hact : act.isAct = true) (s : RadioState) :
    (radioEvent s act).channels = s.channels := by
  cases act with
  | press =>
    show s.pttPress.channels = s.channels
    unfold pttPress
    split
    · split_ifs
      · exact s.channels_releaseFloor
      · exact s.channels_requestFloor
    · exact s.channels_requestFloor
  | release =>
    show s.pttRelease.channels = s.channels
    unfold pttRelease
    split_ifs
    · exact s.channels_releaseFloor
    · rfl
  | requestFloor => exact s.channels_requestFloor
  | releaseFloor => exact s.channels_releaseFloor
  | changeChannel c answer => exact channels_changeChannel ..
  | micBlock samples => exact congrArg Prod.fst (tuner_onEngine ..)
  | floorStatus payload => cases hact
  | channelList channels => cases hact
  | socket isOpen => cases hact
  | _ => rfl

end RadioState

/-- What the page is told in an event. -/
def PageEvent.frame : PageEvent → Option Frame
  | receives frame => some frame
  | _ => none

def PageEvent.isLoad : PageEvent → Bool
  | loads _ => true
  | _ => false

/-- Once it has been loaded the list of channels is what the page is told, whatever its user
does. -/
theorem channels_pageStep {s t : RadioState} {e : PageEvent} (hstep : pageStep s e = some t)
    (hload : e.isLoad = false) :
    t.channels = e.frame.elim s.channels fun frame => RadioState.shown frame s.channels := by
  cases e with
  | receives frame =>
    obtain rfl := Option.some.inj hstep
    exact congrArg Prod.fst (RadioState.tuner_onMessage frame s)
  | loads data => cases hload
  | acts act =>
    simp only [pageStep] at hstep
    split_ifs at hstep with hact
    obtain rfl := Option.some.inj hstep
    exact RadioState.channels_acts hact s
  | toggleScanner =>
    obtain rfl := Option.some.inj hstep
    show s.toggleScanner.channels = s.channels
    unfold RadioState.toggleScanner RadioState.startScanner
    split_ifs <;> rfl
  | scans answer =>
    obtain rfl := Option.some.inj hstep
    exact RadioState.channels_scanStep answer s

/-- The page is tuned to one of its channels, which are those from 1 to at most `N`. -/
structure RadioState.Surveys (N : ℕ) (s : RadioState) : Prop where
  numbered : ∃ n ≤ N, s.channels.map ChannelInfo.id = (List.range n).map fun k : ℕ => (k : ℤ) + 1
  tuned : (s.findChannel s.currentChannelID).isSome = true

instance (N : ℕ) (s : RadioState) : Decidable (s.Surveys N) :=
  decidable_of_iff ((∃ n ≤ N, s.channels.map ChannelInfo.id =
    (List.range n).map fun k : ℕ => (k : ℤ) + 1) ∧ (s.findChannel s.currentChannelID).isSome = true)
    ⟨fun h => ⟨h.1, h.2⟩, fun h => ⟨h.numbered, h.tuned⟩⟩

/-- What a user does who leaves the scanner alone. -/
def RadioEvent.leavesScanner : RadioEvent → Bool
  | release | releaseFloor | setPttMode _ | videoCall _ | micBlock _ => true
  | _ => false

/-- The scanner is neither stopped by its user nor at a prompt that is cancelled. -/
def PageEvent.leavesScanner : PageEvent → Bool
  | receives _ | loads _ => true
  | acts e => e.leavesScanner
  | toggleScanner => false
  | scans answer => answer.isSome

def PageEvent.isScan : PageEvent → Bool
  | scans _ => true
  | _ => false

section Scan

variable {N : ℕ} {c cur : ChannelID} {s t : RadioState} {e : PageEvent} {es : List PageEvent}

theorem RadioState.Surveys.length_le (hs : s.Surveys N) : s.channels.length ≤ N := by
  obtain ⟨n, hn, hids⟩ := hs.numbered
  have hlength : s.channels.length = n := by
    simpa using congrArg List.length hids
  omega

theorem RadioState.Surveys.found_iff (hs : s.Surveys N) (c : ℤ) :
    (s.findChannel c).isSome = true ↔ 1 ≤ c ∧ c ≤ s.channels.length := by
  obtain ⟨n, -, hids⟩ := hs.numbered
  have hlength : s.channels.length = n := by
    simpa using congrArg List.length hids
  have hmem : (s.findChannel c).isSome = true ↔
      ∃ k ∈ List.range n, (k : ℤ) + 1 = c := by
    rw [RadioState.findChannel, List.find?_isSome, ← List.mem_map (b := c), ← hids, List.mem_map]
    simp
  rw [hmem, hlength]
  constructor
  · rintro ⟨k, hk, rfl⟩
    rw [List.mem_range] at hk
    omega
  · rintro ⟨hpos, hle⟩
    exact ⟨(c - 1).toNat, List.mem_range.mpr (by omega), by omega⟩

/-- The steps from one channel up to another, around the end of the list. -/
def stepsTo (N c cur : ℤ) : ℤ := if cur < c then c - cur else N - cur + c

theorem stepsTo_le {N c cur : ℤ} (hcur : 1 ≤ cur) (hc : c ≤ N) : stepsTo N c cur ≤ N := by
  unfold stepsTo
  split_ifs <;> omega

theorem stepsTo_pos {N c cur : ℤ} (hcur : cur ≤ N) (hc : 1 ≤ c) : 0 < stepsTo N c cur := by
  unfold stepsTo
  split_ifs <;> omega

/-- Every step comes nearer to a channel, unless it comes to it. -/
theorem stepsTo_next {N n c cur : ℤ} (hn : n ≤ N) (hc : 1 ≤ c ∧ c ≤ n) (hcur : 1 ≤ cur ∧ cur ≤ n)
    (hne : (if cur + 1 > n then 1 else cur + 1) ≠ c) :
    stepsTo N c (if cur + 1 > n then 1 else cur + 1) + 1 ≤ stepsTo N c cur := by
  unfold stepsTo
  split_ifs at * <;> omega

theorem found_nextChannelID (hs : s.Surveys N) : (s.findChannel s.nextChannelID).isSome = true := by
  obtain ⟨hpos, hle⟩ := (hs.found_iff s.currentChannelID).mp hs.tuned
  have hnext {n cur : ℤ} (hcur : 1 ≤ cur ∧ cur ≤ n) :
      1 ≤ (if cur + 1 > n then 1 else cur + 1) ∧ (if cur + 1 > n then 1 else cur + 1) ≤ n := by
    split_ifs <;> omega
  exact (hs.found_iff s.nextChannelID).mpr (hnext ⟨hpos, hle⟩)

theorem tuner_acts {act : RadioEvent} (hact : act.leavesScanner = true) (s : RadioState) :
    (radioEvent s act).tuner = s.tuner := by
  cases act with
  | release =>
    show s.pttRelease.tuner = s.tuner
    unfold RadioState.pttRelease
    split_ifs
    · exact s.tuner_releaseFloor
    · rfl
  | releaseFloor => exact s.tuner_releaseFloor
  | setPttMode mode => rfl
  | videoCall isActive => rfl
  | micBlock samples => exact RadioState.tuner_onEngine ..
  | _ => cases hact

/-- A scanner that has not come to a busy channel yet has some way to go, but not beyond `N`. -/
theorem stepsTo_bounds (hs : s.Surveys N) (hbusy : s.showsBusy c = true) :
    0 < stepsTo N c s.currentChannelID ∧ stepsTo N c s.currentChannelID ≤ N ∧
      (1 ≤ c ∧ c ≤ s.channels.length) := by
  have hfound : (s.findChannel c).isSome = true := by
    obtain ⟨ch, hch, -⟩ := (Option.any_eq_true ..).mp hbusy
    rw [hch]
    rfl
  have hc := (hs.found_iff c).mp hfound
  obtain ⟨hcurpos, hcurle⟩ := (hs.found_iff s.currentChannelID).mp hs.tuned
  have hN : (s.channels.length : ℤ) ≤ N := Int.ofNat_le.mpr hs.length_le
  exact ⟨stepsTo_pos (le_trans hcurle hN) hc.1, stepsTo_le hcurpos (le_trans hc.2 hN), hc⟩

/-- One event of a page that is left scanning: the scanner locks onto traffic, or it is still on
and, if this was its turn, nearer to `c`. -/
theorem scanning_step (hs : s.Surveys N) (hbusy : s.showsBusy c = true)
    (he : e.leavesScanner = true) (hscan : s.isScanning = true) (h : pageStep s e = some t) :
    (t.isScanning = false ∧ t.showsBusy t.currentChannelID = true) ∨
      (t.isScanning = true ∧ 0 < stepsTo N c t.currentChannelID ∧
        stepsTo N c t.currentChannelID + (if e.isScan then 1 else 0) ≤
          stepsTo N c s.currentChannelID) := by
  obtain ⟨hpos, -, hc⟩ := stepsTo_bounds hs hbusy
  cases e with
  | receives frame =>
    obtain rfl := Option.some.inj h
    obtain ⟨-, hon, hcur⟩ := RadioState.tuner_eq_iff.mp (RadioState.tuner_onMessage frame s)
    cases hlock : s.locksOn frame with
    | false =>
      rw [hlock, hscan] at hon
      rw [hcur]
      exact Or.inr ⟨hon, hpos, (add_zero _).le⟩
    | true =>
      rw [hlock, hscan] at hon
      refine Or.inl ⟨hon, ?_⟩
      rw [hcur]
      exact RadioState.showsBusy_of_locksOn hlock hs.tuned
  | loads data =>
    obtain rfl := Option.some.inj h
    have hkept : (s.loadInitialChannels data).isScanning = s.isScanning ∧
        (s.loadInitialChannels data).currentChannelID = s.currentChannelID := by
      unfold RadioState.loadInitialChannels
      split_ifs <;> exact ⟨rfl, rfl⟩
    rw [hkept.1, hkept.2]
    exact Or.inr ⟨hscan, hpos, (add_zero _).le⟩
  | acts act =>
    simp only [pageStep] at h
    split_ifs at h
    obtain rfl := Option.some.inj h
    obtain ⟨-, hon, hcur⟩ := RadioState.tuner_eq_iff.mp (tuner_acts he s)
    rw [hcur]
    exact Or.inr ⟨hon.trans hscan, hpos, (add_zero _).le⟩
  | toggleScanner => cases he
  | scans answer =>
    obtain rfl := Option.some.inj h
    rcases RadioState.scanStep_cases answer hscan he (found_nextChannelID hs) with
      ⟨htuner, hidle⟩ | ⟨c', htuner, hbusy'⟩
    · obtain ⟨-, hon, hcur⟩ := RadioState.tuner_eq_iff.mp htuner
      obtain ⟨-, hle⟩ := (hs.found_iff s.nextChannelID).mp (found_nextChannelID hs)
      have hN : (s.channels.length : ℤ) ≤ N := Int.ofNat_le.mpr hs.length_le
      rw [hcur]
      refine Or.inr ⟨hon, stepsTo_pos (le_trans hle hN) hc.1, ?_⟩
      refine stepsTo_next hN hc ((hs.found_iff _).mp hs.tuned) fun heq => ?_
      -- the next channel is not the busy one
      have heq : s.nextChannelID = c := heq
      rw [heq, hbusy] at hidle
      cases hidle
    · obtain ⟨hchannels, hoff, hcur⟩ := RadioState.tuner_eq_iff.mp htuner
      refine Or.inl ⟨hoff, ?_⟩
      rw [hcur, RadioState.showsBusy, RadioState.findChannel_of_channels hchannels]
      exact hbusy'

/-- The way that is left to `c` bounds the steps until the scanner locks. -/
theorem locks_of_near (hrun : Run pageStep s es t)
    (hguard : Guarded pageStep (fun u e => u.Surveys N ∧ u.showsBusy c = true ∧
      e.leavesScanner = true) s es)
    (hscan : s.isScanning = true) (hpos : 0 < stepsTo N c s.currentChannelID)
    (hnear : stepsTo N c s.currentChannelID ≤ es.countP PageEvent.isScan) :
    ∃ es₁ e es₂ u v, es = es₁ ++ e :: es₂ ∧ Run pageStep s es₁ u ∧ pageStep u e = some v ∧
      u.isScanning = true ∧ v.isScanning = false ∧ v.showsBusy v.currentChannelID = true := by
  induction hrun with
  | nil s =>
    rw [List.countP_nil] at hnear
    exact absurd (lt_of_lt_of_le hpos hnear) (lt_irrefl _)
  | @cons s v w e es hstep hrun ih =>
    obtain ⟨⟨hs, hbusy, he⟩, hguard⟩ := hguard v hstep
    rcases scanning_step hs hbusy he hscan hstep with ⟨hoff, htraffic⟩ | ⟨hon, hpos', hless⟩
    · exact ⟨[], e, es, s, v, rfl, Run.nil s, hstep, hscan, hoff, htraffic⟩
    · have hnear' : stepsTo N c v.currentChannelID ≤ es.countP PageEvent.isScan := by
        rw [List.countP_cons] at hnear
        split_ifs at hnear hless <;> omega
      obtain ⟨es₁, e', es₂, u, u', rfl, hrun₁, hlast⟩ := ih hguard hon hpos' hnear'
      exact ⟨e :: es₁, e', es₂, u, u', rfl, Run.cons hstep hrun₁, hlast⟩

/-- While some channel is busy, a scanner that is left alone locks onto one within as many steps
as there are channels, whatever messages come in between. -/
theorem scanner_locks (hrun : Run pageStep s es t)
    (hguard : Guarded pageStep (fun u e => u.Surveys N ∧ u.showsBusy c = true ∧
      e.leavesScanner = true) s es)
    (hscan : s.isScanning = true) (hpos : 0 < N) (hmany : N ≤ es.countP PageEvent.isScan) :
    ∃ es₁ e es₂ u v, es = es₁ ++ e :: es₂ ∧ Run pageStep s es₁ u ∧ pageStep u e = some v ∧
      u.isScanning = true ∧ v.isScanning = false ∧ v.showsBusy v.currentChannelID = true := by
  cases hrun with
  | nil s =>
    rw [List.countP_nil] at hmany
    exact absurd hpos hmany.not_gt
  | cons hstep hrun =>
    obtain ⟨hs, hbusy, -⟩ := (hguard _ hstep).1
    obtain ⟨hfar, hle, -⟩ := stepsTo_bounds hs hbusy
    exact locks_of_near (Run.cons hstep hrun) hguard hscan hfar
      (hle.trans (Int.ofNat_le.mpr hmany))

/-- A scanning page on the first of three channels, where the third is busy. -/
def scanningPage : RadioState where
  channels := [1, 2, 3].map fun id => {
    id := id, name := "", frequency := 446, ctcss := 100, color := "", latitude := 0,
    longitude := 0, coverageKm := 0, region := "", userCount := 0, isBusy := id == 3,
    isPrivate := false, currentSpeaker := "", users := [] }
  isScanning := true

/-- The second channel is keyed and released while the page passes it. -/
def passingBy : List PageEvent :=
  [.receives (.json (.channelActivity 2 true "UNIT-1") 0),
   .receives (.json (.channelActivity 2 false "") 0),
   .scans (some ""), .scans (some ""), .scans (some "")]

theorem scanner_locks_passingBy :
    ∃ es₁ e es₂ u v, passingBy = es₁ ++ e :: es₂ ∧ Run pageStep scanningPage es₁ u ∧
      pageStep u e = some v ∧ u.isScanning = true ∧ v.isScanning = false ∧
        v.showsBusy v.currentChannelID = true :=
  scanner_locks (N := 3) (c := 3) (run_get pageStep scanningPage passingBy (by decide +kernel))
    (by decide +kernel) rfl (by decide) (by decide)

end Scan

end TwoWayRadio

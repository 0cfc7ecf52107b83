import TwoWayRadio.Session

/-! What the page does about the floor within one session on one channel: the presses and releases
it sends, and what the statuses it is sent make of its key. -/
namespace TwoWayRadio

/-- A press of the button among the frames of the page, or a release. -/
def ClientFrame.keying : ClientFrame → Option Bool
  | text .pttDown => some true
  | text .pttUp => some false
  | _ => none

/-- The messages that ask for another channel. -/
def ClientFrame.switches : ClientFrame → Bool
  | text (.joinChannel _) | text (.createChannel _) => true
  | _ => false

namespace RadioState

/-- The presses and releases the hub has not read yet. -/
def keying (r : RadioState) : List Bool := r.uplink.filterMap ClientFrame.keying

/-- What does not change within a session on one channel, and what is not sent in it. -/
structure SameSession (r r' : RadioState) : Prop where
  wsOpen : r'.wsOpen = r.wsOpen
  pttMode : r'.pttMode = r.pttMode
  currentChannelID : r'.currentChannelID = r.currentChannelID
  sent : ∃ more, r'.uplink = r.uplink ++ more ∧ ∀ frame ∈ more, frame.switches = false

/-- What the user can do about the floor. -/
inductive Keying (r r' : RadioState) : Prop
  | same (hdown : r'.isPTTDown = r.isPTTDown) (htx : r'.isTransmitting = r.isTransmitting)
      (hsent : r'.keying = r.keying)
  | pressed (hup : r.isPTTDown = false) (hdown : r'.isPTTDown = true)
      (htx : r'.isTransmitting = false) (hsent : r'.keying = r.keying ++ [true])
  | released (hdown : r.isPTTDown = true) (hup : r'.isPTTDown = false)
      (htx : r'.isTransmitting = false) (hsent : r'.keying = r.keying ++ [false])

variable {r : RadioState} {c : ChannelID}

theorem keying_wsSend (hopen : r.wsOpen = true) (frames : List ClientFrame) :
    (r.wsSend frames).keying = r.keying ++ frames.filterMap ClientFrame.keying := by
  rw [wsSend, if_pos hopen]
  exact List.filterMap_append

theorem keying_binary (packets : List Bytes) :
    (packets.map ClientFrame.binary).filterMap ClientFrame.keying = [] := by
  refine List.filterMap_eq_nil_iff.mpr fun frame hframe => ?_
  obtain ⟨data, _, rfl⟩ := List.mem_map.mp hframe
  rfl

theorem keying_onEngine (hopen : r.wsOpen = true) (f : AudioEngine → List Bytes × AudioEngine) :
    (r.onEngine f).keying = r.keying := by
  rw [onEngine, keying_wsSend (by exact hopen), keying_binary, List.append_nil]
  rfl

theorem SameSession.of_eq {r r' : RadioState} (hopen : r'.wsOpen = r.wsOpen)
    (hmode : r'.pttMode = r.pttMode) (hch : r'.currentChannelID = r.currentChannelID)
    (hsent : r'.uplink = r.uplink) : SameSession r r' :=
  ⟨hopen, hmode, hch, [], by rw [hsent, List.append_nil], fun _ h => absurd h List.not_mem_nil⟩

theorem SameSession.refl (r : RadioState) : SameSession r r := .of_eq rfl rfl rfl rfl

theorem SameSession.mem_uplink {r r' : RadioState} (h : SameSession r r') {frame : ClientFrame}
    (hframe : frame ∈ r'.uplink) : frame ∈ r.uplink ∨ frame.switches = false := by
  obtain ⟨more, hmore, hplain⟩ := h.sent
  rw [hmore] at hframe
  exact (List.mem_append.mp hframe).imp id (hplain frame)

theorem SameSession.wsSend {r r' : RadioState} (h : SameSession r r') {frames : List ClientFrame}
    (hframes : ∀ frame ∈ frames, frame.switches = false) : SameSession r (r'.wsSend frames) := by
  refine ⟨(wsSend_wsOpen _ _).trans h.wsOpen, (wsSend_pttMode _ _).trans h.pttMode,
    (wsSend_currentChannelID _ _).trans h.currentChannelID, ?_⟩
  obtain ⟨more, hmore, hplain⟩ := h.sent
  unfold RadioState.wsSend
  split_ifs
  · refine ⟨more ++ frames, by rw [hmore, List.append_assoc], fun frame hframe => ?_⟩
    exact (List.mem_append.mp hframe).elim (hplain frame) (hframes frame)
  · exact ⟨more, hmore, hplain⟩

theorem SameSession.onEngine {r r' : RadioState} (h : SameSession r r')
    (f : AudioEngine → List Bytes × AudioEngine) : SameSession r (r'.onEngine f) := by
  have hsame : SameSession r { r' with engine := (f r'.engine).2 } :=
    ⟨h.wsOpen, h.pttMode, h.currentChannelID, h.sent⟩
  refine hsame.wsSend fun frame hframe => ?_
  obtain ⟨data, _, rfl⟩ := List.mem_map.mp hframe
  rfl

/-- A press or a release does not ask for another channel. -/
theorem switches_keying {msg : ClientSignal} (h : msg = .pttDown ∨ msg = .pttUp) :
    ∀ frame ∈ [ClientFrame.text msg], frame.switches = false := by
  intro frame hframe
  rw [List.mem_singleton.mp hframe]
  rcases h with rfl | rfl <;> rfl

theorem requestFloor_same (r : RadioState) : SameSession r r.requestFloor := by
  unfold requestFloor
  split_ifs
  · exact .refl r
  · have hsame : SameSession r { r with
        isScanning := false, isPTTDown := true,
        engine := r.engine.startPreBuffering r.currentChannelID } := .of_eq rfl rfl rfl rfl
    exact hsame.wsSend (switches_keying (Or.inl rfl))

theorem requestFloor_keying (hopen : r.wsOpen = true) : Keying r r.requestFloor := by
  unfold requestFloor
  split_ifs with hkeyed
  · exact .same rfl rfl rfl
  · rw [Bool.or_eq_true, not_or, Bool.not_eq_true, Bool.not_eq_true] at hkeyed
    exact .pressed hkeyed.1 (by simp) (by simp [hkeyed.2]) (keying_wsSend (by exact hopen) _)

theorem releaseFloor_unkeyed (hdown : r.isPTTDown = false) (htx : r.isTransmitting = false) :
    r.releaseFloor = r := by
  rw [releaseFloor, hdown, htx]
  rfl

theorem releaseFloor_same (r : RadioState) : SameSession r r.releaseFloor := by
  have hsent : ∀ r' : RadioState, SameSession r r' →
      SameSession r ((r'.onEngine AudioEngine.stopTransmission).wsSend [.text .pttUp]) :=
    fun r' hsame => (hsame.onEngine _).wsSend (switches_keying (Or.inr rfl))
  unfold releaseFloor
  dsimp only
  split_ifs
  · exact .refl r
  · exact hsent { r with isPTTDown := false, isTransmitting := false } (.of_eq rfl rfl rfl rfl)
  · exact hsent { r with isPTTDown := false } (.of_eq rfl rfl rfl rfl)

theorem releaseFloor_keying (hopen : r.wsOpen = true)
    (htx : r.isTransmitting = true → r.isPTTDown = true) : Keying r r.releaseFloor := by
  cases hdown : r.isPTTDown with
  | false =>
    -- with the button up the transmitter is off, and `releaseFloor` returns at its guard
    have hoff : r.isTransmitting = false := by
      by_contra hon
      rw [htx (Bool.eq_true_of_not_eq_false hon)] at hdown
      cases hdown
    rw [releaseFloor_unkeyed hdown hoff]
    exact .same rfl rfl rfl
  | true =>
    have hsent : ∀ r' : RadioState, r'.uplink = r.uplink → r'.wsOpen = r.wsOpen →
        ((r'.onEngine AudioEngine.stopTransmission).wsSend [.text .pttUp]).keying =
          r.keying ++ [false] := by
      intro r' huplink hws
      have hopen' : r'.wsOpen = true := hws.trans hopen
      rw [keying_wsSend (by simpa [onEngine] using hopen'), keying_onEngine hopen', keying, huplink]
      rfl
    unfold releaseFloor
    rw [if_neg (by simp [hdown])]
    dsimp only
    -- the engine may be off still, the message goes out in both cases
    split_ifs with hon
    · exact .released hdown (by simp [onEngine]) (by simp [onEngine])
        (hsent { r with isPTTDown := false, isTransmitting := false } rfl rfl)
    · exact .released hdown (by simp [onEngine]) (by simpa [onEngine] using hon)
        (hsent { r with isPTTDown := false } rfl rfl)

end RadioState

/-- A session on one channel in hold mode has none of these. -/
def RadioEvent.retunes : RadioEvent → Bool
  | changeChannel .. | setPttMode _ => true
  | _ => false

theorem radioEvent_same {r : RadioState} {e : RadioEvent} (hlocal : e.isLocal = true)
    (he : e.retunes = false) : r.SameSession (radioEvent r e) := by
  cases e with
  | press =>
    show r.SameSession r.pttPress
    unfold RadioState.pttPress
    split
    · split_ifs
      · exact r.releaseFloor_same
      · exact r.requestFloor_same
    · exact r.requestFloor_same
  | release =>
    show r.SameSession r.pttRelease
    unfold RadioState.pttRelease
    split_ifs
    · exact r.releaseFloor_same
    · exact .refl r
  | requestFloor => exact r.requestFloor_same
  | releaseFloor => exact r.releaseFloor_same
  | micBlock samples => exact (RadioState.SameSession.refl r).onEngine _
  | toggleScanner isScanning => exact .of_eq rfl rfl rfl rfl
  | videoCall isActive => exact .of_eq rfl rfl rfl rfl
  | channelList channels => exact .of_eq rfl rfl rfl rfl
  | setPttMode mode => cases he
  | changeChannel newID answer => cases he
  | floorStatus payload => cases hlocal
  | socket isOpen => cases hlocal

theorem radioEvent_keying {r : RadioState} {e : RadioEvent} (hlocal : e.isLocal = true)
    (he : e.retunes = false) (hopen : r.wsOpen = true) (hhold : r.pttMode = .hold)
    (htx : r.isTransmitting = true → r.isPTTDown = true) : r.Keying (radioEvent r e) := by
  cases e with
  | press =>
    show r.Keying r.pttPress
    rw [RadioState.pttPress, hhold]
    exact RadioState.requestFloor_keying hopen
  | release =>
    show r.Keying r.pttRelease
    unfold RadioState.pttRelease
    split_ifs
    · exact RadioState.releaseFloor_keying hopen htx
    · exact .same rfl rfl rfl
  | requestFloor => exact RadioState.requestFloor_keying hopen
  | releaseFloor => exact RadioState.releaseFloor_keying hopen htx
  | micBlock samples =>
    refine .same ?_ ?_ (RadioState.keying_onEngine hopen _) <;>
      simp [radioEvent, RadioState.onEngine]
  | toggleScanner isScanning => exact .same rfl rfl rfl
  | videoCall isActive => exact .same rfl rfl rfl
  | channelList channels => exact .same rfl rfl rfl
  | setPttMode mode => cases he
  | changeChannel newID answer => cases he
  | floorStatus payload => cases hlocal
  | socket isOpen => cases hlocal

namespace RadioState

/-- What a status, if any, makes of the key: a grant turns the transmitter on if the button is
down, a denial or a timeout takes the key, and all else leaves it. -/
inductive Hears (status : Option FloorStatus) (r r' : RadioState) : Prop
  | granted (hst : status = some .granted) (hdown : r.isPTTDown = true)
      (hdown' : r'.isPTTDown = true) (htx : r'.isTransmitting = true)
  | unkeyed (st : FloorStatus) (hst : status = some st) (hunkeys : st.unkeys = true)
      (hup : r'.isPTTDown = false) (htx : r'.isTransmitting = false)
  | same (hgranted : status = some .granted → r.isPTTDown = false)
      (hst : ∀ st, status = some st → st.unkeys = false)
      (hdown : r'.isPTTDown = r.isPTTDown) (htx : r'.isTransmitting = r.isTransmitting)

variable {r : RadioState}

theorem handleFloorStatus_same (p : FloorStatusPayload) (r : RadioState) :
    r.SameSession (r.handleFloorStatus p) := by
  unfold handleFloorStatus
  by_cases hp : p.channelID = r.currentChannelID
  · rw [if_neg (not_not.mpr hp)]
    cases p.status with
    | granted =>
      dsimp only
      split_ifs
      · exact r.releaseFloor_same
      · have hsame : SameSession r { r with isTransmitting := true } := .of_eq rfl rfl rfl rfl
        exact hsame.onEngine _
    | denied => exact .of_eq rfl rfl rfl rfl
    | busy => exact .of_eq rfl rfl rfl rfl
    | timeout =>
      have hsame : SameSession r { r with isTransmitting := false, isPTTDown := false } :=
        .of_eq rfl rfl rfl rfl
      exact hsame.onEngine _
    | idle => exact .of_eq rfl rfl rfl rfl
  · rw [if_pos hp]
    exact .refl r

theorem handleFloorStatus_hears {p : FloorStatusPayload} (hp : p.channelID = r.currentChannelID)
    (hopen : r.wsOpen = true) (hhold : r.pttMode = .hold)
    (htx : r.isTransmitting = true → r.isPTTDown = true) :
    (r.handleFloorStatus p).keying = r.keying ∧
      Hears (some p.status) r (r.handleFloorStatus p) := by
  unfold handleFloorStatus
  rw [if_neg (not_not.mpr hp)]
  cases hst : p.status with
  | granted =>
    dsimp only
    split_ifs with hup
    · have hoff : r.isTransmitting = false := by
        by_contra hon
        have hdown := htx (Bool.eq_true_of_not_eq_false hon)
        rw [hup.2] at hdown
        cases hdown
      -- `releaseFloor` returns at its guard, so nothing is sent
      rw [releaseFloor_unkeyed hup.2 hoff]
      exact ⟨rfl, .same (fun _ => hup.2) (fun _ h => by cases h; rfl) rfl rfl⟩
    · have hdown : r.isPTTDown = true := by
        by_contra hnot
        exact hup ⟨hhold, Bool.eq_false_of_not_eq_true hnot⟩
      refine ⟨?_, .granted rfl hdown (by simpa [onEngine] using hdown) (by simp [onEngine])⟩
      exact keying_onEngine (by exact hopen) _
  | denied => exact ⟨rfl, .unkeyed _ rfl rfl rfl rfl⟩
  | busy => exact ⟨rfl, .unkeyed _ rfl rfl rfl rfl⟩
  | timeout =>
    refine ⟨?_, .unkeyed _ rfl rfl (by simp [onEngine]) (by simp [onEngine])⟩
    exact keying_onEngine (by exact hopen) _
  | idle => exact ⟨rfl, .same (fun h => by cases h) (fun _ h => by cases h; rfl) rfl rfl⟩

/-- A message that says nothing about the floor of the channel. -/
theorem hears_none {r' : RadioState} (hdown : r'.isPTTDown = r.isPTTDown)
    (htx : r'.isTransmitting = r.isTransmitting) : Hears none r r' :=
  .same (fun h => by cases h) (fun _ h => by cases h) hdown htx

theorem onMessage_same (frame : Frame) (r : RadioState) : r.SameSession (r.onMessage frame) := by
  cases frame with
  | binary data => exact .refl r
  | json msg timestamp =>
    cases msg with
    | floorStatus p => exact handleFloorStatus_same p r
    | userTalking p =>
      show r.SameSession (r.handleUserTalking p)
      unfold handleUserTalking
      split_ifs <;> exact .of_eq rfl rfl rfl rfl
    | userStopped p =>
      show r.SameSession (r.handleUserStopped p)
      unfold handleUserStopped
      split_ifs <;> exact .of_eq rfl rfl rfl rfl
    | channelActivity ch isBusy speaker =>
      show r.SameSession (r.handleChannelActivity ch isBusy speaker)
      unfold handleChannelActivity
      dsimp only
      split_ifs <;> exact .of_eq rfl rfl rfl rfl
    | _ => exact .of_eq rfl rfl rfl rfl

theorem onMessage_hears (frame : Frame) (hopen : r.wsOpen = true) (hhold : r.pttMode = .hold)
    (htx : r.isTransmitting = true → r.isPTTDown = true) :
    (r.onMessage frame).keying = r.keying ∧
      Hears (frame.status r.currentChannelID) r (r.onMessage frame) := by
  have hnone : r.keying = r.keying ∧ Hears none r r := ⟨rfl, hears_none rfl rfl⟩
  cases frame with
  | binary data => exact hnone
  | json msg timestamp =>
    cases msg with
    | floorStatus p =>
      show (r.handleFloorStatus p).keying = r.keying ∧
        Hears (if p.channelID = r.currentChannelID then some p.status else none) r
          (r.handleFloorStatus p)
      by_cases hp : p.channelID = r.currentChannelID
      · rw [if_pos hp]
        exact handleFloorStatus_hears hp hopen hhold htx
      · rw [if_neg hp, handleFloorStatus, if_pos hp]
        exact hnone
    | userTalking p =>
      show (r.handleUserTalking p).keying = r.keying ∧ Hears none r (r.handleUserTalking p)
      unfold handleUserTalking
      split_ifs <;> exact ⟨rfl, hears_none rfl rfl⟩
    | userStopped p =>
      show (r.handleUserStopped p).keying = r.keying ∧ Hears none r (r.handleUserStopped p)
      unfold handleUserStopped
      split_ifs <;> exact ⟨rfl, hears_none rfl rfl⟩
    | channelActivity ch isBusy speaker =>
      show (r.handleChannelActivity ch isBusy speaker).keying = r.keying ∧
        Hears none r (r.handleChannelActivity ch isBusy speaker)
      unfold handleChannelActivity
      dsimp only
      split_ifs <;> exact ⟨rfl, hears_none rfl rfl⟩
    | _ => exact ⟨rfl, hears_none rfl rfl⟩

end RadioState

end TwoWayRadio

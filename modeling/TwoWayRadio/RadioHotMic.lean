import TwoWayRadio.RadioClient

/-! The transmit flags of `radio.js` against those of its audio engine. -/
namespace TwoWayRadio
open Transition

/-- User actions, microphone blocks, server messages and socket changes of one page. -/
inductive RadioEvent
  | press
  | release
  | requestFloor
  | releaseFloor
  | setPttMode (mode : PttMode)
  | changeChannel (newID : ChannelID) (answer : Option String)
  | toggleScanner (isScanning : Bool)
  | videoCall (isActive : Bool)
  | micBlock (samples : List Int16)
  | floorStatus (payload : FloorStatusPayload)
  | channelList (channels : List ChannelInfo)
  | socket (isOpen : Bool)
deriving DecidableEq

def radioEvent (s : RadioState) : RadioEvent → RadioState
  | .press => s.pttPress
  | .release => s.pttRelease
  | .requestFloor => s.requestFloor
  | .releaseFloor => s.releaseFloor
  | .setPttMode mode => { s with pttMode := mode }
  | .changeChannel newID answer => s.changeChannel newID answer
  | .toggleScanner isScanning => { s with isScanning := isScanning }
  | .videoCall isActive => { s with isVideoCallActive := isActive }
  | .micBlock samples => s.onEngine (AudioEngine.onAudioProcess samples)
  | .floorStatus payload => s.handleFloorStatus payload
  | .channelList channels => { s with channels := channels }
  | .socket isOpen => { s with wsOpen := isOpen }

def radioStep (s : RadioState) (e : RadioEvent) : Option RadioState := some (radioEvent s e)

/-- A page that has just been loaded. -/
def pageLoad (myCallsign : String) : RadioState where
  myCallsign := myCallsign

namespace RadioState

/-- The application holds no key: no button is down and no floor is held. -/
def Unkeyed (s : RadioState) : Prop := s.isPTTDown = false ∧ s.isTransmitting = false

/-- While the application is unkeyed the engine neither streams nor pre-buffers. -/
def NoHotMic (s : RadioState) : Prop := s.Unkeyed → s.engine.Silent

theorem requestFloor_keyed (s : RadioState) : ¬ s.requestFloor.Unkeyed := by
  unfold requestFloor Unkeyed
  split
  · rename_i h
    intro hu
    simp [hu.1, hu.2] at h
  · simp

/-- `releaseFloor` silences the engine unless the application was unkeyed already. -/
theorem releaseFloor_silent {s : RadioState} (h : ¬ s.Unkeyed) : s.releaseFloor.engine.Silent := by
  unfold releaseFloor
  rw [if_neg (by simpa [Unkeyed] using h)]
  dsimp only
  split <;> simpa [onEngine] using AudioEngine.stopTransmission_silent s.engine

theorem releaseFloor_noHotMic {s : RadioState} (h : s.NoHotMic) : s.releaseFloor.NoHotMic := by
  by_cases hu : s.Unkeyed
  · have he : s.releaseFloor = s := by
      unfold releaseFloor
      rw [if_pos (by simpa [Unkeyed] using hu)]
    rw [he]
    exact h
  · exact fun _ => releaseFloor_silent hu

theorem requestFloor_noHotMic (s : RadioState) : s.requestFloor.NoHotMic :=
  fun hu => absurd hu s.requestFloor_keyed

theorem changeChannel_noHotMic {s : RadioState} (newID : ChannelID) (answer : Option String)
    (h : s.NoHotMic) : (s.changeChannel newID answer).NoHotMic := by
  unfold changeChannel
  split
  · exact h
  · split
    · exact h
    · dsimp only
      have h1 : (if s.isTransmitting then s.releaseFloor else s).NoHotMic := by
        split
        · exact releaseFloor_noHotMic h
        · exact h
      generalize (if s.isTransmitting then s.releaseFloor else s) = t at h1 ⊢
      have h2 : (if t.isVideoCallActive then t.endVideoCall else t).NoHotMic := by
        split
        · simpa [NoHotMic, Unkeyed, endVideoCall] using h1
        · exact h1
      generalize (if t.isVideoCallActive then t.endVideoCall else t) = u at h2 ⊢
      simpa [NoHotMic, Unkeyed] using h2

end RadioState

/-- A denial or busy notice for the tuned channel arrives only while the engine is silent. -/
def NoLiveDenial (s : RadioState) (e : RadioEvent) : Prop :=
  ∀ p, e = .floorStatus p → p.channelID = s.currentChannelID →
    p.status = .denied ∨ p.status = .busy → s.engine.Silent

theorem handleFloorStatus_noHotMic_iff {s : RadioState} (p : FloorStatusPayload)
    (h : s.NoHotMic) :
    NoLiveDenial s (.floorStatus p) ↔ (s.handleFloorStatus p).NoHotMic := by
  unfold RadioState.handleFloorStatus
  by_cases hc : p.channelID = s.currentChannelID
  · rw [if_neg (not_not.mpr hc)]
    -- a denial or a busy notice takes the key and leaves the engine as it is
    have hdeny (hs : p.status = .denied ∨ p.status = .busy) :
        NoLiveDenial s (.floorStatus p) ↔
          RadioState.NoHotMic { s with isTransmitting := false, isPTTDown := false } := by
      constructor
      · exact fun hn _ => hn p rfl hc hs
      · rintro hm _ ⟨rfl⟩ _ _
        exact hm ⟨rfl, rfl⟩
    -- of the other statuses nothing is asked
    have hother (hs : ¬ (p.status = .denied ∨ p.status = .busy)) :
        NoLiveDenial s (.floorStatus p) := by
      rintro _ ⟨rfl⟩ _ hs'
      exact absurd hs' hs
    cases hstatus : p.status with
    | granted =>
      refine iff_of_true (hother (by simp [hstatus])) ?_
      dsimp only
      split
      · exact RadioState.releaseFloor_noHotMic h
      · intro hu
        have := hu.2
        simp [RadioState.onEngine] at this
    | denied => exact hdeny (Or.inl hstatus)
    | idle => exact iff_of_true (hother (by simp [hstatus])) h
    | timeout =>
      refine iff_of_true (hother (by simp [hstatus])) fun _ => ?_
      simpa [RadioState.onEngine] using AudioEngine.stopTransmission_silent s.engine
    | busy => exact hdeny (Or.inr hstatus)
  · rw [if_pos hc]
    refine iff_of_true ?_ h
    rintro _ ⟨rfl⟩ hc' _
    exact absurd hc' hc

theorem radioStep_noHotMic_iff (s : RadioState) (e : RadioEvent) (t : RadioState)
    (h : s.NoHotMic) (hstep : radioStep s e = some t) : NoLiveDenial s e ↔ t.NoHotMic := by
  obtain rfl : radioEvent s e = t := Option.some.inj hstep
  cases e with
  | floorStatus payload => exact handleFloorStatus_noHotMic_iff payload h
  | press =>
    refine iff_of_true nofun ?_
    simp only [radioEvent, RadioState.pttPress]
    split
    · split
      · exact RadioState.releaseFloor_noHotMic h
      · exact s.requestFloor_noHotMic
    · exact s.requestFloor_noHotMic
  | release =>
    refine iff_of_true nofun ?_
    simp only [radioEvent, RadioState.pttRelease]
    split
    · exact RadioState.releaseFloor_noHotMic h
    · exact h
  | requestFloor => exact iff_of_true nofun s.requestFloor_noHotMic
  | releaseFloor => exact iff_of_true nofun (RadioState.releaseFloor_noHotMic h)
  | changeChannel newID answer =>
    exact iff_of_true nofun (RadioState.changeChannel_noHotMic newID answer h)
  | micBlock samples =>
    refine iff_of_true nofun ?_
    obtain ⟨h1, h2⟩ := AudioEngine.onAudioProcess_flags samples s.engine
    simpa [radioEvent, RadioState.NoHotMic, RadioState.Unkeyed, RadioState.onEngine,
      AudioEngine.Silent, h1, h2] using h
  | setPttMode mode => exact iff_of_true nofun h
  | toggleScanner isScanning => exact iff_of_true nofun h
  | videoCall isActive => exact iff_of_true nofun h
  | channelList channels => exact iff_of_true nofun h
  | socket isOpen => exact iff_of_true nofun h

/-- Along any run of the page the engine is silent whenever the application is unkeyed,
exactly when no denial or busy notice for the tuned channel finds the engine live. -/
theorem no_hot_mic_iff (myCallsign : String) (es : List RadioEvent) :
    Always radioStep RadioState.NoHotMic (pageLoad myCallsign) es ↔
      Guarded radioStep NoLiveDenial (pageLoad myCallsign) es :=
  always_iff_guarded radioStep_noHotMic_iff (fun _ => ⟨rfl, rfl⟩)

/-- A granted transmission is preempted by a dispatcher. -/
def preemptedTalk : List RadioEvent :=
  [.socket true, .press, .floorStatus { channelID := 1, status := .granted },
    .floorStatus { channelID := 1, status := .denied, reason := "preempted_by_dispatcher" }]

/-- After the preemption the application is unkeyed and the engine still streams. -/
theorem no_hot_mic_fails :
    (∃ s, Run radioStep (pageLoad "ALPHA-1") preemptedTalk s ∧ s.Unkeyed ∧
      s.engine.isTransmitting = true) ∧
    ¬ Always radioStep RadioState.NoHotMic (pageLoad "ALPHA-1") preemptedTalk := by
  have hrun : ∃ s, Run radioStep (pageLoad "ALPHA-1") preemptedTalk s ∧ s.Unkeyed ∧
      s.engine.isTransmitting = true :=
    ⟨_, (run_iff_foldlM _ _ _).mpr rfl, ⟨rfl, rfl⟩, rfl⟩
  refine ⟨hrun, fun ha => ?_⟩
  obtain ⟨s, r, hu, ht⟩ := hrun
  have hq := always_iff.mp ha preemptedTalk [] s (List.append_nil _).symm r hu
  rw [hq.1] at ht
  cases ht

end TwoWayRadio

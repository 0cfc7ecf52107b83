import TwoWayRadio.HubRequests
import TwoWayRadio.OwnChannel

/-! The video slot of a channel: who can clear it, and who can take it over. -/
namespace TwoWayRadio
open Interleaving Transition

namespace HubOp

variable {op : HubOp} {h : Hub} {c : ChannelID}

/-- What a call can do to the entry of a channel. -/
inductive VideoCall (h h' : Hub) (c : ChannelID) : HubOp → Prop
  | deleted (hgone : h'.activeVideoByChannel c = none) : VideoCall h h' c (deleteVideo c)
  | ended (x : ClientRef) (hcur : (h.heap x).currentChannelID = c)
      (hown : ∀ v, h.activeVideoByChannel c = some v → v.senderID = (h.heap x).id)
      (hgone : h'.activeVideoByChannel c = none) : VideoCall h h' c (endVideo x)
  | started (x : ClientRef) (p : VideoSignalingPayload) (hcur : (h.heap x).currentChannelID = c)
      (hnew : h'.activeVideoByChannel c = some p) : VideoCall h h' c (startVideo x p)

/-- Every other call leaves every entry as it is. -/
theorem videoCall (hop : (op.run h).2.activeVideoByChannel c ≠ h.activeVideoByChannel c) :
    VideoCall h (op.run h).2 c op := by
  have hchannel {α : Type} {ch : ChannelID} {absent : α} {f : Channel → α × Channel} :
      (h.onChannel ch absent f).2.activeVideoByChannel = h.activeVideoByChannel :=
    Hub.onChannel_part (fun _ _ => rfl) ..
  have hrecorder {α : Type} {absent : α} {f : AudioRecorder → α × AudioRecorder} :
      (h.onRecorder absent f).2.activeVideoByChannel = h.activeVideoByChannel :=
    Hub.onRecorder_part (fun _ _ => rfl) ..
  cases op with
  | deleteVideo ch =>
    by_cases hc : c = ch
    · subst hc
      exact .deleted (Function.update_self ..)
    · exact absurd (Function.update_of_ne hc ..) hop
  | startVideo x p =>
    by_cases hc : c = (h.heap x).currentChannelID
    · subst hc
      exact .started x p rfl (Function.update_self ..)
    · exact absurd (Function.update_of_ne hc ..) hop
  | endVideo x =>
    simp only [run] at hop ⊢
    split_ifs at hop ⊢ with hown
    · by_cases hc : c = (h.heap x).currentChannelID
      · -- the test that lets it delete says whose video it is
        subst hc
        refine .ended x rfl (fun v hv => ?_) (Function.update_self ..)
        rw [hv] at hown
        simpa using hown
      · exact absurd (Function.update_of_ne hc ..) hop
    · exact absurd rfl hop
  | register x first =>
    refine absurd ?_ hop
    show (h.register x first).2.activeVideoByChannel c = _
    rw [Hub.register_eq]
  | addSubscriber ch x => exact absurd (congrFun hchannel c) hop
  | removeSubscriber ch x => exact absurd (congrFun hchannel c) hop
  | requestFloor ch x => exact absurd (congrFun hchannel c) hop
  | releaseFloor ch x => exact absurd (congrFun hchannel c) hop
  | handleTOT ch timer => exact absurd (congrFun hchannel c) hop
  | onTransmissionStart ch x => exact absurd (congrFun hrecorder c) hop
  | appendAudio ch payload => exact absurd (congrFun hrecorder c) hop
  | onTransmissionEnd ch => exact absurd (congrFun hrecorder c) hop
  | _ => exact absurd rfl hop

end HubOp

/-- The requests by which a client ends its own video. -/
def Request.endsVideo : Request → Bool
  | signal _ .videoCallEnd _ => true
  | r => r.departs

def Request.startsVideo : Request → Bool
  | signal _ (.videoCallStart _) _ => true
  | _ => false

/-- A step makes the entry of a channel disappear only on behalf of its sender, who is tuned to
the channel and ends its video, switches away or disconnects, and replaces it only by that of a
later start on the channel. -/
def VideoKept (s : Server (Thread → Option Request)) (e : ServerEvent) : Prop :=
  ∀ t c v, serverStep servedObserver s e = some t → s.hub.activeVideoByChannel c = some v →
    t.hub.activeVideoByChannel c ≠ some v →
    ∃ x r, e = .advance (.client x) ∧ s.history (.client x) = some r ∧
      (s.hub.heap x).currentChannelID = c ∧
      ((r.endsVideo = true ∧ (s.hub.heap x).id = v.senderID ∧
          t.hub.activeVideoByChannel c = none) ∨
        (r.startsVideo = true ∧ ∃ w, t.hub.activeVideoByChannel c = some w))

/-- The entry that a leaving client deletes, if there is one, is its own. -/
def DeletesOwn (s : Server (Thread → Option Request)) (e : ServerEvent) : Prop :=
  ∀ x c k v, e = .advance (.client x) → s.pool.task (.client x) = .call (.deleteVideo c) k →
    s.hub.activeVideoByChannel c = some v → v.senderID = (s.hub.heap x).id

section Kept

variable {s t : Server (Thread → Option Request)} {e : ServerEvent} {c : ChannelID}
  {v : VideoSignalingPayload}

/-- Only a handler's call changes an entry. -/
theorem serverStep_video {γ : Type} {o : Observer γ} {s t : Server γ} {e : ServerEvent}
    (h : serverStep o s e = some t)
    (hc : t.hub.activeVideoByChannel c ≠ s.hub.activeVideoByChannel c) :
    ∃ i op k, e = .advance i ∧ s.pool.task i = .call op k ∧ t.hub = (op.run s.hub).2 ∧
      HubOp.VideoCall s.hub t.hub c op := by
  rcases serverStep_part (f := Hub.activeVideoByChannel) (fun _ _ _ => rfl) h with
    hsame | ⟨i, op, k, he, hk, hhub⟩
  · exact absurd (congrFun hsame c) hc
  · rw [hhub] at hc ⊢
    exact ⟨i, op, k, he, hk, rfl, HubOp.videoCall hc⟩

theorem client_of_endsVideo {r : Request} (hr : r.endsVideo = true) :
    ∃ x, r.thread = .client x := by
  cases r <;> first | exact ⟨_, rfl⟩ | cases hr

theorem endsVideo_of_departs {r : Request} (hr : r.departs = true) : r.endsVideo = true := by
  cases r with
  | signal x msg choices => cases msg <;> first | rfl | cases hr
  | disconnect x => rfl
  | _ => cases hr

theorem VideoKept.deletesOwn (hkept : VideoKept s e) : DeletesOwn s e := by
  rintro x c k v rfl hk hv
  obtain ⟨t, hstep⟩ := serverStep_enabled (o := servedObserver) hk
  obtain ⟨op, k', hk', _, hhub, _⟩ := serverStep_advance hstep
  rw [hk] at hk'
  obtain ⟨rfl, _⟩ := Prog.call.inj hk'
  have hgone : ((HubOp.deleteVideo c).run s.hub).2.activeVideoByChannel c = none :=
    Function.update_self ..
  rw [← hhub] at hgone
  -- the deletion leaves no entry, so it must have been the end of the entry by its own sender
  obtain ⟨y, r, he, _, _, ⟨_, hid, _⟩ | ⟨_, w, hw⟩⟩ :=
    hkept t c v hstep hv (by rw [hgone]; exact (Option.some_ne_none v).symm)
  · obtain rfl : x = y := Thread.client.inj (ServerEvent.advance.inj he)
    exact hid.symm
  · rw [hgone] at hw
    cases hw

/-- A step of a run keeps every entry as it should if and only if it deletes nobody else's. -/
theorem videoKept_iff (hs : Serving s ∧ KeepsToChannels s) :
    VideoKept s e ↔ DeletesOwn s e := by
  obtain ⟨hserving, hkeeps⟩ := hs
  constructor
  · exact VideoKept.deletesOwn
  · intro hown t c v h hv hne
    obtain ⟨i, op, k, rfl, hk, hhub, hcall⟩ := serverStep_video h (by rw [hv]; exact hne)
    obtain ⟨r, hr, hthread, hserved⟩ := hserving.request hk
    -- only handlers of clients change the slots
    have hclient : ∃ x, i = .client x := by
      cases hcall with
      | deleted _ => exact hthread ▸ client_of_endsVideo (endsVideo_of_departs hserved)
      | ended x _ _ _ => cases r <;> first | exact ⟨_, hthread.symm⟩ | cases hserved
      | started x p _ _ => cases r <;> first | exact ⟨_, hthread.symm⟩ | cases hserved
    obtain ⟨x, rfl⟩ := hclient
    have hkeep := hkeeps.keepsTo hk
    refine ⟨x, r, rfl, hr, ?_⟩
    cases hcall with
    | deleted hgone =>
      exact ⟨(List.mem_singleton.mp hkeep).symm, Or.inl ⟨endsVideo_of_departs hserved,
        (hown x c k v rfl hk hv).symm, hgone⟩⟩
    | ended y hcur hsender hgone =>
      obtain rfl : y = x := hkeep
      refine ⟨hcur, Or.inl ⟨?_, (hsender v hv).symm, hgone⟩⟩
      cases r with
      | signal z msg choices => cases msg <;> first | rfl | cases hserved
      | _ => cases hserved
    | started y p hcur hnew =>
      obtain rfl : y = x := hkeep
      refine ⟨hcur, Or.inr ⟨?_, p, hnew⟩⟩
      cases r with
      | signal z msg choices => cases msg <;> first | rfl | cases hserved
      | _ => cases hserved

end Kept

/-- Along any run, no entry is lost if and only if no leaving client deletes another's: one that
was started between its look at the slot and its delete. -/
theorem video_kept_iff (cfg : Config) (recorder : Option AudioRecorder) (roipRelay : Bool)
    (heap : Clients) (now : ℤ) (es : List ServerEvent) :
    Guarded (serverStep servedObserver) VideoKept
        (Server.init (newHub cfg recorder roipRelay heap now) fun _ => none) es ↔
      Guarded (serverStep servedObserver) DeletesOwn
        (Server.init (newHub cfg recorder roipRelay heap now) fun _ => none) es := by
  refine guarded_iff es (I := fun s => Serving s ∧ KeepsToChannels s) ?_ ?_ ?_
  · exact fun s e t hs _ h => ⟨hs.1.step h, hs.2.step h⟩
  · exact fun s e hs => videoKept_iff hs
  · exact ⟨Serving.init _, KeepsToChannels.init _ _⟩

/-- Unit 0 shows its video on channel 1, and its handler of `leaving` has looked at the entry when
unit 1 starts a video there. -/
def startInBetween (leaving : Request) (calls : ℕ) : List ServerEvent :=
  uninterrupted (.connect 0 0) 10 ++ uninterrupted (.connect 1 0) 10 ++
    uninterrupted (.signal 0 (.videoCallStart ⟨{ channelID := 1 }, true⟩) {}) 3 ++
    uninterrupted leaving calls ++
    uninterrupted (.signal 1 (.videoCallStart ⟨{ channelID := 1 }, true⟩) {}) 3

/-- The next call of unit 0, which disconnects or goes to channel 2, removes the video of unit 1. -/
theorem video_kept_fails :
    (∃ s, Run (serverStep servedObserver)
        (Server.init (newHub defaultConfig none false sampleClients 0) fun _ => none)
        (startInBetween (.disconnect 0) 7) s ∧ ¬ VideoKept s (.advance (.client 0))) ∧
    ∃ s, Run (serverStep servedObserver)
        (Server.init (newHub defaultConfig none false sampleClients 0) fun _ => none)
        (startInBetween (.signal 0 (.joinChannel ⟨{ channelID := 2 }, true⟩) {}) 8) s ∧
      ¬ VideoKept s (.advance (.client 0)) := by
  refine ⟨⟨_, run_get _ _ _ (by decide +kernel), fun h => ?_⟩,
    ⟨_, run_get _ _ _ (by decide +kernel), fun h => ?_⟩⟩
  · exact absurd (h.deletesOwn 0 1 _ _ rfl rfl rfl) (by decide +kernel)
  · exact absurd (h.deletesOwn 0 1 _ _ rfl rfl rfl) (by decide +kernel)

end TwoWayRadio

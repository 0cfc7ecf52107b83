import TwoWayRadio.FloorHistory

/-! Half-duplex audio: which packets can reach the subscribers of a channel whose floor is held. -/
namespace TwoWayRadio
open Interleaving Transition

/-- The sender of the packet that a call dispatches to the subscribers of channel `c`, which is
`none` for a packet from outside. -/
def HubOp.dispatches (c : ChannelID) : HubOp → Option (Option ClientRef)
  | broadcastAudio ch sender _ => if ch = c then some sender else none
  | allCallAudio sender _ => some (some sender)
  | _ => none

/-- Only the holder's packets are dispatched on a held channel. -/
def Exclusive {γ : Type} (s : Server γ) : Prop :=
  ∀ i op k c holder sender, s.pool.task i = .call op k → s.hub.holder c = some holder →
    op.dispatches c = some sender → sender = some holder

/-- The handler of thread `i`, which has a packet of `x` to dispatch, has checked in this very
handler that `x` has the floor of `c`, and `x` had it in the epoch of that check. -/
structure FloorHistory.Passed (f : FloorHistory) (i : Thread) (c : ChannelID) (x : ClientRef) :
    Prop where
  thread : i = .client x
  stance : f.stance i = .dispatching c x
  held : f.holderAt c (f.since i) = some x

/-- The ways a packet can be dispatched on channel `c` while `holder` has its floor. A handler's
`since` is the epoch in which its packet passed the floor check. -/
inductive HeldRoute (s : Server FloorHistory) (i : Thread) (c : ChannelID) (holder : ClientRef) :
    HubOp → Prop
  | own (data : Bytes) (hi : i = .client holder) :
      HeldRoute s i c holder (.broadcastAudio c (some holder) data)
  | late (x : ClientRef) (data : Bytes) (hpassed : s.history.Passed i c x)
      (hchanged : s.history.since i < s.history.epoch c) :
      HeldRoute s i c holder (.broadcastAudio c (some x) data)
  | allCall (x : ClientRef) (data : Bytes) (packet : AudioPacket)
      (hparse : parseAudioHeaderQuick data = .ok packet)
      (hflag : packet.flags &&& flagAudioAllCall ≠ 0)
      (hpassed : s.history.Passed i packet.channelID.toNat x)
      (hfloor : s.hub.holder packet.channelID.toNat = some x ∨
        s.history.since i < s.history.epoch packet.channelID.toNat) :
      HeldRoute s i c holder (.allCallAudio x data)
  | roip (data : Bytes) (hi : i = .roip) : HeldRoute s i c holder (.broadcastAudio c none data)

theorem heldRoute_of_sound {s : Server FloorHistory} {i : Thread} {op : HubOp}
    {k : op.Res → HubProg Unit} {c : ChannelID} {holder : ClientRef} {sender : Option ClientRef}
    (hs : FloorHistory.Sound (fun _ _ => True) s.hub s.pool.task s.history)
    (htask : s.pool.task i = .call op k) (hc : s.hub.holder c = some holder)
    (hop : op.dispatches c = some sender) : HeldRoute s i c holder op := by
  have hfollows := hs.follows i
  rw [htask] at hfollows
  obtain ⟨hok, _⟩ := hfollows
  -- what a handler has seen of a floor is true unless the floor has changed since it looked
  have hknows : ∀ {c' : ChannelID} {x : ClientRef}, i = .client x →
      s.history.stance i = .dispatching c' x → s.history.Passed i c' x ∧
        (s.hub.holder c' = some x ∨ s.history.since i < s.history.epoch c') := by
    intro c' x hi hst
    have hch : (s.history.stance i).channel = some c' := by rw [hst]; rfl
    have hb := hs.believes i c' hch
    rw [hst] at hb
    refine ⟨⟨hi, hst, hb⟩, ?_⟩
    rcases Nat.lt_or_eq_of_le (hs.since_le i c' hch) with hlt | heq
    · exact Or.inr hlt
    · have hnow : s.history.holderAt c' (s.history.since i) = some x := hb
      rw [heq, hs.current] at hnow
      exact Or.inl hnow
  rcases hok with hback | hexp
  · cases op <;> first | exact absurd hback Bool.false_ne_true | cases hop
  · -- a packet is dispatched by the handler that has checked it, or straight from the RoIP socket
    cases op with
    | broadcastAudio ch sender' data =>
      have hcc : ch = c := by
        by_contra hne
        simp [HubOp.dispatches, hne] at hop
      subst hcc
      cases hst : s.history.stance i with
      | fresh =>
        rw [hst] at hexp
        obtain ⟨hi, rfl⟩ := hexp
        exact .roip data hi
      | dispatching c' x =>
        rw [hst] at hexp
        obtain ⟨hi, rfl, rfl⟩ := hexp
        obtain ⟨hpassed, hown | hlate⟩ := hknows hi hst
        · rw [hc] at hown
          obtain rfl := Option.some.inj hown
          exact .own data hi
        · exact .late x data hpassed hlate
      | _ => rw [hst] at hexp; exact hexp.elim
    | allCallAudio x' data =>
      cases hst : s.history.stance i with
      | dispatching c' x =>
        rw [hst] at hexp
        obtain ⟨hi, rfl, packet, hparse, rfl, hflag⟩ := hexp
        obtain ⟨hpassed, hfloor⟩ := hknows hi hst
        exact .allCall x' data packet hparse hflag hpassed hfloor
      | fresh => rw [hst] at hexp; exact absurd hexp Bool.false_ne_true
      | _ => rw [hst] at hexp; exact hexp.elim
    | _ => cases hop

/-- A packet dispatched on a held channel is the holder's, or was checked when its sender held
the floor, or is an All-Call of a floor holder, or comes from a RoIP peer. -/
theorem half_duplex (cfg : Config) (recorder : Option AudioRecorder) (roipRelay : Bool)
    (heap : Clients) (now : ℤ) {es : List ServerEvent} {s : Server FloorHistory}
    (hrun : Run (serverStep floorObserver)
      (Server.init (newHub cfg recorder roipRelay heap now) FloorHistory.init) es s)
    {i : Thread} {op : HubOp} {k : op.Res → HubProg Unit} {c : ChannelID} {holder : ClientRef}
    {sender : Option ClientRef} (htask : s.pool.task i = .call op k)
    (hc : s.hub.holder c = some holder) (hop : op.dispatches c = some sender) :
    HeldRoute s i c holder op := by
  have hinv := hrun.invariant
    (I := fun s => FloorHistory.Sound (fun _ _ => True) s.hub s.pool.task s.history)
    (fun s e t hs h => FloorHistory.sound_step floorObserver_tracks (fun _ => trivial) hs h)
    (FloorHistory.sound_init _ cfg recorder roipRelay heap now)
  exact heldRoute_of_sound hinv htask hc hop

/-- Units 0 and 1 hold the floors of channels 1 and 2. -/
def twoHolders : List ServerEvent :=
  uninterrupted (.connect 0 0) 10 ++ uninterrupted (.connect 1 0) 10 ++
    uninterrupted (.signal 1 (.joinChannel ⟨{ channelID := 2 }, true⟩) {}) 17 ++
    uninterrupted (.signal 1 .pttDown {}) 8 ++ uninterrupted (.signal 0 .pttDown {}) 8

/-- Unit 0 sends an All-Call packet on channel 1, which is about to go out on channel 2 too. -/
def allCallRun : List ServerEvent :=
  twoHolders ++ uninterrupted (.audio 0 (encodeAudioPacket 1 flagAudioAllCall 0 [])) 4

/-- A RoIP peer sends a packet for channel 1. -/
def roipRun : List ServerEvent :=
  twoHolders ++ uninterrupted (.datagram (encodeAudioPacket 1 flagAudioFirst 0 [])) 1

/-- Unit 1 preempts unit 0 after the floor check of a packet of unit 0. -/
def lateRun : List ServerEvent :=
  uninterrupted (.connect 0 0) 10 ++ uninterrupted (.connect 1 0) 10 ++
    uninterrupted (.signal 0 .pttDown {}) 8 ++
    uninterrupted (.audio 0 (encodeAudioPacket 1 flagAudioFirst 0 [])) 4 ++
    uninterrupted (.signal 1 .pttDown {}) 2

/-- An All-Call packet, a RoIP packet and a packet overtaken by a preemption, each about to be
dispatched on a channel that another client holds. -/
theorem half_duplex_fails :
    (∃ s, Run (serverStep floorObserver)
        (Server.init (newHub defaultConfig none false sampleClients 0) FloorHistory.init)
        allCallRun s ∧ ¬ Exclusive s) ∧
    (∃ s, Run (serverStep floorObserver)
        (Server.init (newHub defaultConfig none false sampleClients 0) FloorHistory.init)
        roipRun s ∧ ¬ Exclusive s) ∧
    ∃ s, Run (serverStep floorObserver)
        (Server.init (newHub defaultConfig none false sampleClients 0) FloorHistory.init)
        lateRun s ∧ ¬ Exclusive s := by
  refine ⟨⟨_, run_get _ _ _ (by decide), fun h => ?_⟩,
    ⟨_, run_get _ _ _ (by decide), fun h => ?_⟩, ⟨_, run_get _ _ _ (by decide), fun h => ?_⟩⟩
  · have hsender := h (.client 0) (.allCallAudio 0 (encodeAudioPacket 1 flagAudioAllCall 0 [])) _
      2 1 (some 0) rfl rfl rfl
    exact absurd hsender (by decide)
  · have hsender := h .roip (.broadcastAudio 1 none (encodeAudioPacket 1 flagAudioFirst 0 [])) _
      1 0 none rfl rfl rfl
    exact absurd hsender (by decide)
  · have hsender := h (.client 0)
      (.broadcastAudio 1 (some 0) (encodeAudioPacket 1 flagAudioFirst 0 [])) _ 1 1 (some 0)
      rfl rfl rfl
    exact absurd hsender (by decide)

theorem half_duplex_allCall :
    ∃ s, Run (serverStep floorObserver)
        (Server.init (newHub defaultConfig none false sampleClients 0) FloorHistory.init)
        allCallRun s ∧ s.hub.holder 2 = some 1 ∧
      HeldRoute s (.client 0) 2 1
        (.allCallAudio 0 (encodeAudioPacket 1 flagAudioAllCall 0 [])) := by
  have hrun := run_get (serverStep floorObserver)
    (Server.init (newHub defaultConfig none false sampleClients 0) FloorHistory.init) allCallRun
    (by decide)
  refine ⟨_, hrun, rfl, ?_⟩
  exact half_duplex defaultConfig none false sampleClients 0 hrun (k := _)
    rfl rfl rfl

end TwoWayRadio

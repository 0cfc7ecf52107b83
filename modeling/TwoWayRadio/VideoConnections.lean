import TwoWayRadio.RadioVideo
import TwoWayRadio.Runs

/-! Which connection the answers and candidates of a video call are applied to. -/
namespace TwoWayRadio
open Transition

/-- The answer is the target's, to the offer of this connection of `me`. -/
def Description.ForConnection (me : String) (pc : RTCPeerConnection) (answer : Description) :
    Prop :=
  answer.source.client = pc.target ∧ answer = .answer answer.source ⟨me, pc.inst⟩

/-- The candidate is the target's, gathered for this connection of `me`: by one that had its
description or, before there was any, by one whose offer this connection has taken. -/
def IceCandidate.ForConnection (me : String) (pc : RTCPeerConnection) (c : IceCandidate) : Prop :=
  c.source.client = pc.target ∧
    match c.remote with
    | some r => r = ⟨me, pc.inst⟩
    | none => pc.remoteDescription = some (.offer c.source)

def RTCCall.Proper (me : String) : RTCCall → Prop
  | .setRemoteAnswer pc answer => answer.ForConnection me pc
  | .addIceCandidate pc c => c.ForConnection me pc

/-- Every answer and every candidate so far was applied to the connection that it is for. -/
def OwnConnections (s : VideoClient) : Prop := ∀ call ∈ s.calls, call.Proper s.myClientID

namespace VideoClient

/-- The next candidate of the queue, if `pc` can take candidates, was gathered for it. -/
def QueueFor (pc : Option RTCPeerConnection) (s : VideoClient) : Prop :=
  ∀ p c rest, pc = some p → s.pendingIceCandidates = c :: rest → p.remoteDescription ≠ none →
    c.ForConnection s.myClientID p

/-- The connection with which the queue is emptied, where a resolved operation leads to that. -/
def flushedOn (s : VideoClient) : Await → Option RTCPeerConnection
  | .setRemoteOffer _ senderID offered =>
    s.peerConnection.map (RTCPeerConnection.describe .haveRemoteOffer (.offer ⟨senderID, offered⟩))
  | .setRemoteAnswer _ answer => s.peerConnection.map (RTCPeerConnection.describe .stable answer)
  | .addQueuedCandidate .. => s.peerConnection
  | _ => none

end VideoClient

/-- No stray message meets a connection: neither an answer one that waits for an answer, nor a
candidate, on arrival or from the queue, one that has a remote description. -/
def NoStrays (s : VideoClient) : VideoEvent → Prop
  | .receive payload =>
    match payload.message with
    | .answer _ inst offered => ∀ pc, s.peerConnection = some pc →
      pc.signalingState = .haveLocalOffer →
      (Description.answer ⟨payload.senderID, inst⟩ offered).ForConnection s.myClientID pc
    | .ice _ inst remote => ∀ pc, s.peerConnection = some pc → pc.remoteDescription ≠ none →
      IceCandidate.ForConnection s.myClientID pc ⟨⟨payload.senderID, inst⟩, remote⟩
    | _ => True
  | .resolve n _ => ∀ operation, s.awaiting[n]? = some operation →
    s.Resolvable operation = true → s.QueueFor (s.flushedOn operation)
  | .reject n => ∀ inst offerer, s.awaiting[n]? = some (.addQueuedCandidate inst offerer) →
    s.QueueFor s.peerConnection
  | _ => True

def VideoEvent.startsAnew : VideoEvent → Bool
  | receive _ | resolve .. | reject _ => false
  | _ => true

namespace VideoClient

variable {s t : VideoClient}

/-- Who the client is, as the hub has told it. -/
def identity (s : VideoClient) : String × String := (s.myClientID, s.myCallsign)

/-- What a step of the client applies to connections. -/
structure Applies (s t : VideoClient) (calls : List RTCCall) : Prop where
  calls : t.calls = s.calls ++ calls
  me : t.identity = s.identity

theorem Applies.refl : s.Applies s [] := ⟨(List.append_nil _).symm, rfl⟩

theorem Applies.silent (hcalls : t.calls = s.calls) (hme : t.identity = s.identity) :
    s.Applies t [] :=
  ⟨by rw [hcalls, List.append_nil], hme⟩

theorem Applies.then {u : VideoClient} {calls : List RTCCall} (h : s.Applies t [])
    (h' : t.Applies u calls) : s.Applies u calls :=
  ⟨by rw [h'.calls, h.calls, List.append_nil], h'.me.trans h.me⟩

theorem Applies.ite {c : Prop} [Decidable c] {u : VideoClient} {calls : List RTCCall}
    (ht : s.Applies t calls) (hu : s.Applies u calls) :
    s.Applies (if c then t else u) calls := by
  split
  · exact ht
  · exact hu

theorem applies_onConnection {f : RTCPeerConnection → VideoClient}
    (hf : ∀ pc, s.peerConnection = some pc → s.Applies (f pc) []) :
    s.Applies (s.onConnection f) [] := by
  unfold onConnection
  split
  · exact .refl
  · rename_i pc hpc
    exact hf pc hpc

theorem applies_setupPeerConnection (targetID : String) (isInitiator : Bool) (s : VideoClient) :
    s.Applies (s.setupPeerConnection targetID isInitiator) [] := by
  unfold setupPeerConnection
  cases isInitiator with
  | true => exact .silent rfl rfl
  | false => exact .silent rfl rfl

theorem applies_afterSwitch (change : StreamChange) (s : VideoClient) :
    s.Applies (s.afterSwitch change) [] := by
  cases change <;> exact .silent rfl rfl

theorem applies_switchStream (change : StreamChange) (s : VideoClient) :
    s.Applies (s.switchStream change) [] := by
  unfold switchStream
  split
  · exact applies_afterSwitch change s
  · exact .silent rfl rfl

theorem applies_renegotiate (change : StreamChange) (s : VideoClient) :
    s.Applies (s.renegotiate change) [] := by
  unfold renegotiate
  split
  · exact applies_afterSwitch change s
  · split_ifs
    · exact .silent rfl rfl
    · exact applies_afterSwitch change s

theorem applies_applyOffer (senderID : String) (offered : ℕ) (s : VideoClient) :
    s.Applies (s.applyOffer senderID offered) [] :=
  applies_onConnection fun _ _ => .silent rfl rfl

theorem applies_endVideoCall (s : VideoClient) : s.Applies s.endVideoCall [] := by
  unfold endVideoCall
  split_ifs
  · exact .silent rfl rfl
  · exact .refl

theorem applies_handleVideoCallStart (payload : VideoPacket) (s : VideoClient) :
    s.Applies (s.handleVideoCallStart payload) [] := by
  unfold handleVideoCallStart
  exact .ite .refl (.ite (applies_setupPeerConnection ..) .refl)

theorem applies_handleVideoJoin (payload : VideoPacket) (requestedTarget : String)
    (s : VideoClient) : s.Applies (s.handleVideoJoin payload requestedTarget) [] := by
  unfold handleVideoJoin
  exact .ite .refl (.ite .refl (.ite .refl (.ite .refl (applies_setupPeerConnection ..))))

theorem applies_handleVideoCallEnd (payload : VideoPacket) (s : VideoClient) :
    s.Applies (s.handleVideoCallEnd payload) [] := by
  unfold handleVideoCallEnd
  split_ifs <;> exact .silent rfl rfl

theorem applies_handleVideoOffer (payload : VideoPacket) (offered : ℕ) (s : VideoClient) :
    s.Applies (s.handleVideoOffer payload offered) [] := by
  have hactive : s.Applies { s with isVideoCallActive := true } [] := .silent rfl rfl
  have hsetup : s.Applies (({ s with isVideoCallActive := true }.setupPeerConnection
      payload.senderID false).applyOffer payload.senderID offered) [] :=
    hactive.then ((applies_setupPeerConnection ..).then (applies_applyOffer ..))
  unfold handleVideoOffer
  refine .ite .refl ?_
  dsimp only
  split
  · exact hsetup
  · exact .ite (.ite hactive (.silent rfl rfl)) (.ite hsetup (hactive.then (applies_applyOffer ..)))

theorem applies_handleVideoAnswer (answer : Description) (s : VideoClient) :
    s.Applies (s.handleVideoAnswer answer) (match s.peerConnection with
      | some pc => if pc.signalingState = .haveLocalOffer then [.setRemoteAnswer pc answer] else []
      | none => []) := by
  unfold handleVideoAnswer onConnection
  cases s.peerConnection with
  | none => exact .refl
  | some pc =>
    by_cases hstate : pc.signalingState = .haveLocalOffer
    · simp only [hstate, ne_eq, not_true_eq_false, if_false, if_true]
      exact ⟨rfl, rfl⟩
    · simp only [hstate, ne_eq, not_false_eq_true, if_false, if_true]
      exact .refl

theorem applies_addIceCandidate (pc : RTCPeerConnection) (c : IceCandidate) (s : VideoClient) :
    s.Applies (s.addIceCandidate pc c) [.addIceCandidate pc c] := ⟨rfl, rfl⟩

theorem applies_handleVideoICE (c : IceCandidate) (s : VideoClient) :
    s.Applies (s.handleVideoICE c) (match s.peerConnection with
      | some pc => if pc.remoteDescription = none then [] else [.addIceCandidate pc c]
      | none => []) := by
  unfold handleVideoICE
  cases s.peerConnection with
  | none => exact .silent rfl rfl
  | some pc =>
    dsimp only
    split_ifs
    · exact .silent rfl rfl
    · exact applies_addIceCandidate pc c s

theorem applies_afterFlush (offerer : Option String) (s : VideoClient) :
    s.Applies (s.afterFlush offerer) [] := by
  unfold afterFlush
  split
  · exact .refl
  · exact applies_onConnection fun _ _ => .silent rfl rfl

/-- The candidate that the loop hands to the connection next. -/
def nextQueued (pc : Option RTCPeerConnection) (s : VideoClient) : List RTCCall :=
  match s.pendingIceCandidates, pc with
  | c :: _, some p => if p.remoteDescription = none then [] else [.addIceCandidate p c]
  | _, _ => []

theorem applies_flushLoop (offerer : Option String) (s : VideoClient) :
    s.Applies (s.flushLoop offerer) (s.nextQueued s.peerConnection) := by
  unfold flushLoop
  split
  · rename_i hqueue
    unfold nextQueued
    rw [hqueue]
    exact applies_afterFlush offerer s
  · rename_i hqueue hpc
    have hnone : s.nextQueued s.peerConnection = [] := by
      unfold nextQueued
      rw [hqueue, hpc]
    rw [hnone]
    have hempty : s.Applies { s with pendingIceCandidates := [] } [] := .silent rfl rfl
    exact hempty.then (applies_afterFlush offerer _)
  · rename_i c rest pc hqueue hpc
    unfold nextQueued
    rw [hqueue, hpc]
    dsimp only
    split_ifs
    · exact .silent rfl rfl
    · exact ⟨rfl, rfl⟩

theorem proper_nextQueued {pc : Option RTCPeerConnection} :
    (∀ call ∈ s.nextQueued pc, call.Proper s.myClientID) ↔ s.QueueFor pc := by
  unfold nextQueued QueueFor
  constructor
  · rintro hproper p c rest rfl hqueue hdesc
    rw [hqueue] at hproper
    simp only [if_neg hdesc] at hproper
    exact hproper _ (List.mem_singleton_self _)
  · intro hqueue call hcall
    split at hcall
    · rename_i c rest p heq
      split_ifs at hcall with hdesc
      · cases hcall
      · rw [List.mem_singleton.mp hcall]
        exact hqueue p c rest rfl heq hdesc
    · cases hcall

/-- What a resolved operation leads to. -/
theorem applies_resume (operation : Await) (stream : Bool) (s : VideoClient) :
    s.Applies (s.resume operation stream) (s.nextQueued (s.flushedOn operation)) := by
  have hquiet : s.nextQueued none = [] := by
    unfold nextQueued
    split
    · rename_i heq
      cases heq
    · rfl
  -- the two descriptions are set on a connection that is there, or nothing happens
  have hdescribe : ∀ (f : RTCPeerConnection → RTCPeerConnection) (offerer : Option String),
      s.Applies (s.onConnection fun pc => (s.setConnection (f pc)).flushLoop offerer)
        (s.nextQueued (s.peerConnection.map f)) := by
    intro f offerer
    unfold onConnection
    cases s.peerConnection with
    | none =>
      rw [Option.map_none, hquiet]
      exact .refl
    | some pc =>
      have hset : s.Applies (s.setConnection (f pc)) [] := .silent rfl rfl
      exact hset.then (applies_flushLoop offerer (s.setConnection (f pc)))
  cases operation with
  | getUserMedia change =>
    show s.Applies _ (s.nextQueued none)
    rw [hquiet]
    cases change with
    | videoCall => exact .ite (applies_switchStream ..) (applies_afterSwitch ..)
    | screenShare =>
      have hscreen : s.Applies { s with isScreenSharing := true } [] := .silent rfl rfl
      exact hscreen.then (applies_switchStream ..)
    | otherwise => exact .ite (applies_switchStream ..) .refl
  | replaceTrack change =>
    show s.Applies _ (s.nextQueued none)
    rw [hquiet]
    exact applies_renegotiate change s
  | createOffer inst targetID change =>
    show s.Applies _ (s.nextQueued none)
    rw [hquiet]
    exact .silent rfl rfl
  | setLocalOffer inst targetID change =>
    show s.Applies _ (s.nextQueued none)
    rw [hquiet]
    refine applies_onConnection fun pc _ => ?_
    have hsent : s.Applies ((s.setConnection { pc with signalingState := .haveLocalOffer }).send
      [.offer ((targetID.or s.currentVideoPeerID).getD "") inst]) [] := .silent rfl rfl
    exact hsent.then (applies_afterSwitch ..)
  | rollback inst senderID offered =>
    show s.Applies _ (s.nextQueued none)
    rw [hquiet]
    refine applies_onConnection fun pc _ => ?_
    have hset : s.Applies (s.setConnection { pc with signalingState := .stable }) [] :=
      .silent rfl rfl
    exact hset.then (applies_applyOffer ..)
  | setRemoteOffer inst senderID offered => exact hdescribe _ _
  | addQueuedCandidate inst offerer => exact applies_flushLoop offerer s
  | createAnswer inst senderID =>
    show s.Applies _ (s.nextQueued none)
    rw [hquiet]
    exact .silent rfl rfl
  | setLocalAnswer inst senderID =>
    show s.Applies _ (s.nextQueued none)
    rw [hquiet]
    exact applies_onConnection fun _ _ => .silent rfl rfl
  | setRemoteAnswer inst answer => exact hdescribe _ _

/-- Of the operations that are rejected only a queued candidate leads to another. -/
theorem applies_fail (operation : Await) (s : VideoClient) :
    s.Applies (s.fail operation) (match operation with
      | .addQueuedCandidate .. => s.nextQueued s.peerConnection
      | _ => []) := by
  cases operation with
  | getUserMedia change =>
    cases change with
    | videoCall => exact applies_afterSwitch .videoCall s
    | screenShare => exact .refl
    | otherwise => exact .refl
  | replaceTrack change => exact applies_renegotiate change s
  | createOffer inst targetID change => exact applies_afterSwitch change s
  | setLocalOffer inst targetID change => exact applies_afterSwitch change s
  | rollback inst senderID offered =>
    exact (applies_setupPeerConnection ..).then (applies_applyOffer ..)
  | addQueuedCandidate inst offerer => exact applies_flushLoop offerer s
  | _ => exact .refl

/-- What the client does neither in answer to a message nor after an operation applies nothing. -/
theorem applies_of_startsAnew {e : VideoEvent} (h : videoStep s e = some t)
    (he : e.startsAnew = true) : s.Applies t [] := by
  cases e with
  | startVideoCall =>
    obtain rfl := Option.some.inj h
    exact .ite .refl (.silent rfl rfl)
  | startScreenShare =>
    obtain rfl := Option.some.inj h
    exact .silent rfl rfl
  | stopScreenShare =>
    obtain rfl := Option.some.inj h
    exact Applies.ite (s := s) (.silent rfl rfl) .refl
  | flipCamera =>
    obtain rfl := Option.some.inj h
    exact .ite .refl (.silent rfl rfl)
  | endVideoCall =>
    obtain rfl := Option.some.inj h
    exact applies_endVideoCall s
  | changeChannel newID =>
    obtain rfl := Option.some.inj h
    exact ⟨(applies_endVideoCall s).calls, (applies_endVideoCall s).me⟩
  | connectionStateChange state =>
    obtain rfl := Option.some.inj h
    exact applies_onConnection fun _ _ => .ite (.silent rfl rfl) (.silent rfl rfl)
  | iceCandidate =>
    obtain rfl := Option.some.inj h
    exact applies_onConnection fun _ _ => .silent rfl rfl
  | _ => cases he

theorem identity_handleSignalingMessage (payload : VideoPacket) (s : VideoClient) :
    (s.handleSignalingMessage payload).identity = s.identity := by
  unfold handleSignalingMessage
  split
  · exact (applies_handleVideoCallStart ..).me
  · exact (applies_handleVideoCallEnd ..).me
  · exact (applies_handleVideoJoin ..).me
  · exact (applies_handleVideoOffer ..).me
  · exact (applies_handleVideoAnswer ..).me
  · exact (applies_handleVideoICE ..).me

/-- Nothing that a client does in a video call changes who it is. -/
theorem identity_videoStep {e : VideoEvent} (h : videoStep s e = some t) :
    t.identity = s.identity := by
  cases e with
  | receive payload =>
    obtain rfl := Option.some.inj h
    exact identity_handleSignalingMessage payload s
  | resolve n stream =>
    obtain ⟨operation, -, ht⟩ := Option.bind_eq_some_iff.mp h
    split_ifs at ht
    obtain rfl := Option.some.inj ht
    exact (applies_resume ..).me
  | reject n =>
    obtain ⟨operation, -, rfl⟩ := Option.map_eq_some_iff.mp h
    exact (applies_fail ..).me
  | _ => exact (applies_of_startsAnew h rfl).me

end VideoClient

section Steps

variable {s t : VideoClient} {e : VideoEvent}

/-- Nothing but the calls that a step makes decides whether the connections stay their own. -/
theorem ownConnections_iff {calls : List RTCCall} (h : s.Applies t calls) (hs : OwnConnections s) :
    OwnConnections t ↔ ∀ call ∈ calls, call.Proper s.myClientID := by
  unfold OwnConnections
  rw [h.calls, show t.myClientID = s.myClientID from congrArg Prod.fst h.me]
  constructor
  · exact fun ht call hcall => ht call (List.mem_append_right _ hcall)
  · intro hnew call hcall
    rcases List.mem_append.mp hcall with hold | hcall
    · exact hs call hold
    · exact hnew call hcall

theorem ownConnections_of_silent (h : s.Applies t []) (hs : OwnConnections s) : OwnConnections t :=
  (ownConnections_iff h hs).mpr fun _ hcall => (List.not_mem_nil hcall).elim

/-- A message keeps the connections their own exactly when it is not a stray one. -/
theorem noStrays_receive_iff (hs : OwnConnections s) (payload : VideoPacket) :
    NoStrays s (.receive payload) ↔ OwnConnections (s.handleSignalingMessage payload) := by
  rcases payload with ⟨channelID, senderID, callsign, message⟩
  unfold VideoClient.handleSignalingMessage
  cases message with
  | answer targetID inst offered =>
    rw [ownConnections_iff (VideoClient.applies_handleVideoAnswer _ s) hs]
    unfold NoStrays
    cases s.peerConnection with
    | none => simp
    | some pc =>
      -- an answer is applied only while an offer of ours is out
      by_cases hstate : pc.signalingState = .haveLocalOffer
      · simp [hstate, RTCCall.Proper]
      · simp [hstate]
  | ice targetID inst remote =>
    rw [ownConnections_iff (VideoClient.applies_handleVideoICE _ s) hs]
    unfold NoStrays
    cases s.peerConnection with
    | none => simp
    | some pc =>
      -- a candidate that comes before the remote description is queued
      by_cases hdesc : pc.remoteDescription = none
      · simp [hdesc]
      · simp [hdesc, RTCCall.Proper]
  | callStart isScreen =>
    exact iff_of_true trivial
      (ownConnections_of_silent (VideoClient.applies_handleVideoCallStart ..) hs)
  | callEnd =>
    exact iff_of_true trivial
      (ownConnections_of_silent (VideoClient.applies_handleVideoCallEnd ..) hs)
  | join targetID =>
    exact iff_of_true trivial
      (ownConnections_of_silent (VideoClient.applies_handleVideoJoin ..) hs)
  | offer targetID inst =>
    exact iff_of_true trivial
      (ownConnections_of_silent (VideoClient.applies_handleVideoOffer ..) hs)

/-- A step keeps the connections their own exactly when no stray message meets one. -/
theorem noStrays_iff (hs : OwnConnections s) (h : videoStep s e = some t) :
    NoStrays s e ↔ OwnConnections t := by
  cases e with
  | receive payload =>
    obtain rfl := Option.some.inj h
    exact noStrays_receive_iff hs payload
  | resolve n stream =>
    obtain ⟨operation, hop, ht⟩ := Option.bind_eq_some_iff.mp h
    split_ifs at ht with hresolvable
    obtain rfl := Option.some.inj ht
    -- only a flush of the queue goes on with a call
    have happlies : s.Applies ({ s with awaiting := s.awaiting.eraseIdx n }.resume operation stream)
        (s.nextQueued (s.flushedOn operation)) := by
      have hcalls := VideoClient.applies_resume operation stream
        { s with awaiting := s.awaiting.eraseIdx n }
      refine ⟨hcalls.calls.trans ?_, hcalls.me⟩
      cases operation <;> rfl
    rw [ownConnections_iff happlies hs, VideoClient.proper_nextQueued]
    unfold NoStrays
    simp [hop, hresolvable]
  | reject n =>
    obtain ⟨operation, hop, rfl⟩ := Option.map_eq_some_iff.mp h
    have hcalls := VideoClient.applies_fail operation { s with awaiting := s.awaiting.eraseIdx n }
    unfold NoStrays
    cases operation with
    | addQueuedCandidate inst offerer =>
      have happlies : s.Applies _ (s.nextQueued s.peerConnection) :=
        ⟨hcalls.calls, hcalls.me⟩
      rw [ownConnections_iff happlies hs, VideoClient.proper_nextQueued]
      simp [hop]
    | _ =>
      refine iff_of_true (fun inst offerer hop' => ?_)
        (ownConnections_of_silent ⟨hcalls.calls, hcalls.me⟩ hs)
      rw [hop] at hop'
      cases hop'
  | _ =>
    exact iff_of_true trivial
      (ownConnections_of_silent (VideoClient.applies_of_startsAnew h rfl) hs)

end Steps

/-- A client that has just been welcomed. -/
def newVideoClient (id callsign : String) (ch : ChannelID) : VideoClient where
  myClientID := id
  myCallsign := callsign
  currentChannelID := ch

/-- In any run, with any messages from any peers, every answer and candidate is applied to its own
connection for as long as no stray message meets a connection, and no longer. -/
theorem connections_own_iff (id callsign : String) (ch : ChannelID) (es : List VideoEvent) :
    Always videoStep OwnConnections (newVideoClient id callsign ch) es ↔
      Guarded videoStep NoStrays (newVideoClient id callsign ch) es :=
  always_iff_guarded (fun _ _ _ hs h => noStrays_iff hs h) fun _ hcall => nomatch hcall

/-- A packet of the video call on channel 1. -/
def videoPacket (senderID : String) (message : VideoMessage) : VideoPacket :=
  ⟨1, senderID, "UNIT-" ++ senderID, message⟩

/-- Client `m` starts a call and offers to `b`, then to `c`, which both want to join. Then the
answer of `b` arrives, and a candidate of `b`. -/
def lateReplies : List VideoEvent :=
  [.startVideoCall, .resolve 0 true,
    .receive (videoPacket "b" (.join "")), .resolve 0 true, .resolve 0 true,
    .receive (videoPacket "c" (.join "")), .resolve 0 true, .resolve 0 true,
    .receive (videoPacket "b" (.answer "m" 0 ⟨"m", 0⟩)), .resolve 0 true,
    .receive (videoPacket "b" (.ice "m" 0 (some ⟨"m", 0⟩)))]

/-- Both are applied to the connection that was made for `c`. -/
theorem connections_own_fails :
    ¬ Always videoStep OwnConnections (newVideoClient "m" "UNIT-m" 1) lateReplies ∧
    ∃ s pc, Run videoStep (newVideoClient "m" "UNIT-m" 1) lateReplies s ∧
      s.peerConnection = some pc ∧ pc.target = "c" ∧ pc.inst = 1 ∧
      pc.remoteDescription = some (.answer ⟨"b", 0⟩ ⟨"m", 0⟩) ∧
      pc.candidates = [⟨⟨"b", 0⟩, some ⟨"m", 0⟩⟩] := by
  have hrun := run_get videoStep (newVideoClient "m" "UNIT-m" 1) lateReplies (by decide +kernel)
  constructor
  · intro halways
    have hown := always_iff.mp halways lateReplies [] _ (List.append_nil _).symm hrun
    have hcall : RTCCall.setRemoteAnswer
        { target := "c", inst := 1, signalingState := .haveLocalOffer }
        (.answer ⟨"b", 0⟩ ⟨"m", 0⟩) ∈ ((lateReplies.foldlM videoStep
          (newVideoClient "m" "UNIT-m" 1)).get (by decide +kernel)).calls := by
      decide +kernel
    exact absurd (hown _ hcall).1 (by decide)
  · exact ⟨_, _, hrun, rfl, by decide +kernel, by decide +kernel, by decide +kernel,
      by decide +kernel⟩

end TwoWayRadio

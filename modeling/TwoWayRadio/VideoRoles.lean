import TwoWayRadio.RadioVideo

/-! The parts of two clients in a video call between them: one offers and the other answers. -/
namespace TwoWayRadio

/-- What a client in the video sends, once it has announced itself, what it waits for, and the
signalling states of its connections. -/
structure VideoRole where
  message : VideoMessage → Prop
  operation : Await → Prop
  state : SignalingState → Prop

/-- It offers, to `peer`. -/
def VideoRole.offerer (peer : String) : VideoRole where
  message
    | .offer targetID _ => targetID = peer
    | .ice .. => True
    | _ => False
  operation
    | .createOffer _ targetID change | .setLocalOffer _ targetID change =>
      targetID = some peer ∧ change = .otherwise
    | .setRemoteAnswer .. | .addQueuedCandidate _ none => True
    | _ => False
  state state := state ≠ .haveRemoteOffer

def VideoRole.answerer : VideoRole where
  message
    | .answer .. | .ice .. => True
    | _ => False
  operation
    | .setRemoteOffer .. | .addQueuedCandidate _ (some _) | .createAnswer ..
    | .setLocalAnswer .. => True
    | _ => False
  state state := state ≠ .haveLocalOffer

/-- An offer of connection `inst` is on its way. -/
def Await.offers (inst : ℕ) : Await → Prop
  | .createOffer n .. | .setLocalOffer n .. => n = inst
  | _ => False

def Await.isOffer : Await → Bool
  | .createOffer .. | .setLocalOffer .. => true
  | _ => false

theorem Await.isOffer_of_offers {inst : ℕ} {a : Await} (h : a.offers inst) : a.isOffer = true := by
  cases a with
  | createOffer => rfl
  | setLocalOffer => rfl
  | _ => cases h

/-- What `flushPendingIceCandidates` comes to wait for. -/
def Await.flushes (offerer : Option String) : Await → Prop
  | .addQueuedCandidate _ o => o = offerer
  | .createAnswer _ senderID => offerer = some senderID
  | _ => False

/-- What a client does of itself in a call that nobody leaves, while offers can be made. -/
def VideoEvent.InCall (s : VideoClient) : VideoEvent → Prop
  | .resolve .. | .connectionStateChange _ | .iceCandidate => True
  | .reject n => ∀ a ∈ s.awaiting[n]?, a.isOffer = false
  | _ => False

instance VideoEvent.decidableInCall (s : VideoClient) : ∀ e, Decidable (VideoEvent.InCall s e)
  | .resolve .. | .connectionStateChange _ | .iceCandidate => isTrue trivial
  | .reject n => inferInstanceAs (Decidable (∀ a ∈ s.awaiting[n]?, a.isOffer = false))
  | .startVideoCall | .startScreenShare | .stopScreenShare | .flipCamera | .endVideoCall
  | .changeChannel _ | .receive _ => isFalse id

/-- The messages with which a client announces that it is in the video. -/
def VideoMessage.calls : VideoMessage → Bool
  | .callStart _ | .join _ => true
  | _ => false

namespace VideoClient

variable {s t : VideoClient} {role : VideoRole} {peer : String}

/-- Not in the video, and at most waiting for the camera with which to enter it. -/
structure Outside (s : VideoClient) : Prop where
  inactive : s.isVideoCallActive = false
  unconnected : s.peerConnection = none
  sent : s.sent = []
  awaiting : s.awaiting = [] ∨ s.awaiting = [.getUserMedia .videoCall]

structure InVideo (role : VideoRole) (s : VideoClient) : Prop where
  active : s.isVideoCallActive = true
  sent : ∃ rest, s.sent = .callStart false :: .join "" :: rest ∧ ∀ m ∈ rest, role.message m
  awaiting : ∀ a ∈ s.awaiting, role.operation a
  state : ∀ pc ∈ s.peerConnection, role.state pc.signalingState

/-- The client has sent `peer` an offer. -/
def HasOffered (peer : String) (s : VideoClient) : Prop := ∃ inst, .offer peer inst ∈ s.sent

/-- The client has a connection just if it offers one: it has done so or is about to. -/
structure Pursues (peer : String) (s : VideoClient) : Prop where
  connected : ∀ pc ∈ s.peerConnection, s.HasOffered peer ∨ ∃ a ∈ s.awaiting, a.offers pc.inst
  unconnected : s.peerConnection = none → ¬ s.HasOffered peer

/-- The current connection and its signalling state. -/
def link (s : VideoClient) : Option (ℕ × SignalingState) :=
  s.peerConnection.map fun pc => (pc.inst, pc.signalingState)

theorem link_eq_none : s.link = none ↔ s.peerConnection = none := Option.map_eq_none_iff

theorem exists_of_link (h : t.link = s.link) {pc : RTCPeerConnection}
    (hpc : pc ∈ t.peerConnection) :
    ∃ pc' ∈ s.peerConnection, pc'.inst = pc.inst ∧
      pc'.signalingState = pc.signalingState := by
  have hlink : s.link = some (pc.inst, pc.signalingState) := by
    rw [← h, link, Option.mem_def.mp hpc]
    rfl
  obtain ⟨pc', hpc', heq⟩ := Option.map_eq_some_iff.mp hlink
  exact ⟨pc', hpc', congrArg Prod.fst heq, congrArg Prod.snd heq⟩

/-- From `s` to `t` the client keeps its connection in its state, and sends and awaits more. -/
structure Extends (s t : VideoClient) (messages : List VideoMessage) (operations : List Await) :
    Prop where
  me : t.myClientID = s.myClientID
  active : t.isVideoCallActive = s.isVideoCallActive
  sent : t.sent = s.sent ++ messages
  awaiting : t.awaiting = s.awaiting ++ operations
  link : t.link = s.link

theorem Extends.quiet (me : t.myClientID = s.myClientID)
    (active : t.isVideoCallActive = s.isVideoCallActive) (sent : t.sent = s.sent)
    (awaiting : t.awaiting = s.awaiting) (link : t.link = s.link) : s.Extends t [] [] :=
  ⟨me, active, by rw [sent, List.append_nil], by rw [awaiting, List.append_nil], link⟩

theorem Extends.refl (s : VideoClient) : s.Extends s [] [] := .quiet rfl rfl rfl rfl rfl

theorem Extends.trans {u : VideoClient} {ms ms' : List VideoMessage} {ops ops' : List Await}
    (h : s.Extends t ms ops) (h' : t.Extends u ms' ops') :
    s.Extends u (ms ++ ms') (ops ++ ops') where
  me := h'.me.trans h.me
  active := h'.active.trans h.active
  sent := by rw [h'.sent, h.sent, List.append_assoc]
  awaiting := by rw [h'.awaiting, h.awaiting, List.append_assoc]
  link := h'.link.trans h.link

theorem Extends.await (operation : Await) (s : VideoClient) :
    s.Extends (s.await operation) [] [operation] :=
  ⟨rfl, rfl, (List.append_nil _).symm, rfl, rfl⟩

theorem InVideo.extend {ms : List VideoMessage} {ops : List Await} (h : s.InVideo role)
    (he : s.Extends t ms ops) (hms : ∀ m ∈ ms, role.message m)
    (hops : ∀ a ∈ ops, role.operation a) : t.InVideo role where
  active := he.active.trans h.active
  sent := by
    obtain ⟨rest, hsent, hrest⟩ := h.sent
    refine ⟨rest ++ ms, by rw [he.sent, hsent]; rfl, fun m hm => ?_⟩
    exact (List.mem_append.mp hm).elim (hrest m) (hms m)
  awaiting := by
    intro a ha
    rw [he.awaiting] at ha
    exact (List.mem_append.mp ha).elim (h.awaiting a) (hops a)
  state := by
    intro pc hpc
    obtain ⟨pc', hpc', _, hstate⟩ := exists_of_link he.link hpc
    rw [← hstate]
    exact h.state pc' hpc'

theorem Pursues.extend {ms : List VideoMessage} {ops : List Await} (h : s.Pursues peer)
    (he : s.Extends t ms ops) (hms : ∀ inst, .offer peer inst ∉ ms) : t.Pursues peer := by
  have hoffered : t.HasOffered peer ↔ s.HasOffered peer := by
    refine exists_congr fun inst => ?_
    rw [he.sent, List.mem_append, or_iff_left (hms inst)]
  constructor
  · intro pc hpc
    obtain ⟨pc', hpc', hinst, _⟩ := exists_of_link he.link hpc
    rw [hoffered, ← hinst]
    refine (h.connected pc' hpc').imp_right fun ⟨a, ha, hoffers⟩ => ⟨a, ?_, hoffers⟩
    rw [he.awaiting]
    exact List.mem_append_left _ ha
  · intro hpc
    rw [hoffered]
    exact h.unconnected (link_eq_none.mp (he.link.symm.trans (link_eq_none.mpr hpc)))

theorem InVideo.erase (h : s.InVideo role) (n : ℕ) :
    InVideo role { s with awaiting := s.awaiting.eraseIdx n } :=
  ⟨h.active, h.sent, fun a ha => h.awaiting a (List.mem_of_mem_eraseIdx ha), h.state⟩

theorem Pursues.erase (h : s.Pursues peer) {n : ℕ}
    (hn : ∀ a ∈ s.awaiting[n]?, a.isOffer = false) :
    Pursues peer { s with awaiting := s.awaiting.eraseIdx n } := by
  refine ⟨fun pc hpc => (h.connected pc hpc).imp_right ?_, h.unconnected⟩
  rintro ⟨a, ha, hoffers⟩
  obtain ⟨i, hi⟩ := List.mem_iff_getElem?.mp ha
  refine ⟨a, List.mem_eraseIdx_iff_getElem?.mpr ⟨i, ?_, hi⟩, hoffers⟩
  rintro rfl
  have hno := hn a hi
  rw [Await.isOffer_of_offers hoffers] at hno
  cases hno

theorem InVideo.setConnection (h : s.InVideo role) {pc : RTCPeerConnection}
    (hpc : role.state pc.signalingState) : (s.setConnection pc).InVideo role := by
  refine ⟨h.active, h.sent, h.awaiting, fun pc' hpc' => ?_⟩
  rw [← Option.some.inj hpc']
  exact hpc

theorem Pursues.setConnection (h : s.Pursues peer) {pc pc' : RTCPeerConnection}
    (hpc : s.peerConnection = some pc) (hinst : pc'.inst = pc.inst) :
    (s.setConnection pc').Pursues peer := by
  refine ⟨fun pc'' hpc'' => ?_, fun hnone => by cases hnone⟩
  rw [← Option.some.inj hpc'', hinst]
  exact h.connected pc hpc

theorem peerConnection_setupPeerConnection (targetID : String) (isInitiator : Bool)
    (s : VideoClient) : (s.setupPeerConnection targetID isInitiator).peerConnection =
      some { target := targetID, inst := s.created } := by
  unfold setupPeerConnection
  cases isInitiator <;> rfl

theorem InVideo.setupPeerConnection (h : s.InVideo role) {targetID : String} {isInitiator : Bool}
    (hnew : role.state .stable) (hoffer : isInitiator = true →
      role.operation (.createOffer s.created (some targetID) .otherwise)) :
    (s.setupPeerConnection targetID isInitiator).InVideo role := by
  unfold VideoClient.setupPeerConnection
  have hstate : ∀ pc ∈ some ({ target := targetID, inst := s.created } : RTCPeerConnection),
      role.state pc.signalingState := by
    intro pc hpc
    rw [← Option.some.inj hpc]
    exact hnew
  cases isInitiator with
  | false => exact ⟨h.active, h.sent, h.awaiting, hstate⟩
  | true =>
    refine ⟨h.active, h.sent, fun a ha => ?_, hstate⟩
    rcases List.mem_append.mp ha with ha | ha
    · exact h.awaiting a ha
    · rw [List.mem_singleton.mp ha]
      exact hoffer rfl

/-- A client that sets up a connection as its initiator is about to offer it. -/
theorem pursues_setupPeerConnection (peer targetID : String) (s : VideoClient) :
    (s.setupPeerConnection targetID true).Pursues peer := by
  refine ⟨fun pc hpc => Or.inr ⟨.createOffer s.created (some targetID) .otherwise, ?_, ?_⟩,
    fun hnone => by cases hnone⟩
  · exact List.mem_append_right _ (List.mem_singleton_self _)
  · rw [← Option.some.inj hpc]
    rfl

theorem extends_afterFlush (offerer : Option String) (s : VideoClient) :
    ∃ ops, s.Extends (s.afterFlush offerer) [] ops ∧ ∀ a ∈ ops, a.flushes offerer := by
  have hnone : ∀ a ∈ ([] : List Await), a.flushes offerer := fun a ha => by cases ha
  cases offerer with
  | none => exact ⟨[], .refl s, hnone⟩
  | some senderID =>
    simp only [afterFlush, onConnection]
    split
    · exact ⟨[], .refl s, hnone⟩
    · rename_i pc _
      refine ⟨[.createAnswer pc.inst senderID], .await _ s, fun a ha => ?_⟩
      rw [List.mem_singleton.mp ha]
      rfl

theorem extends_addIceCandidate {pc : RTCPeerConnection} (hpc : s.peerConnection = some pc)
    (candidate : IceCandidate) : s.Extends (s.addIceCandidate pc candidate) [] [] := by
  refine .quiet rfl rfl rfl rfl ?_
  rw [link, link, hpc]
  rfl

/-- Emptying the queue leaves the connection in its state. -/
theorem extends_flushLoop (offerer : Option String) (s : VideoClient) :
    ∃ ops, s.Extends (s.flushLoop offerer) [] ops ∧ ∀ a ∈ ops, a.flushes offerer := by
  have hqueue (rest : List IceCandidate) :
      s.Extends { s with pendingIceCandidates := rest } [] [] := .quiet rfl rfl rfl rfl rfl
  unfold flushLoop
  split
  · exact extends_afterFlush offerer s
  · obtain ⟨ops, he, hops⟩ := extends_afterFlush offerer { s with pendingIceCandidates := [] }
    exact ⟨ops, (hqueue []).trans he, hops⟩
  · rename_i candidate rest pc _ hpc
    have hadd : s.Extends (if pc.remoteDescription = none then
          { s with pendingIceCandidates := rest }
        else { s with pendingIceCandidates := rest }.addIceCandidate pc candidate) [] [] := by
      split
      · exact hqueue rest
      · exact (hqueue rest).trans
          (extends_addIceCandidate (s := { s with pendingIceCandidates := rest }) hpc candidate)
    refine ⟨[.addQueuedCandidate pc.inst offerer], hadd.trans (.await _ _), fun a ha => ?_⟩
    · rw [List.mem_singleton.mp ha]
      rfl

theorem extends_changeState (state : ConnectionState) (s : VideoClient) :
    s.Extends (s.changeState state) [] [] := by
  unfold changeState onConnection
  split
  · exact .refl s
  · rename_i pc hpc
    have hlink : ({ s with peerConnection := some { pc with connectionState := state } } :
        VideoClient).link = s.link := by
      rw [link, link, hpc]
      rfl
    dsimp only
    split
    · exact .quiet rfl rfl rfl rfl hlink
    · exact .quiet rfl rfl rfl rfl hlink

theorem extends_gather (s : VideoClient) :
    ∃ ms, s.Extends s.gather ms [] ∧
      ∀ m ∈ ms, ∃ targetID inst remote, m = .ice targetID inst remote := by
  unfold gather onConnection
  split
  · exact ⟨[], .refl s, fun m hm => by cases hm⟩
  · refine ⟨_, ⟨rfl, rfl, rfl, (List.append_nil _).symm, rfl⟩, fun m hm => ?_⟩
    exact ⟨_, _, _, List.mem_singleton.mp hm⟩

/-- What the arrival of a message other than an offer or the end of a call does: a connection is
set up for a caller, or an answer is applied to one that waits for it, or nothing changes but
candidates. -/
theorem receive_cases {p : VideoPacket} (hend : p.message ≠ .callEnd)
    (hoffer : ∀ targetID inst, p.message ≠ .offer targetID inst)
    (hjoin : ∀ targetID, p.message = .join targetID → targetID ≠ s.myClientID) :
    (∃ ops, s.Extends (s.handleSignalingMessage p) [] ops ∧
      ∀ a ∈ ops, ∃ pc ∈ s.peerConnection, pc.signalingState = .haveLocalOffer ∧
        ∃ answer, a = .setRemoteAnswer pc.inst answer) ∨
      (p.message.calls = true ∧ p.senderID ≠ s.myClientID ∧ s.isVideoCallActive = true ∧
        s.handleSignalingMessage p =
          s.setupPeerConnection p.senderID (p.senderID < s.myClientID)) := by
  have hsame : ∃ ops, s.Extends s [] ops ∧
      ∀ a ∈ ops, ∃ pc ∈ s.peerConnection, pc.signalingState = .haveLocalOffer ∧
        ∃ answer, a = .setRemoteAnswer pc.inst answer :=
    ⟨[], .refl s, fun a ha => by cases ha⟩
  have hpending (candidates : List IceCandidate) :
      s.Extends { s with pendingIceCandidates := candidates } [] [] := .quiet rfl rfl rfl rfl rfl
  unfold handleSignalingMessage
  cases hm : p.message with
  | callStart isScreen =>
    dsimp only
    unfold handleVideoCallStart
    dsimp only
    -- the name under which the caller is shown decides nothing
    generalize (if p.callsign = "" then "Peer" else p.callsign) = caller
    split
    · exact Or.inl hsame
    · split
      · rename_i hcall
        exact Or.inr ⟨rfl, hcall.1, hcall.2.2.1, rfl⟩
      · exact Or.inl hsame
  | join targetID =>
    dsimp only
    unfold handleVideoJoin
    split
    · exact Or.inl hsame
    · rename_i hsender
      split
      · exact Or.inl hsame
      · split
        · exact Or.inl hsame
        · rename_i hactive
          split
          · exact Or.inl hsame
          · refine Or.inr ⟨rfl, fun h => hsender (Or.inr h), by simpa using hactive, ?_⟩
            simp [hjoin targetID hm]
  | answer targetID inst offered =>
    refine Or.inl ?_
    dsimp only
    unfold handleVideoAnswer onConnection
    split
    · exact hsame
    · rename_i pc hpc
      dsimp only
      split
      · exact hsame
      · rename_i hstate
        refine ⟨[.setRemoteAnswer pc.inst _], ⟨rfl, rfl, (List.append_nil _).symm, rfl, rfl⟩,
          fun a ha => ⟨pc, hpc, not_not.mp hstate, _, List.mem_singleton.mp ha⟩⟩
  | ice targetID inst remote =>
    refine Or.inl ⟨[], ?_, fun a ha => by cases ha⟩
    dsimp only
    unfold handleVideoICE
    split
    · exact hpending _
    · rename_i pc hpc
      split
      · exact hpending _
      · exact extends_addIceCandidate hpc _
  | offer targetID inst => exact absurd hm (hoffer targetID inst)
  | callEnd => exact absurd hm hend

/-- Whoever is in the video has a connection once it has handled a join. -/
theorem connected_of_join {p : VideoPacket} (hactive : s.isVideoCallActive = true)
    (hsender : p.senderID ≠ "") (hother : p.senderID ≠ s.myClientID)
    (hm : p.message = .join "") : (s.handleSignalingMessage p).peerConnection ≠ none := by
  unfold handleSignalingMessage
  rw [hm]
  dsimp only
  unfold handleVideoJoin
  rw [if_neg (by simp [hsender, hother]), if_neg (by simp), if_neg (by simp [hactive])]
  split
  · rename_i hconnected
    intro hnone
    rw [hnone] at hconnected
    simp at hconnected
  · rw [peerConnection_setupPeerConnection]
    exact Option.some_ne_none _

theorem extends_applyOffer (senderID : String) (offered : ℕ) (s : VideoClient) :
    ∃ ops, s.Extends (s.applyOffer senderID offered) [] ops ∧
      ∀ a ∈ ops, ∃ n, a = .setRemoteOffer n senderID offered := by
  unfold applyOffer onConnection
  split
  · exact ⟨[], .refl s, fun a ha => by cases ha⟩
  · rename_i pc _
    exact ⟨_, .await _ s, fun a ha => ⟨pc.inst, List.mem_singleton.mp ha⟩⟩

/-- No message makes its receiver send one at once. -/
theorem receive_keeps {p : VideoPacket} (hend : p.message ≠ .callEnd)
    (hjoin : ∀ targetID, p.message = .join targetID → targetID ≠ s.myClientID) :
    (s.handleSignalingMessage p).sent = s.sent ∧
      (s.handleSignalingMessage p).myClientID = s.myClientID := by
  have hsetup (targetID : String) (isInitiator : Bool) (u : VideoClient) :
      (u.setupPeerConnection targetID isInitiator).sent = u.sent ∧
        (u.setupPeerConnection targetID isInitiator).myClientID = u.myClientID := by
    unfold setupPeerConnection
    cases isInitiator <;> exact ⟨rfl, rfl⟩
  have happly (inst : ℕ) (u : VideoClient) :
      (u.applyOffer p.senderID inst).sent = u.sent ∧
        (u.applyOffer p.senderID inst).myClientID = u.myClientID := by
    obtain ⟨ops, he, _⟩ := extends_applyOffer p.senderID inst u
    exact ⟨he.sent.trans (List.append_nil _), he.me⟩
  by_cases hoffer : ∃ targetID inst, p.message = .offer targetID inst
  · obtain ⟨targetID, inst, hm⟩ := hoffer
    have hnew (u : VideoClient) :
        ((u.setupPeerConnection p.senderID false).applyOffer p.senderID inst).sent = u.sent ∧
          ((u.setupPeerConnection p.senderID false).applyOffer p.senderID inst).myClientID =
            u.myClientID :=
      ⟨(happly inst _).1.trans (hsetup _ _ u).1, (happly inst _).2.trans (hsetup _ _ u).2⟩
    unfold handleSignalingMessage
    rw [hm]
    dsimp only
    unfold handleVideoOffer
    dsimp only
    split
    · exact ⟨rfl, rfl⟩
    · split
      · exact hnew _
      · split
        · split
          · exact ⟨rfl, rfl⟩
          · exact ⟨rfl, rfl⟩
        · split
          · exact hnew _
          · exact happly inst _
  · have hoffer' : ∀ targetID inst, p.message ≠ .offer targetID inst :=
      fun targetID inst hm => hoffer ⟨targetID, inst, hm⟩
    rcases receive_cases hend hoffer' hjoin with ⟨ops, he, _⟩ | ⟨_, _, _, heq⟩
    · exact ⟨he.sent.trans (List.append_nil _), he.me⟩
    · rw [heq]
      exact hsetup _ _ s

/-- Only the announcement of another client changes the state of a connection at once. -/
theorem receive_link {p : VideoPacket} (hend : p.message ≠ .callEnd)
    (hoffer : ∀ targetID inst, p.message ≠ .offer targetID inst)
    (hjoin : ∀ targetID, p.message = .join targetID → targetID ≠ s.myClientID)
    (hcalls : p.senderID ≠ s.myClientID → p.message.calls = false) :
    (s.handleSignalingMessage p).link = s.link := by
  rcases receive_cases hend hoffer hjoin with ⟨_, he, _⟩ | ⟨hcall, hother, _⟩
  · exact he.link
  · rw [hcalls hother] at hcall
    cases hcall

namespace Outside

theorem of_extends (h : s.Outside) (he : s.Extends t [] []) :
    t.Outside ∧ t.awaiting = s.awaiting := by
  have hawaiting : t.awaiting = s.awaiting := he.awaiting.trans (List.append_nil _)
  exact ⟨⟨he.active.trans h.inactive,
    link_eq_none.mp (he.link.trans (link_eq_none.mpr h.unconnected)),
    he.sent.trans (by rw [h.sent]; rfl), by rw [hawaiting]; exact h.awaiting⟩, hawaiting⟩

/-- No message but an offer or the end of a call matters to a client that is not in the video. -/
theorem receive (h : s.Outside) {p : VideoPacket} (hend : p.message ≠ .callEnd)
    (hoffer : ∀ targetID inst, p.message ≠ .offer targetID inst)
    (hjoin : ∀ targetID, p.message = .join targetID → targetID ≠ s.myClientID) :
    s.Extends (s.handleSignalingMessage p) [] [] := by
  rcases receive_cases hend hoffer hjoin with ⟨ops, he, hops⟩ | ⟨_, _, hactive, _⟩
  · cases ops with
    | nil => exact he
    | cons a rest =>
      obtain ⟨pc, hpc, _⟩ := hops a List.mem_cons_self
      rw [h.unconnected] at hpc
      cases hpc
  · rw [h.inactive] at hactive
    cases hactive

/-- A client outside stays there, or it enters the video with its two announcements. -/
theorem act (h : s.Outside) {e : VideoEvent} (he : e.InCall s) (hstep : videoStep s e = some t) :
    s.Extends t [] [] ∨ (s.awaiting ≠ [] ∧ t = { s with
      awaiting := [], isVideoCallActive := true, sent := [.callStart false, .join ""] }) := by
  have henters (n : ℕ) (a : Await) (hn : s.awaiting[n]? = some a) :
      a = .getUserMedia .videoCall ∧ s.awaiting ≠ [] ∧ s.awaiting.eraseIdx n = [] := by
    rcases h.awaiting with hnil | hone
    · rw [hnil] at hn
      cases hn
    · rw [hone] at hn ⊢
      cases n with
      | zero => exact ⟨(Option.some.inj hn).symm, List.cons_ne_nil _ _, rfl⟩
      | succ n => cases hn
  cases e with
  | resolve n stream =>
    obtain ⟨a, hn, hstep⟩ := Option.bind_eq_some_iff.mp hstep
    obtain ⟨rfl, hsome, herase⟩ := henters n a hn
    refine Or.inr ⟨hsome, ?_⟩
    -- whether or not there is a camera, the client announces itself
    have hresolvable : s.Resolvable (.getUserMedia .videoCall) = true := rfl
    rw [if_pos hresolvable, herase] at hstep
    rw [← Option.some.inj hstep]
    cases stream <;> simp [resume, switchStream, afterSwitch, send, h.unconnected, h.sent]
  | reject n =>
    obtain ⟨a, hn, hstep⟩ := Option.map_eq_some_iff.mp hstep
    obtain ⟨rfl, hsome, herase⟩ := henters n a hn
    refine Or.inr ⟨hsome, ?_⟩
    rw [← hstep, herase]
    simp [fail, afterSwitch, send, h.sent]
  | connectionStateChange state =>
    rw [← Option.some.inj hstep]
    exact Or.inl (extends_changeState state s)
  | iceCandidate =>
    rw [← Option.some.inj hstep]
    have hsame : s.gather = s := by
      unfold gather onConnection
      rw [h.unconnected]
    rw [hsame]
    exact Or.inl (.refl s)
  | _ => cases he

end Outside

/-- Both parts begin with the announcements. -/
theorem InVideo.of_entered (role : VideoRole) (hactive : t.isVideoCallActive = true)
    (hsent : t.sent = [.callStart false, .join ""]) (hawaiting : t.awaiting = [])
    (hconnection : t.peerConnection = none) : t.InVideo role where
  active := hactive
  sent := ⟨[], hsent, fun m hm => by cases hm⟩
  awaiting := by
    rw [hawaiting]
    exact fun a ha => by cases ha
  state := by
    rw [hconnection]
    exact fun pc hpc => by cases hpc

variable {u : VideoClient}

/-- From `s` to `t` the client goes on in its part, with the connection it has, if it has one. -/
structure Proceeds (role : VideoRole) (s t : VideoClient) : Prop where
  video : t.InVideo role
  me : t.myClientID = s.myClientID
  sent : ∃ ms, t.sent = s.sent ++ ms ∧ ∀ m ∈ ms, role.message m
  connection : t.peerConnection = none ↔ s.peerConnection = none

theorem Proceeds.of_extends {ms : List VideoMessage} {ops : List Await} (h : s.InVideo role)
    (he : s.Extends t ms ops) (hms : ∀ m ∈ ms, role.message m)
    (hops : ∀ a ∈ ops, role.operation a) : s.Proceeds role t where
  video := h.extend he hms hops
  me := he.me
  sent := ⟨ms, he.sent, hms⟩
  connection := by rw [← link_eq_none, he.link, link_eq_none]

theorem Proceeds.resume (h : s.InVideo role) (n : ℕ) :
    s.Proceeds role { s with awaiting := s.awaiting.eraseIdx n } :=
  ⟨h.erase n, rfl, ⟨[], (List.append_nil _).symm, fun _ hm => by cases hm⟩, Iff.rfl⟩

theorem Proceeds.extend {ms : List VideoMessage} {ops : List Await} (h : s.Proceeds role t)
    (he : t.Extends u ms ops) (hms : ∀ m ∈ ms, role.message m)
    (hops : ∀ a ∈ ops, role.operation a) : s.Proceeds role u where
  video := h.video.extend he hms hops
  me := he.me.trans h.me
  sent := by
    obtain ⟨ms', hsent, hms'⟩ := h.sent
    refine ⟨ms' ++ ms, by rw [he.sent, hsent, List.append_assoc], fun m hm => ?_⟩
    exact (List.mem_append.mp hm).elim (hms' m) (hms m)
  connection := by rw [← link_eq_none, he.link, link_eq_none, h.connection]

theorem Proceeds.setConnection (h : s.Proceeds role t) {pc pc' : RTCPeerConnection}
    (hpc : t.peerConnection = some pc) (hstate : role.state pc'.signalingState) :
    s.Proceeds role (t.setConnection pc') where
  video := h.video.setConnection hstate
  me := h.me
  sent := h.sent
  connection := by
    rw [← h.connection, hpc]
    exact iff_of_false (Option.some_ne_none _) (Option.some_ne_none _)

theorem Extends.send (messages : List VideoMessage) (s : VideoClient) :
    s.Extends (s.send messages) messages [] :=
  ⟨rfl, rfl, rfl, (List.append_nil _).symm, rfl⟩

/-- The flushed queue of a client whose part allows what that leads to. -/
theorem Proceeds.flushLoop (h : s.Proceeds role t) {offerer : Option String}
    (hops : ∀ a : Await, a.flushes offerer → role.operation a) :
    s.Proceeds role (t.flushLoop offerer) := by
  obtain ⟨ops, he, hflushes⟩ := extends_flushLoop offerer t
  exact h.extend he (fun m hm => by cases hm) fun a ha => hops a (hflushes a ha)

theorem onConnection_eq {f : RTCPeerConnection → VideoClient} {pc : RTCPeerConnection}
    (hpc : s.peerConnection = some pc) : s.onConnection f = f pc := by
  rw [onConnection, hpc]

theorem Proceeds.changeState (h : s.InVideo role) (state : ConnectionState) :
    s.Proceeds role (s.changeState state) :=
  .of_extends h (extends_changeState state s) (List.forall_mem_nil _) (List.forall_mem_nil _)

theorem Proceeds.gather (h : s.InVideo role)
    (hice : ∀ targetID inst remote, role.message (.ice targetID inst remote)) :
    s.Proceeds role s.gather := by
  obtain ⟨ms, he, hms⟩ := extends_gather s
  apply Proceeds.of_extends h he _ (List.forall_mem_nil _)
  intro m hm
  obtain ⟨targetID, inst, remote, rfl⟩ := hms m hm
  exact hice targetID inst remote

end VideoClient

section Answerer

namespace VideoClient

variable {s t : VideoClient}

/-- The answerer waits for the caller when it is told of one, and takes every offer. -/
theorem InVideo.receive_answerer (h : s.InVideo .answerer) {p : VideoPacket}
    (hend : p.message ≠ .callEnd)
    (hjoin : ∀ targetID, p.message = .join targetID → targetID ≠ s.myClientID)
    (hlower : ¬ p.senderID < s.myClientID) : (s.handleSignalingMessage p).InVideo .answerer := by
  have hnew : VideoRole.answerer.state .stable := fun heq => by cases heq
  by_cases hoffer : ∃ targetID inst, p.message = .offer targetID inst
  · obtain ⟨targetID, inst, hm⟩ := hoffer
    have hactive : InVideo .answerer { s with isVideoCallActive := true } :=
      ⟨rfl, h.sent, h.awaiting, h.state⟩
    have happly (u : VideoClient) (hu : u.InVideo .answerer) :
        (u.applyOffer p.senderID inst).InVideo .answerer := by
      obtain ⟨ops, he, hops⟩ := extends_applyOffer p.senderID inst u
      refine hu.extend he (List.forall_mem_nil _) fun a ha => ?_
      obtain ⟨n, rfl⟩ := hops a ha
      trivial
    have hsetup : ({ s with isVideoCallActive := true }.setupPeerConnection p.senderID
        false).InVideo .answerer := hactive.setupPeerConnection hnew fun hinit => by cases hinit
    unfold handleSignalingMessage
    rw [hm]
    dsimp only
    unfold handleVideoOffer
    dsimp only
    split
    · exact h
    · split
      · exact happly _ hsetup
      · rename_i pc hpc
        -- an answerer has made no offer that could collide with this one
        rw [if_neg (h.state pc hpc)]
        split
        · exact happly _ hsetup
        · exact happly _ hactive
  · have hoffer' : ∀ targetID inst, p.message ≠ .offer targetID inst :=
      fun targetID inst hm => hoffer ⟨targetID, inst, hm⟩
    rcases receive_cases hend hoffer' hjoin with ⟨ops, he, hops⟩ | ⟨_, _, _, heq⟩
    · refine h.extend he (List.forall_mem_nil _) fun a ha => ?_
      -- its connections do not wait for answers
      obtain ⟨pc, hpc, hstate, _⟩ := hops a ha
      exact absurd hstate (h.state pc hpc)
    · rw [heq]
      exact h.setupPeerConnection hnew fun hinit => absurd (of_decide_eq_true hinit) hlower

theorem answerer_of_flushes {senderID : String} {a : Await} (ha : a.flushes (some senderID)) :
    VideoRole.answerer.operation a := by
  cases a with
  | addQueuedCandidate inst offerer =>
    obtain rfl : offerer = some senderID := ha
    trivial
  | createAnswer inst senderID' => trivial
  | _ => cases ha

theorem InVideo.act_answerer (h : s.InVideo .answerer) {e : VideoEvent} (he : e.InCall s)
    (hstep : videoStep s e = some t) : s.Proceeds .answerer t := by
  have hflush {u : VideoClient} (hp : s.Proceeds .answerer u) (inst : ℕ) (offerer : Option String)
      (ha : VideoRole.answerer.operation (.addQueuedCandidate inst offerer)) :
      s.Proceeds .answerer (u.flushLoop offerer) := by
    cases offerer with
    | none => cases ha
    | some senderID => exact hp.flushLoop fun _ => answerer_of_flushes
  cases e with
  | resolve n stream =>
    obtain ⟨a, hn, hstep⟩ := Option.bind_eq_some_iff.mp hstep
    have ha := h.awaiting a (List.mem_of_getElem? hn)
    have hp := Proceeds.resume h n
    split at hstep
    · rename_i hresolvable
      have hconnection :
          ({ s with awaiting := s.awaiting.eraseIdx n } : VideoClient).peerConnection =
            s.peerConnection := rfl
      rw [← Option.some.inj hstep]
      -- only that it proceeds is used of the client that has left off waiting
      generalize { s with awaiting := s.awaiting.eraseIdx n } = u at hp hconnection ⊢
      cases a with
      | setRemoteOffer inst senderID offered =>
        obtain ⟨pc, hpc, _⟩ := (Option.any_eq_true _ _).mp hresolvable
        rw [← hconnection] at hpc
        show s.Proceeds .answerer (u.onConnection _)
        rw [onConnection_eq hpc]
        refine (hp.setConnection hpc ?_).flushLoop fun _ => answerer_of_flushes
        exact fun heq => by cases heq
      | addQueuedCandidate inst offerer => exact hflush hp inst offerer ha
      | createAnswer inst senderID =>
        refine hp.extend (.await _ _) (List.forall_mem_nil _) fun b hb => ?_
        rw [List.mem_singleton.mp hb]
        trivial
      | setLocalAnswer inst senderID =>
        obtain ⟨pc, hpc, _⟩ := (Option.any_eq_true _ _).mp hresolvable
        rw [← hconnection] at hpc
        show s.Proceeds .answerer (u.onConnection _)
        rw [onConnection_eq hpc]
        refine (hp.setConnection hpc fun heq => by cases heq).extend (.send _ _) (fun m hm => ?_)
          (List.forall_mem_nil _)
        obtain ⟨d, _, rfl⟩ := Option.map_eq_some_iff.mp (Option.mem_toList.mp hm)
        trivial
      | _ => cases ha
    · cases hstep
  | reject n =>
    obtain ⟨a, hn, hstep⟩ := Option.map_eq_some_iff.mp hstep
    have ha := h.awaiting a (List.mem_of_getElem? hn)
    rw [← hstep]
    cases a with
    | addQueuedCandidate inst offerer => exact hflush (.resume h n) inst offerer ha
    | setRemoteOffer inst senderID offered => exact Proceeds.resume h n
    | createAnswer inst senderID => exact Proceeds.resume h n
    | setLocalAnswer inst senderID => exact Proceeds.resume h n
    | _ => cases ha
  | connectionStateChange state =>
    rw [← Option.some.inj hstep]
    exact .changeState h state
  | iceCandidate =>
    rw [← Option.some.inj hstep]
    exact .gather h fun _ _ _ => trivial
  | _ => cases he

end VideoClient

end Answerer

section Offerer

namespace VideoClient

variable {s t : VideoClient} {peer : String}

/-- The offerer sets up a connection for the caller and is about to offer it. -/
theorem InVideo.receive_offerer (h : s.InVideo (.offerer peer)) (hp : s.Pursues peer)
    {p : VideoPacket} (hend : p.message ≠ .callEnd)
    (hoffer : ∀ targetID inst, p.message ≠ .offer targetID inst)
    (hjoin : ∀ targetID, p.message = .join targetID → targetID ≠ s.myClientID)
    (hsender : p.senderID = peer ∨ p.senderID = s.myClientID) (hhigher : peer < s.myClientID) :
    (s.handleSignalingMessage p).InVideo (.offerer peer) ∧
      (s.handleSignalingMessage p).Pursues peer := by
  rcases receive_cases hend hoffer hjoin with ⟨ops, he, hops⟩ | ⟨_, hother, _, heq⟩
  · refine ⟨h.extend he (List.forall_mem_nil _) fun a ha => ?_,
      hp.extend he fun _ hm => by cases hm⟩
    obtain ⟨pc, _, _, answer, rfl⟩ := hops a ha
    trivial
  · obtain rfl : p.senderID = peer := hsender.resolve_right hother
    rw [heq, decide_eq_true hhigher]
    exact ⟨h.setupPeerConnection (fun heq => by cases heq) fun _ => ⟨rfl, rfl⟩,
      pursues_setupPeerConnection _ _ s⟩

/-- An operation that goes on with another one keeps the offer on its way. -/
theorem Pursues.goOn (h : s.Pursues peer) {n : ℕ} {a b : Await} (hn : s.awaiting[n]? = some a)
    (hb : ∀ inst, a.offers inst → b.offers inst) :
    ({ s with awaiting := s.awaiting.eraseIdx n }.await b).Pursues peer := by
  refine ⟨fun pc hpc => (h.connected pc hpc).imp_right ?_, h.unconnected⟩
  rintro ⟨c, hc, hoffers⟩
  obtain ⟨i, hi⟩ := List.mem_iff_getElem?.mp hc
  -- either it is this offer that goes on, or another one that is still waited for
  by_cases hin : i = n
  · obtain rfl : a = c := Option.some.inj (hn.symm.trans (hin ▸ hi))
    exact ⟨b, List.mem_append_right _ (List.mem_singleton_self b), hb _ hoffers⟩
  · exact ⟨c, List.mem_append_left _ (List.mem_eraseIdx_iff_getElem?.mpr ⟨i, hin, hi⟩), hoffers⟩

theorem Pursues.flushLoop (h : s.Pursues peer) (offerer : Option String) :
    (s.flushLoop offerer).Pursues peer := by
  obtain ⟨ops, he, _⟩ := extends_flushLoop offerer s
  exact h.extend he fun _ hm => by cases hm

theorem offerer_of_flushes {a : Await} (ha : a.flushes none) :
    (VideoRole.offerer peer).operation a := by
  cases a with
  | addQueuedCandidate inst offerer =>
    obtain rfl : offerer = none := ha
    trivial
  | _ => cases ha

theorem InVideo.act_offerer (h : s.InVideo (.offerer peer)) (hp : s.Pursues peer)
    {e : VideoEvent} (he : e.InCall s) (hstep : videoStep s e = some t) :
    s.Proceeds (.offerer peer) t ∧ t.Pursues peer := by
  have hflush {u : VideoClient} (hproceeds : s.Proceeds (.offerer peer) u)
      (hpursues : u.Pursues peer) (inst : ℕ) (offerer : Option String)
      (ha : (VideoRole.offerer peer).operation (.addQueuedCandidate inst offerer)) :
      s.Proceeds (.offerer peer) (u.flushLoop offerer) ∧ (u.flushLoop offerer).Pursues peer := by
    cases offerer with
    | none => exact ⟨hproceeds.flushLoop fun _ => offerer_of_flushes, hpursues.flushLoop none⟩
    | some senderID => cases ha
  cases e with
  | resolve n stream =>
    obtain ⟨a, hn, hstep⟩ := Option.bind_eq_some_iff.mp hstep
    have ha := h.awaiting a (List.mem_of_getElem? hn)
    have hresume := Proceeds.resume h n
    have herase (hno : a.isOffer = false) :
        Pursues peer { s with awaiting := s.awaiting.eraseIdx n } := by
      refine hp.erase fun b hb => ?_
      rw [Option.some.inj (Eq.trans hb.symm hn)]
      exact hno
    split at hstep
    · rename_i hresolvable
      rw [← Option.some.inj hstep]
      cases a with
      -- the operation goes on as an offerer's, and the offer under way is still to come
      | createOffer inst targetID change =>
        refine ⟨hresume.extend (.await _ _) (List.forall_mem_nil _) fun b hb => ?_,
          hp.goOn hn fun _ hoffers => hoffers⟩
        rw [List.mem_singleton.mp hb]
        exact ha
      | setLocalOffer inst targetID change =>
        obtain ⟨rfl, rfl⟩ := ha
        obtain ⟨pc, hpc, _⟩ := (Option.any_eq_true _ _).mp hresolvable
        have hpc' : ({ s with awaiting := s.awaiting.eraseIdx n } : VideoClient).peerConnection =
          some pc := hpc
        show s.Proceeds _ (onConnection _ _) ∧ (onConnection _ _).Pursues peer
        rw [onConnection_eq hpc']
        -- here the offer is made
        refine ⟨(hresume.setConnection hpc' fun heq => by cases heq).extend (.send _ _)
          (fun m hm => ?_) (List.forall_mem_nil _), fun _ _ => Or.inl ⟨inst, ?_⟩,
          fun hnone => by cases hnone⟩
        · rw [List.mem_singleton.mp hm]
          rfl
        · exact List.mem_append_right _ (List.mem_singleton_self _)
      | setRemoteAnswer inst answer =>
        obtain ⟨pc, hpc, _⟩ := (Option.any_eq_true _ _).mp hresolvable
        have hpc' : ({ s with awaiting := s.awaiting.eraseIdx n } : VideoClient).peerConnection =
          some pc := hpc
        show s.Proceeds _ (onConnection _ _) ∧ (onConnection _ _).Pursues peer
        rw [onConnection_eq hpc']
        have hpursues : ({ s with awaiting := s.awaiting.eraseIdx n }.setConnection
            (pc.describe .stable answer)).Pursues peer :=
          (herase rfl).setConnection hpc' rfl
        exact ⟨(hresume.setConnection hpc' fun heq => by cases heq).flushLoop fun _ =>
          offerer_of_flushes, hpursues.flushLoop none⟩
      | addQueuedCandidate inst offerer =>
        exact hflush hresume (herase rfl) inst offerer ha
      | _ => cases ha
    · cases hstep
  | reject n =>
    obtain ⟨a, hn, hstep⟩ := Option.map_eq_some_iff.mp hstep
    have ha := h.awaiting a (List.mem_of_getElem? hn)
    have hpursues : Pursues peer { s with awaiting := s.awaiting.eraseIdx n } := hp.erase he
    rw [← hstep]
    cases a with
    | addQueuedCandidate inst offerer => exact hflush (.resume h n) hpursues inst offerer ha
    | setRemoteAnswer inst answer => exact ⟨Proceeds.resume h n, hpursues⟩
    | createOffer inst targetID change => cases he _ hn
    | setLocalOffer inst targetID change => cases he _ hn
    | _ => cases ha
  | connectionStateChange state =>
    rw [← Option.some.inj hstep]
    exact ⟨.changeState h state, hp.extend (extends_changeState state s) fun _ hm => by cases hm⟩
  | iceCandidate =>
    rw [← Option.some.inj hstep]
    obtain ⟨ms, hextends, hms⟩ := extends_gather s
    refine ⟨.gather h fun _ _ _ => trivial, hp.extend hextends fun inst hm => ?_⟩
    obtain ⟨_, _, _, heq⟩ := hms _ hm
    cases heq
  | _ => cases he

end VideoClient

end Offerer

end TwoWayRadio

import TwoWayRadio.VideoRoles
import TwoWayRadio.VideoRoom

/-! Which of two clients in a video call offers: the one with the higher identifier, if it is in
the video when it is told that the other has joined. -/
namespace TwoWayRadio
open Transition VideoClient

/-- What a client of this part sends, its announcements included. -/
def VideoRole.Sends (role : VideoRole) (m : VideoMessage) : Prop :=
  m = .callStart false ∨ m = .join "" ∨ role.message m

theorem VideoClient.InVideo.sends {role : VideoRole} {s : VideoClient} (h : s.InVideo role) :
    ∀ m ∈ s.sent, role.Sends m := by
  obtain ⟨rest, hsent, hrest⟩ := h.sent
  intro m hm
  rw [hsent] at hm
  rcases List.mem_cons.mp hm with rfl | hm
  · exact Or.inl rfl
  · exact Or.inr ((List.mem_cons.mp hm).imp_right (hrest m))

namespace VideoRoom

/-- `x` and `y` start a video call, once each; nobody else does, nobody leaves, and no offer fails
to be made. -/
def OnlyTheTwo (x y : ClientRef) (r : VideoRoom) : RoomEvent → Prop
  | .act z .startVideoCall =>
    (z = x ∨ z = y) ∧ (r.client z).awaiting = [] ∧ (r.client z).sent = []
  | .act z e => e.InCall (r.client z)
  | _ => True

instance (x y : ClientRef) (r : VideoRoom) : ∀ e, Decidable (OnlyTheTwo x y r e)
  | .act _ .startVideoCall => inferInstanceAs (Decidable ((_ ∨ _) ∧ _ ∧ _))
  | .act _ .startScreenShare | .act _ .stopScreenShare | .act _ .flipCamera
  | .act _ .endVideoCall | .act _ (.changeChannel _) | .act _ (.receive _) => isFalse id
  | .act z (.resolve n stream) => VideoEvent.decidableInCall (r.client z) (.resolve n stream)
  | .act z (.reject n) => VideoEvent.decidableInCall (r.client z) (.reject n)
  | .act _ (.connectionStateChange _) | .act _ .iceCandidate => isTrue trivial
  | .relay _ | .deliver .. => isTrue trivial

/-- All the announcements of `x` and `y` have been handled, by the hub and by both of them, and no
offer is on its way to the hub. -/
def Settled (x y : ClientRef) (r : VideoRoom) : Prop :=
  ∀ z ∈ [x, y], .join "" ∈ (r.client z).sent.take (r.taken z) ∧
    (∀ p ∈ r.inbox z .send, p.message.calls = false) ∧
    ∀ a ∈ (r.client z).awaiting, a.isOffer = true → (r.client z).Resolvable a = false

instance (x y : ClientRef) (r : VideoRoom) : Decidable (Settled x y r) :=
  inferInstanceAs (Decidable (∀ z ∈ [x, y], _ ∧ _ ∧ ∀ _ ∈ _, _ → _))

def Offered (x y : ClientRef) (r : VideoRoom) : Prop :=
  (r.client x).HasOffered (r.client y).myClientID

/-- Whichever of the two has the higher identifier is in the video when it handles the join of the
other. -/
def HigherInVideo (x y : ClientRef) (r : VideoRoom) : RoomEvent → Prop
  | .deliver z .send => (z = x ∨ z = y) → ∀ p ∈ (r.inbox z .send).head?, p.message = .join "" →
    p.senderID < (r.client z).myClientID → (r.client z).isVideoCallActive = true
  | _ => True

variable {lo hi : ClientRef} {ids : ClientRef → String} {r t : VideoRoom}

/-- The announcements of `lo` that `hi` has not handled, oldest first. -/
def ahead (lo hi : ClientRef) (r : VideoRoom) : List VideoMessage :=
  ((((r.inbox hi .send).filter fun p => p.senderID = (r.client lo).myClientID).map
    fun p => p.message) ++ (r.client lo).sent.drop (r.taken lo)).filter VideoMessage.calls

/-- A packet for `z` is one that `lo`, as the answerer, or `hi`, as the offerer, has sent. Offers
are for `lo` alone, after it has joined. -/
def Proper (lo hi : ClientRef) (r : VideoRoom) (z : ClientRef) (p : VideoPacket) : Prop :=
  (p.senderID = (r.client lo).myClientID ∧ (r.client lo).sent ≠ [] ∧
      VideoRole.answerer.Sends p.message) ∨
    (p.senderID = (r.client hi).myClientID ∧
      (VideoRole.offerer (r.client lo).myClientID).Sends p.message ∧
      ∀ targetID inst, p.message = .offer targetID inst → z = lo ∧ (r.client lo).sent ≠ [])

/-- The part of `z` in a call between `lo`, whose identifier is `peer`, and `hi`. -/
structure Plays (lo hi : ClientRef) (peer : String) (z : ClientRef) (s : VideoClient) : Prop where
  lower : z = lo → s.Outside ∨ s.InVideo .answerer
  higher : z = hi → s.Outside ∨ (s.InVideo (.offerer peer) ∧ s.Pursues peer)
  other : z ≠ lo → z ≠ hi → s.Outside ∧ s.awaiting = []

/-- The room of a call between `lo` and `hi`. -/
structure Negotiating (lo hi : ClientRef) (r : VideoRoom) : Prop where
  lower_lt : (r.client lo).myClientID < (r.client hi).myClientID
  nonempty : ∀ z, (r.client z).myClientID ≠ ""
  hears : hi ∈ r.members
  byID : r.byID (r.client lo).myClientID = some lo
  plays : ∀ z, Plays lo hi (r.client lo).myClientID z (r.client z)
  called : (r.client hi).peerConnection ≠ none → (r.client lo).sent ≠ []
  packets : ∀ z queue, ∀ p ∈ r.inbox z queue, Proper lo hi r z p
  urgent : ∀ z, ∀ p ∈ r.inbox z .highPri, p.message.calls = false
  taken : r.taken lo ≤ (r.client lo).sent.length
  ahead : r.ahead lo hi <:+ (r.client lo).sent.filter VideoMessage.calls

end VideoRoom

namespace VideoClient

variable {s t : VideoClient} {peer : String}

/-- A step of a client by itself, as the others can see it. -/
structure Moves (s t : VideoClient) : Prop where
  me : t.myClientID = s.myClientID
  connection : t.peerConnection = none ↔ s.peerConnection = none
  sent : ∃ ms, t.sent = s.sent ++ ms ∧
    (ms.filter VideoMessage.calls = [] ∧ (s.sent = [] → ms = []) ∨
      s.sent = [] ∧ ms = [.callStart false, .join ""])

theorem Extends.moves {ops : List Await} (h : s.Extends t [] ops) : s.Moves t :=
  ⟨h.me, by rw [← link_eq_none, h.link, link_eq_none], [], h.sent, Or.inl ⟨rfl, fun _ => rfl⟩⟩

theorem Proceeds.moves {role : VideoRole} (hrole : ∀ m, role.message m → m.calls = false)
    (hs : s.InVideo role) (h : s.Proceeds role t) : s.Moves t := by
  obtain ⟨ms, hsent, hms⟩ := h.sent
  have hcalls : ms.filter VideoMessage.calls = [] := by
    refine List.filter_eq_nil_iff.mpr fun m hm => ?_
    rw [hrole m (hms m hm)]
    exact Bool.false_ne_true
  refine ⟨h.me, h.connection, ms, hsent, Or.inl ⟨hcalls, fun hnil => ?_⟩⟩
  obtain ⟨rest, hstarted, _⟩ := hs.sent
  rw [hnil] at hstarted
  cases hstarted

theorem answerer_calls (m : VideoMessage) (hm : VideoRole.answerer.message m) :
    m.calls = false := by
  cases m with
  | callStart => cases hm
  | join => cases hm
  | _ => rfl

theorem offerer_calls (m : VideoMessage) (hm : (VideoRole.offerer peer).message m) :
    m.calls = false := by
  cases m with
  | callStart => cases hm
  | join => cases hm
  | _ => rfl

/-- Entering the video. -/
theorem Outside.start (h : s.Outside) (hnone : s.awaiting = []) :
    s.startVideoCall.Outside ∧ s.Moves s.startVideoCall := by
  unfold startVideoCall
  rw [if_neg (by simp [h.inactive])]
  refine ⟨⟨h.inactive, h.unconnected, h.sent, Or.inr ?_⟩, (Extends.await _ s).moves⟩
  rw [(Extends.await _ s).awaiting, hnone]
  rfl

theorem Outside.moves (peer : String) (h : s.Outside) {e : VideoEvent} (he : e.InCall s)
    (hstep : videoStep s e = some t) : s.Moves t ∧ ((t.Outside ∧ t.awaiting = s.awaiting) ∨
      (s.awaiting ≠ [] ∧ (∀ role, t.InVideo role) ∧ t.Pursues peer)) := by
  rcases h.act he hstep with hextends | ⟨hsome, rfl⟩
  · exact ⟨hextends.moves, Or.inl (h.of_extends hextends)⟩
  · refine ⟨⟨rfl, Iff.rfl, _, ?_, Or.inr ⟨h.sent, rfl⟩⟩, Or.inr ⟨hsome, fun role => ?_, ?_⟩⟩
    · rw [h.sent]
      rfl
    · exact .of_entered role rfl rfl rfl h.unconnected
    · refine ⟨fun pc hpc => ?_, fun _ => ?_⟩
      · rw [h.unconnected] at hpc
        cases hpc
      · rintro ⟨inst, hm⟩
        simp at hm

end VideoClient

namespace VideoRoom

variable {lo hi : ClientRef} {r t : VideoRoom}

theorem Plays.start {peer : String} {z : ClientRef} {s : VideoClient}
    (h : Plays lo hi peer z s) (hz : z = lo ∨ z = hi) (hawaiting : s.awaiting = [])
    (hsent : s.sent = []) : Plays lo hi peer z s.startVideoCall ∧ s.Moves s.startVideoCall := by
  have hout {role : VideoRole} (hvideo : s.InVideo role) : s.Outside := by
    obtain ⟨rest, hstarted, _⟩ := hvideo.sent
    rw [hsent] at hstarted
    cases hstarted
  have houtside : s.Outside := by
    rcases hz with hz | hz
    · exact (h.lower hz).elim (fun hs => hs) hout
    · exact (h.higher hz).elim (fun hs => hs) fun hs => hout hs.1
  obtain ⟨hstart, hmoves⟩ := houtside.start hawaiting
  exact ⟨⟨fun _ => Or.inl hstart, fun _ => Or.inl hstart, fun hlo hhi => (hz.elim hlo hhi).elim⟩,
    hmoves⟩

/-- Each goes on in its part, by itself. -/
theorem Plays.act {peer : String} {z : ClientRef} {s s' : VideoClient} {e : VideoEvent}
    (h : Plays lo hi peer z s) (hne : lo ≠ hi) (he : e.InCall s) (hstep : videoStep s e = some s') :
    Plays lo hi peer z s' ∧ s.Moves s' := by
  by_cases hlo : z = lo
  · have hhi : z ≠ hi := fun hz => hne (hlo.symm.trans hz)
    rcases h.lower hlo with hout | hvideo
    · obtain ⟨hmoves, hs⟩ := hout.moves peer he hstep
      exact ⟨⟨fun _ => hs.imp (fun hs => hs.1) fun hs => hs.2.1 _, fun hz => (hhi hz).elim,
        fun hz => (hz hlo).elim⟩, hmoves⟩
    · have hproceeds := hvideo.act_answerer he hstep
      exact ⟨⟨fun _ => Or.inr hproceeds.video, fun hz => (hhi hz).elim,
        fun hz => (hz hlo).elim⟩, hproceeds.moves answerer_calls hvideo⟩
  · by_cases hhi : z = hi
    · rcases h.higher hhi with hout | ⟨hvideo, hpursues⟩
      · obtain ⟨hmoves, hs⟩ := hout.moves peer he hstep
        exact ⟨⟨fun hz => (hlo hz).elim, fun _ => hs.imp (fun hs => hs.1) fun hs =>
          ⟨hs.2.1 _, hs.2.2⟩, fun _ hz => (hz hhi).elim⟩, hmoves⟩
      · obtain ⟨hproceeds, hpursues⟩ := hvideo.act_offerer hpursues he hstep
        exact ⟨⟨fun hz => (hlo hz).elim, fun _ => Or.inr ⟨hproceeds.video, hpursues⟩,
          fun _ hz => (hz hhi).elim⟩, hproceeds.moves offerer_calls hvideo⟩
    · obtain ⟨hout, hnone⟩ := h.other hlo hhi
      obtain ⟨hmoves, hs⟩ := hout.moves peer he hstep
      rcases hs with ⟨hout', hsame⟩ | ⟨hsome, _⟩
      · exact ⟨⟨fun hz => (hlo hz).elim, fun hz => (hhi hz).elim,
          fun _ _ => ⟨hout', hsame.trans hnone⟩⟩, hmoves⟩
      · exact absurd hnone hsome

section Packets

variable {z : ClientRef} {p : VideoPacket}

theorem Proper.sender (hp : Proper lo hi r z p) :
    p.senderID = (r.client lo).myClientID ∨ p.senderID = (r.client hi).myClientID :=
  hp.imp (fun h => h.1) fun h => h.1

theorem Proper.not_end (hp : Proper lo hi r z p) : p.message ≠ .callEnd := by
  intro hend
  rcases hp with ⟨_, _, hm⟩ | ⟨_, hm, _⟩
  · rw [hend] at hm
    rcases hm with hm | hm | hm <;> cases hm
  · rw [hend] at hm
    rcases hm with hm | hm | hm <;> cases hm

theorem Proper.join (hp : Proper lo hi r z p) {targetID : String}
    (hjoin : p.message = .join targetID) : targetID = "" := by
  rcases hp with ⟨_, _, hm⟩ | ⟨_, hm, _⟩
  · rw [hjoin] at hm
    rcases hm with hm | hm | hm <;> cases hm
    rfl
  · rw [hjoin] at hm
    rcases hm with hm | hm | hm <;> cases hm
    rfl

/-- Offers are for `lo`, who is in the video. -/
theorem Proper.offer (hp : Proper lo hi r z p) {targetID : String} {inst : ℕ}
    (hoffer : p.message = .offer targetID inst) :
    z = lo ∧ (r.client lo).sent ≠ [] := by
  rcases hp with ⟨_, _, hm⟩ | ⟨_, _, h⟩
  · rw [hoffer] at hm
    rcases hm with hm | hm | hm <;> cases hm
  · exact h targetID inst hoffer

/-- A packet stays as it should be while the clients keep their identifiers and `lo` what it has
sent. -/
theorem Proper.mono (hp : Proper lo hi r z p)
    (hlo : (t.client lo).myClientID = (r.client lo).myClientID)
    (hhi : (t.client hi).myClientID = (r.client hi).myClientID)
    (hsent : (r.client lo).sent ≠ [] → (t.client lo).sent ≠ []) : Proper lo hi t z p := by
  unfold Proper
  rw [hlo, hhi]
  exact hp.imp (fun h => ⟨h.1, hsent h.2.1, h.2.2⟩) fun h =>
    ⟨h.1, h.2.1, fun targetID inst hm => (h.2.2 targetID inst hm).imp_right hsent⟩

/-- Every join is for everybody. -/
theorem Negotiating.joins (h : Negotiating lo hi r) (hp : Proper lo hi r z p) (w : ClientRef) :
    ∀ targetID, p.message = .join targetID → targetID ≠ (r.client w).myClientID := by
  intro targetID hm
  rw [hp.join hm]
  exact (h.nonempty w).symm

/-- A client keeps to its part when it handles a packet. -/
theorem Negotiating.receive (h : Negotiating lo hi r) (hp : Proper lo hi r z p) :
    Plays lo hi (r.client lo).myClientID z ((r.client z).handleSignalingMessage p) := by
  have hjoin := h.joins hp z
  have hnotoffer (hz : z ≠ lo ∨ (r.client lo).Outside) :
      ∀ targetID inst, p.message ≠ .offer targetID inst := by
    intro targetID inst hm
    obtain ⟨hlo, hsent⟩ := hp.offer hm
    exact hz.elim (fun hz => hz hlo) fun hout => hsent hout.sent
  have houtside (hout : (r.client z).Outside) (hz : z ≠ lo ∨ (r.client lo).Outside) :=
    hout.of_extends (hout.receive hp.not_end (hnotoffer hz) hjoin)
  constructor
  · rintro rfl
    rcases (h.plays z).lower rfl with hout | hvideo
    · exact Or.inl (houtside hout (Or.inr hout)).1
    · refine Or.inr (hvideo.receive_answerer hp.not_end hjoin ?_)
      rcases hp.sender with hs | hs
      · rw [hs]
        exact String.lt_irrefl _
      · rw [hs]
        exact String.lt_asymm h.lower_lt
  · rintro rfl
    have hz : z ≠ lo := fun hz => String.lt_irrefl _ (hz ▸ h.lower_lt)
    rcases (h.plays z).higher rfl with hout | ⟨hvideo, hpursues⟩
    · exact Or.inl (houtside hout (Or.inl hz)).1
    · exact Or.inr (hvideo.receive_offerer hpursues hp.not_end (hnotoffer (Or.inl hz)) hjoin
        hp.sender h.lower_lt)
  · intro hlo hhi
    obtain ⟨hout, hnone⟩ := (h.plays z).other hlo hhi
    exact (houtside hout (Or.inl hlo)).imp_right fun hsame => hsame.trans hnone

/-- Only the announcements of `lo` change the connection of `hi` at once. -/
theorem Negotiating.link_receive (h : Negotiating lo hi r) (hp : Proper lo hi r hi p)
    (hother : ¬ (p.senderID = (r.client lo).myClientID ∧ p.message.calls = true)) :
    ((r.client hi).handleSignalingMessage p).link = (r.client hi).link := by
  refine receive_link hp.not_end (fun targetID inst hm => ?_) (h.joins hp hi) fun hsender => ?_
  · exact String.lt_irrefl _ ((hp.offer hm).1 ▸ h.lower_lt)
  · refine Bool.eq_false_iff.mpr fun hcalls => hother ⟨?_, hcalls⟩
    exact hp.sender.resolve_right hsender

end Packets

section Ahead

variable {z : ClientRef}

/-- What `lo` sends is ahead of `hi`, after what is so already. -/
theorem ahead_send {ms : List VideoMessage} (htaken : r.taken lo ≤ (r.client lo).sent.length)
    (hinbox : t.inbox hi .send = r.inbox hi .send) (htaken' : t.taken lo = r.taken lo)
    (hme : (t.client lo).myClientID = (r.client lo).myClientID)
    (hsent : (t.client lo).sent = (r.client lo).sent ++ ms) :
    t.ahead lo hi = r.ahead lo hi ++ ms.filter VideoMessage.calls := by
  unfold ahead
  rw [hinbox, htaken', hme, hsent, List.drop_append_of_le_length htaken, ← List.append_assoc,
    List.filter_append]

/-- The head of the queue of `hi` leaves it. -/
theorem ahead_take {p : VideoPacket} {rest : List VideoPacket}
    (hinbox : r.inbox hi .send = p :: rest) (hinbox' : t.inbox hi .send = rest)
    (htaken : t.taken lo = r.taken lo) (hme : (t.client lo).myClientID = (r.client lo).myClientID)
    (hsent : (t.client lo).sent = (r.client lo).sent) :
    r.ahead lo hi = (if p.senderID = (r.client lo).myClientID ∧ p.message.calls = true then
      [p.message] else []) ++ t.ahead lo hi := by
  unfold ahead
  rw [hinbox, hinbox', htaken, hme, hsent, List.filter_cons]
  by_cases hsender : p.senderID = (r.client lo).myClientID
  · by_cases hcalls : p.message.calls = true
    · simp [hsender, hcalls]
    · simp [hsender, hcalls]
  · simp [hsender]

theorem mem_relay {x : ClientRef} {m : VideoMessage} {queue : QueueKind} {p : VideoPacket}
    (hp : p ∈ (r.relay x m).inbox z queue) : p ∈ r.inbox z queue ∨
      (p = r.packet x m ∧
        (z, queue) ∈ (r.packet x m).recipients r.members r.byID r.activeVideo) := by
  refine (List.mem_append.mp hp).imp_right fun hnew => ?_
  obtain ⟨q, hq, rfl⟩ := List.mem_map.mp hnew
  obtain ⟨hmem, heq⟩ := List.mem_filter.mp hq
  exact ⟨rfl, of_decide_eq_true heq ▸ hmem⟩

/-- What is queued after a delivery was queued before it. -/
theorem mem_deliver {z : ClientRef} {queue : QueueKind} {p : VideoPacket}
    {rest : List VideoPacket} (hinbox : r.inbox z queue = p :: rest) {w : ClientRef}
    {queue' : QueueKind} {q : VideoPacket}
    (hq : q ∈ Function.update r.inbox z (Function.update (r.inbox z) queue rest) w queue') :
    q ∈ r.inbox w queue' := by
  by_cases hw : w = z
  · subst hw
    rw [Function.update_self] at hq
    by_cases hqueue : queue' = queue
    · subst hqueue
      rw [Function.update_self] at hq
      rw [hinbox]
      exact List.mem_cons_of_mem p hq
    · rwa [Function.update_of_ne hqueue] at hq
  · rwa [Function.update_of_ne hw] at hq

theorem recipients_of_announcement {p : VideoPacket} (hcalls : p.message.calls = true) :
    p.recipients r.members r.byID r.activeVideo =
      r.members.map fun y => (y, QueueKind.send) := by
  unfold VideoPacket.recipients
  cases hm : p.message with
  | callStart => rfl
  | join => rfl
  | _ =>
    rw [hm] at hcalls
    cases hcalls

/-- An announcement reaches everybody once. -/
theorem recipients_of_calls {p : VideoPacket} (hcalls : p.message.calls = true)
    (hears : z ∈ r.members) :
    ((p.recipients r.members r.byID r.activeVideo).filter (· = (z, QueueKind.send))) =
      [(z, .send)] := by
  have hnodup : (r.members.map fun y => (y, QueueKind.send)).Nodup :=
    r.nodup.map fun y y' heq => congrArg Prod.fst heq
  rw [recipients_of_announcement hcalls, List.filter_eq,
    List.count_eq_one_of_mem hnodup (List.mem_map_of_mem hears)]
  rfl

/-- What the hub has taken from `lo` is as far ahead of `hi` as before. -/
theorem Negotiating.ahead_relay (h : Negotiating lo hi r) {x : ClientRef} {m : VideoMessage}
    (hm : (r.client x).sent[r.taken x]? = some m) : (r.relay x m).ahead lo hi = r.ahead lo hi := by
  obtain ⟨hlt, hget⟩ := List.getElem?_eq_some_iff.mp hm
  let news := (((r.packet x m).recipients r.members r.byID r.activeVideo).filter
    (· = (hi, QueueKind.send))).map fun _ => r.packet x m
  have hrelay : (r.relay x m).ahead lo hi =
      ((((r.inbox hi .send ++ news).filter fun p => p.senderID = (r.client lo).myClientID).map
        fun p => p.message) ++ (r.client lo).sent.drop
          (Function.update r.taken x (r.taken x + 1) lo)).filter VideoMessage.calls := rfl
  rw [hrelay]
  unfold VideoRoom.ahead
  by_cases hx : x = lo
  · subst hx
    rw [Function.update_self, List.drop_eq_getElem_cons hlt, hget]
    by_cases hcalls : m.calls = true
    · have hnews : news = [r.packet x m] := by
        show ((VideoPacket.recipients _ _ _ _).filter _).map _ = _
        rw [recipients_of_calls hcalls h.hears]
        rfl
      simp [hnews, packet, hcalls]
    · have hnews : ((news.filter fun p => p.senderID = (r.client x).myClientID).map
          fun p => p.message).filter VideoMessage.calls = [] := by
        refine List.filter_eq_nil_iff.mpr fun m' hm' => ?_
        obtain ⟨p, hp, rfl⟩ := List.mem_map.mp hm'
        obtain ⟨_, _, rfl⟩ := List.mem_map.mp (List.mem_filter.mp hp).1
        exact hcalls
      simp only [List.filter_append, List.map_append, hnews, List.filter_cons_of_neg hcalls,
        List.append_nil]
  · -- only `hi` can be the sender, and its packets are not counted
    have hhi : x = hi := by
      by_contra hhi
      rw [((h.plays x).other hx hhi).1.sent] at hlt
      exact absurd hlt (Nat.not_lt_zero _)
    have hnews : news.filter (fun p => p.senderID = (r.client lo).myClientID) = [] := by
      refine List.filter_eq_nil_iff.mpr fun p hp => ?_
      obtain ⟨_, _, rfl⟩ := List.mem_map.mp hp
      rw [decide_eq_true_eq]
      show (r.client x).myClientID ≠ (r.client lo).myClientID
      rw [hhi]
      exact fun heq => String.lt_irrefl _ (heq ▸ h.lower_lt)
    simp only [Function.update_of_ne (Ne.symm hx), List.filter_append, hnews, List.append_nil]

end Ahead

/-- What the hub passes on is as it should be. -/
theorem Negotiating.proper_packet (h : Negotiating lo hi r) {x z : ClientRef} {m : VideoMessage}
    {queue : QueueKind} (hm : (r.client x).sent[r.taken x]? = some m)
    (hrecipient : (z, queue) ∈ (r.packet x m).recipients r.members r.byID r.activeVideo) :
    Proper lo hi r z (r.packet x m) := by
  have hmem : m ∈ (r.client x).sent := List.mem_of_getElem? hm
  have hsent : (r.client x).sent ≠ [] := List.ne_nil_of_mem hmem
  by_cases hlo : x = lo
  · subst hlo
    have hvideo := ((h.plays x).lower rfl).resolve_left fun hout => hsent hout.sent
    exact Or.inl ⟨rfl, hsent, hvideo.sends m hmem⟩
  · by_cases hhi : x = hi
    · subst hhi
      obtain ⟨hvideo, hpursues⟩ :=
        ((h.plays x).higher rfl).resolve_left fun hout => hsent hout.sent
      refine Or.inr ⟨rfl, hvideo.sends m hmem, fun targetID inst hoffer => ?_⟩
      obtain rfl : m = .offer targetID inst := hoffer
      obtain rfl : targetID = (r.client lo).myClientID := by
        rcases hvideo.sends _ hmem with hs | hs | hs
        · cases hs
        · cases hs
        · exact hs
      constructor
      · unfold VideoPacket.recipients at hrecipient
        dsimp only [packet] at hrecipient
        rw [if_neg (h.nonempty lo), h.byID] at hrecipient
        exact congrArg Prod.fst (List.mem_singleton.mp hrecipient)
      · refine h.called fun hnone => hpursues.unconnected hnone ⟨inst, hmem⟩
    · exact absurd ((h.plays x).other hlo hhi).1.sent hsent

/-- A client moves or handles a packet of its queue. -/
theorem Negotiating.update (h : Negotiating lo hi r) {z : ClientRef} {s : VideoClient}
    (hclient : t.client = Function.update r.client z s) (hmembers : t.members = r.members)
    (hbyID : t.byID = r.byID) (htaken : t.taken = r.taken)
    (hinbox : ∀ w queue, ∀ p ∈ t.inbox w queue, p ∈ r.inbox w queue)
    (hplays : Plays lo hi (r.client lo).myClientID z s)
    (hme : s.myClientID = (r.client z).myClientID) {ms : List VideoMessage}
    (hsent : s.sent = (r.client z).sent ++ ms)
    (hcalled : z = hi → s.peerConnection ≠ none → (r.client lo).sent ≠ [])
    (hahead : t.ahead lo hi <:+ (t.client lo).sent.filter VideoMessage.calls) :
    Negotiating lo hi t := by
  have hself : t.client z = s := by rw [hclient, Function.update_self]
  have hother {w : ClientRef} (hw : w ≠ z) : t.client w = r.client w := by
    rw [hclient, Function.update_of_ne hw]
  have hids : ∀ w, (t.client w).myClientID = (r.client w).myClientID := by
    intro w
    by_cases hw : w = z
    · rw [hw, hself, hme]
    · rw [hother hw]
  have hgrows : ∀ w, ∃ ms, (t.client w).sent = (r.client w).sent ++ ms := by
    intro w
    by_cases hw : w = z
    · rw [hw, hself]
      exact ⟨ms, hsent⟩
    · rw [hother hw]
      exact ⟨[], (List.append_nil _).symm⟩
  -- the packets of `lo`, and what they did to `hi`, stay covered by what `lo` has sent
  have hstarted : (r.client lo).sent ≠ [] → (t.client lo).sent ≠ [] := by
    obtain ⟨ms, hms⟩ := hgrows lo
    rw [hms]
    exact fun hne hnil => hne (List.append_eq_nil_iff.mp hnil).1
  refine ⟨?_, fun w => ?_, ?_, ?_, fun w => ?_, fun hpc => hstarted ?_, fun w queue p hp => ?_,
    fun w p hp => h.urgent w p (hinbox w _ p hp), ?_, hahead⟩
  · rw [hids, hids]
    exact h.lower_lt
  · rw [hids]
    exact h.nonempty w
  · rw [hmembers]
    exact h.hears
  · rw [hids, hbyID]
    exact h.byID
  · rw [hids lo]
    by_cases hw : w = z
    · rw [hw, hself]
      exact hplays
    · rw [hother hw]
      exact h.plays w
  · by_cases hz : hi = z
    · rw [hz, hself] at hpc
      exact hcalled hz.symm hpc
    · rw [hother hz] at hpc
      exact h.called hpc
  · exact (h.packets w queue p (hinbox w queue p hp)).mono (hids lo) (hids hi) hstarted
  · obtain ⟨ms, hms⟩ := hgrows lo
    rw [htaken, hms, List.length_append]
    exact Nat.le_add_right_of_le h.taken

/-- What a client does of itself in such a room. -/
theorem Negotiating.act (h : Negotiating lo hi r) {z : ClientRef} {e : VideoEvent}
    (he : OnlyTheTwo lo hi r (.act z e)) (hstep : roomStep r (.act z e) = some t) :
    ∃ s, t = { r with client := Function.update r.client z s } ∧
      Plays lo hi (r.client lo).myClientID z s ∧ (r.client z).Moves s := by
  have hne : lo ≠ hi := fun heq => String.lt_irrefl _ (heq ▸ h.lower_lt)
  obtain ⟨s, hs, rfl⟩ := roomStep_act hstep
  refine ⟨s, rfl, ?_⟩
  cases e with
  | startVideoCall =>
    obtain ⟨hz, hawaiting, hsent⟩ := he
    rw [← Option.some.inj hs]
    exact (h.plays z).start hz hawaiting hsent
  | _ =>
    refine (h.plays z).act hne ?_ hs
    exact he

/-- What `lo` does of itself adds its announcements to what is ahead, when it enters the video. -/
theorem Negotiating.ahead_act (h : Negotiating lo hi r) {z : ClientRef} {s : VideoClient}
    (ht : t = { r with client := Function.update r.client z s }) (hs : (r.client z).Moves s) :
    ∃ ms, (t.client lo).sent = (r.client lo).sent ++ ms ∧
      t.ahead lo hi = r.ahead lo hi ++ ms.filter VideoMessage.calls ∧
      (ms.filter VideoMessage.calls = [] ∧ ((r.client lo).sent = [] → ms = []) ∨
        (r.client lo).sent = [] ∧ ms = [.callStart false, .join ""]) := by
  subst ht
  by_cases hz : lo = z
  · obtain ⟨ms, hms, hcalls⟩ := hs.sent
    have hclient : Function.update r.client z s lo = s := by rw [hz, Function.update_self]
    rw [← hz] at hms hcalls
    have hsent : (Function.update r.client z s lo).sent = (r.client lo).sent ++ ms := by
      rw [hclient, hms]
    refine ⟨ms, hsent, ahead_send h.taken rfl rfl ?_ hsent, hcalls⟩
    show (Function.update r.client z s lo).myClientID = _
    rw [hclient, hs.me, hz]
  · have hclient : Function.update r.client z s lo = r.client lo := Function.update_of_ne hz _ _
    have hsent : (Function.update r.client z s lo).sent = (r.client lo).sent ++ [] := by
      rw [hclient, List.append_nil]
    exact ⟨[], hsent, ahead_send h.taken rfl rfl (congrArg _ hclient) hsent,
      Or.inl ⟨rfl, fun _ => rfl⟩⟩

/-- What a delivery takes from what is ahead. -/
theorem Negotiating.ahead_deliver (h : Negotiating lo hi r) {z : ClientRef} {queue : QueueKind}
    {p : VideoPacket} {rest : List VideoPacket} (hinbox : r.inbox z queue = p :: rest)
    (ht : t = { r with
      client := Function.update r.client z ((r.client z).handleSignalingMessage p)
      inbox := Function.update r.inbox z (Function.update (r.inbox z) queue rest) }) :
    (t.client lo).sent = (r.client lo).sent ∧
      r.ahead lo hi = (if (z = hi ∧ queue = .send) ∧
        p.senderID = (r.client lo).myClientID ∧ p.message.calls = true then [p.message] else []) ++
          t.ahead lo hi := by
  have hp : Proper lo hi r z p := h.packets z queue p (hinbox ▸ List.mem_cons_self)
  obtain ⟨hsent, hme⟩ := receive_keeps hp.not_end (h.joins hp z)
  have hupdate : t.client =
      Function.update r.client z ((r.client z).handleSignalingMessage p) := by rw [ht]
  have hqueues : t.inbox = Function.update r.inbox z (Function.update (r.inbox z) queue rest) := by
    rw [ht]
  have hclient : (t.client lo).sent = (r.client lo).sent ∧
      (t.client lo).myClientID = (r.client lo).myClientID := by
    rw [hupdate]
    by_cases hz : lo = z
    · rw [hz]
      exact ⟨by rw [Function.update_self, hsent], by rw [Function.update_self, hme]⟩
    · exact ⟨by rw [Function.update_of_ne hz], by rw [Function.update_of_ne hz]⟩
  have htaken : t.taken lo = r.taken lo := by rw [ht]
  refine ⟨hclient.1, ?_⟩
  by_cases hqueue : z = hi ∧ queue = .send
  · obtain ⟨rfl, rfl⟩ := hqueue
    have hrest : t.inbox z .send = rest := by
      rw [hqueues, Function.update_self, Function.update_self]
    rw [ahead_take hinbox hrest htaken hclient.2 hclient.1]
    simp only [and_self, true_and]
  · have hsame : t.inbox hi .send = r.inbox hi .send := by
      rw [hqueues]
      by_cases hz : hi = z
      · rw [hz, Function.update_self, Function.update_of_ne]
        exact fun hs => hqueue ⟨hz.symm, hs.symm⟩
      · rw [Function.update_of_ne hz]
    rw [if_neg fun hc => hqueue hc.1, List.nil_append,
      ahead_send h.taken hsame htaken hclient.2 (hclient.1.trans (List.append_nil _).symm)]
    exact (List.append_nil _).symm

theorem Negotiating.step (h : Negotiating lo hi r) {e : RoomEvent} (he : OnlyTheTwo lo hi r e)
    (hstep : roomStep r e = some t) : Negotiating lo hi t := by
  cases e with
  | act z e =>
    obtain ⟨s, rfl, hplays, hmoves⟩ := h.act he hstep
    obtain ⟨ms, hsent, hahead, _⟩ := h.ahead_act rfl hmoves
    obtain ⟨ms', hms', _⟩ := hmoves.sent
    refine h.update rfl rfl rfl rfl (fun _ _ _ hp => hp) hplays hmoves.me hms' (fun hz hpc => ?_) ?_
    · exact h.called (hz ▸ mt hmoves.connection.mpr hpc)
    · rw [hsent, hahead, List.filter_append]
      obtain ⟨before, hbefore⟩ := h.ahead
      exact ⟨before, by rw [← List.append_assoc, hbefore]⟩
  | relay z =>
    obtain ⟨m, hm, rfl⟩ := Option.map_eq_some_iff.mp hstep
    refine ⟨h.lower_lt, h.nonempty, h.hears, h.byID, h.plays, h.called, fun w queue p hp => ?_,
      fun w p hp => ?_, ?_, ?_⟩
    · exact (mem_relay hp).elim (h.packets w queue p) fun ⟨heq, hrecipient⟩ =>
        heq ▸ h.proper_packet hm hrecipient
    · -- an announcement is broadcast, and so not put into the urgent queue
      refine (mem_relay hp).elim (h.urgent w p) fun ⟨heq, hrecipient⟩ => ?_
      rw [heq]
      refine Bool.eq_false_iff.mpr fun hcalls => ?_
      rw [recipients_of_announcement hcalls] at hrecipient
      obtain ⟨_, _, hqueue⟩ := List.mem_map.mp hrecipient
      cases hqueue
    · obtain ⟨hlt, _⟩ := List.getElem?_eq_some_iff.mp hm
      show Function.update r.taken z (r.taken z + 1) lo ≤ (r.client lo).sent.length
      by_cases hz : lo = z
      · subst hz
        rw [Function.update_self]
        exact hlt
      · rw [Function.update_of_ne hz]
        exact h.taken
    · rw [h.ahead_relay hm]
      exact h.ahead
  | deliver z queue =>
    obtain ⟨p, rest, hinbox, rfl⟩ := roomStep_deliver hstep
    have hp : Proper lo hi r z p := h.packets z queue p (hinbox ▸ List.mem_cons_self)
    obtain ⟨hsent, hahead⟩ := h.ahead_deliver hinbox rfl
    obtain ⟨hsent', hme⟩ := receive_keeps hp.not_end (h.joins hp z)
    refine h.update rfl rfl rfl rfl (fun _ _ _ hq => mem_deliver hinbox hq) (h.receive hp) hme
      (hsent'.trans (List.append_nil _).symm) (fun hz hpc => ?_) ?_
    · -- a connection that is new was opened by a call of the other client
      subst hz
      by_cases hcall : p.senderID = (r.client lo).myClientID ∧ p.message.calls = true
      · rcases hp with ⟨_, hstarted, _⟩ | ⟨hsender, _⟩
        · exact hstarted
        · exact absurd (hcall.1 ▸ hsender ▸ h.lower_lt) (String.lt_irrefl _)
      · refine h.called fun hnone => hpc ?_
        rw [← link_eq_none, h.link_receive hp hcall, link_eq_none, hnone]
    · rw [hsent]
      refine List.IsSuffix.trans ?_ h.ahead
      rw [hahead]
      exact List.suffix_append _ _

/-- `hi` has handled all that `lo` announces itself with, and made nothing of it. -/
def Missed (lo hi : ClientRef) (r : VideoRoom) : Prop :=
  (r.client lo).sent ≠ [] ∧ r.ahead lo hi = [] ∧ (r.client hi).peerConnection = none

/-- A client of this part announces itself twice, at first. -/
theorem calls_of_video {role : VideoRole} {s : VideoClient}
    (hrole : ∀ m, role.message m → m.calls = false) (h : s.InVideo role) :
    ∃ rest, s.sent = .callStart false :: .join "" :: rest ∧
      rest.filter VideoMessage.calls = [] := by
  obtain ⟨rest, hsent, hrest⟩ := h.sent
  refine ⟨rest, hsent, List.filter_eq_nil_iff.mpr fun m hm => ?_⟩
  rw [hrole m (hrest m hm)]
  exact Bool.false_ne_true

/-- What is ahead of `hi` begins with one of the two announcements, and ends with the second. -/
theorem Negotiating.ahead_cons (h : Negotiating lo hi r) {m : VideoMessage}
    {rest : List VideoMessage} (hahead : r.ahead lo hi = m :: rest) :
    (r.client lo).sent ≠ [] ∧
      (m = .callStart false ∧ rest = [.join ""] ∨ m = .join "" ∧ rest = []) := by
  have hsuffix := h.ahead
  rw [hahead] at hsuffix
  rcases (h.plays lo).lower rfl with hout | hvideo
  · rw [hout.sent] at hsuffix
    cases List.suffix_nil.mp hsuffix
  · obtain ⟨later, hsent, hlater⟩ := calls_of_video answerer_calls hvideo
    refine ⟨by rw [hsent]; exact List.cons_ne_nil _ _, ?_⟩
    have hcalls : (r.client lo).sent.filter VideoMessage.calls = [.callStart false, .join ""] := by
      rw [hsent, List.filter_cons_of_pos rfl, List.filter_cons_of_pos rfl, hlater]
    rw [hcalls, List.suffix_cons_iff, List.suffix_cons_iff, List.suffix_nil] at hsuffix
    rcases hsuffix with heq | heq | heq
    · cases heq
      exact Or.inl ⟨rfl, rfl⟩
    · cases heq
      exact Or.inr ⟨rfl, rfl⟩
    · cases heq

/-- What a client does of itself makes `hi` miss nothing, and does not make up for it. -/
theorem Negotiating.missed_act (h : Negotiating lo hi r) {z : ClientRef} {e : VideoEvent}
    (he : OnlyTheTwo lo hi r (.act z e)) (hstep : roomStep r (.act z e) = some t) :
    ¬ Missed lo hi t ↔ ¬ Missed lo hi r := by
  obtain ⟨s, rfl, _, hmoves⟩ := h.act he hstep
  obtain ⟨ms, hsent, hahead, hms⟩ := h.ahead_act rfl hmoves
  have hconnection : (Function.update r.client z s hi).peerConnection = none ↔
      (r.client hi).peerConnection = none := by
    by_cases hz : hi = z
    · rw [hz, Function.update_self]
      exact hmoves.connection
    · rw [Function.update_of_ne hz]
  unfold Missed
  rw [hsent, hahead, hconnection]
  rcases hms with ⟨hnone, hnil⟩ | ⟨hnil, rfl⟩
  · rw [hnone, List.append_nil]
    by_cases hstarted : (r.client lo).sent = []
    · rw [hnil hstarted, List.append_nil]
    · have hgrown : (r.client lo).sent ++ ms ≠ [] :=
        fun heq => hstarted (List.append_eq_nil_iff.mp heq).1
      exact not_congr (and_congr_left' (iff_of_true hgrown hstarted))
  · -- `lo` enters the video, and its announcements are ahead
    refine iff_of_true (fun hmissed => ?_) fun hmissed => hmissed.1 hnil
    cases (List.append_eq_nil_iff.mp hmissed.2.1).2

/-- `hi` hears an announcement of `lo`: the join, at the latest, has to find it in its video. -/
theorem Negotiating.missed_call (h : Negotiating lo hi r) {p : VideoPacket}
    {rest : List VideoPacket} (hinbox : r.inbox hi .send = p :: rest)
    (hsender : p.senderID = (r.client lo).myClientID) (hcalls : p.message.calls = true)
    (ht : t = { r with
      client := Function.update r.client hi ((r.client hi).handleSignalingMessage p)
      inbox := Function.update r.inbox hi (Function.update (r.inbox hi) .send rest) }) :
    ¬ Missed lo hi t ↔ ¬ Missed lo hi r ∧ HigherInVideo lo hi r (.deliver hi .send) := by
  have hp : Proper lo hi r hi p := h.packets hi .send p (hinbox ▸ List.mem_cons_self)
  obtain ⟨hsent, hahead⟩ := h.ahead_deliver hinbox ht
  rw [if_pos ⟨⟨rfl, rfl⟩, hsender, hcalls⟩] at hahead
  have hnotyet : ¬ Missed lo hi r := by
    intro hmissed
    rw [hmissed.2.1] at hahead
    cases hahead
  have hclient : t.client hi = (r.client hi).handleSignalingMessage p := by
    rw [ht]
    exact Function.update_self ..
  rw [iff_true_intro hnotyet, true_and]
  obtain ⟨hstarted, ⟨hm, hrest⟩ | ⟨hm, hrest⟩⟩ := h.ahead_cons hahead
  · -- the join is still to come
    refine iff_of_true (fun hmissed => ?_) fun _ q hq hjoin => ?_
    · rw [hmissed.2.1] at hrest
      cases hrest
    · rw [hinbox] at hq
      obtain rfl : p = q := Option.some.inj hq
      rw [hm] at hjoin
      cases hjoin
  · have hlower : p.senderID < (r.client hi).myClientID := hsender ▸ h.lower_lt
    by_cases hactive : (r.client hi).isVideoCallActive = true
    · refine iff_of_true (fun hmissed => ?_) fun _ _ _ _ _ => hactive
      have hnone := hmissed.2.2
      rw [hclient] at hnone
      refine connected_of_join hactive (hsender ▸ h.nonempty lo) (fun heq => ?_) hm hnone
      exact String.lt_irrefl _ (heq ▸ hlower)
    · have hout := ((h.plays hi).higher rfl).resolve_right fun hs => hactive hs.1.active
      have hnone : (t.client hi).peerConnection = none := by
        rw [hclient]
        refine (hout.of_extends (hout.receive hp.not_end (fun _ _ hoffer => ?_)
          (h.joins hp hi))).1.unconnected
        rw [hm] at hoffer
        cases hoffer
      refine iff_of_false (not_not.mpr ⟨hsent ▸ hstarted, hrest, hnone⟩) fun hguard => ?_
      exact hactive (hguard (Or.inr rfl) p (by rw [hinbox]; rfl) hm hlower)

/-- Any other packet is of no account. -/
theorem Negotiating.missed_other (h : Negotiating lo hi r) {z : ClientRef} {queue : QueueKind}
    {p : VideoPacket} {rest : List VideoPacket} (hinbox : r.inbox z queue = p :: rest)
    (hcall : ¬ ((z = hi ∧ queue = .send) ∧
      p.senderID = (r.client lo).myClientID ∧ p.message.calls = true))
    (ht : t = { r with
      client := Function.update r.client z ((r.client z).handleSignalingMessage p)
      inbox := Function.update r.inbox z (Function.update (r.inbox z) queue rest) }) :
    ¬ Missed lo hi t ↔ ¬ Missed lo hi r ∧ HigherInVideo lo hi r (.deliver z queue) := by
  have hp : Proper lo hi r z p := h.packets z queue p (hinbox ▸ List.mem_cons_self)
  obtain ⟨hsent, hahead⟩ := h.ahead_deliver hinbox ht
  rw [if_neg hcall, List.nil_append] at hahead
  have hguard : HigherInVideo lo hi r (.deliver z queue) := by
    cases queue with
    | highPri => trivial
    | send =>
      intro hz q hq hjoin hlt
      rw [hinbox] at hq
      obtain rfl : p = q := Option.some.inj hq
      have hcalls : p.message.calls = true := by rw [hjoin]; rfl
      -- it is neither from `lo` to `hi`, nor of lower sender than `lo` or `hi` itself
      rcases hp.sender with hs | hs
      · rcases hz with rfl | rfl
        · exact absurd (hs ▸ hlt) (String.lt_irrefl _)
        · exact absurd ⟨⟨rfl, rfl⟩, hs, hcalls⟩ hcall
      · rcases hz with rfl | rfl
        · exact absurd (hs ▸ hlt) (String.lt_asymm h.lower_lt)
        · exact absurd (hs ▸ hlt) (String.lt_irrefl _)
  have hconnection : (t.client hi).peerConnection = none ↔
      (r.client hi).peerConnection = none := by
    rw [ht]
    show (Function.update r.client z _ hi).peerConnection = none ↔ _
    by_cases hz : hi = z
    · subst hz
      rw [Function.update_self, ← link_eq_none, h.link_receive hp, link_eq_none]
      rintro ⟨hs, hcalls⟩
      cases queue with
      | send => exact hcall ⟨⟨rfl, rfl⟩, hs, hcalls⟩
      | highPri =>
        rw [h.urgent hi p (hinbox ▸ List.mem_cons_self)] at hcalls
        cases hcalls
    · rw [Function.update_of_ne hz]
  rw [and_iff_left hguard]
  unfold Missed
  rw [hsent, hahead, hconnection]

/-- Just a join that comes when `hi` is not in the video is missed. -/
theorem Negotiating.missed_step (h : Negotiating lo hi r) {e : RoomEvent}
    (he : OnlyTheTwo lo hi r e) (hstep : roomStep r e = some t) :
    ¬ Missed lo hi t ↔ ¬ Missed lo hi r ∧ HigherInVideo lo hi r e := by
  cases e with
  | act z e => exact (h.missed_act he hstep).trans (and_iff_left trivial).symm
  | relay z =>
    obtain ⟨m, hm, rfl⟩ := Option.map_eq_some_iff.mp hstep
    refine Iff.trans ?_ (and_iff_left trivial).symm
    unfold Missed
    rw [h.ahead_relay hm]
    rfl
  | deliver z queue =>
    obtain ⟨p, rest, hinbox, ht⟩ := roomStep_deliver hstep
    by_cases hcall : (z = hi ∧ queue = .send) ∧
        p.senderID = (r.client lo).myClientID ∧ p.message.calls = true
    · obtain ⟨⟨rfl, rfl⟩, hsender, hcalls⟩ := hcall
      exact h.missed_call hinbox hsender hcalls ht
    · exact h.missed_other hinbox hcall ht

/-- At the end of the call's negotiation just `hi` has offered, unless it has missed `lo`. -/
theorem Negotiating.one_offered_iff (h : Negotiating lo hi r) (hsettled : Settled lo hi r) :
    Xor (Offered lo hi r) (Offered hi lo r) ↔ ¬ Missed lo hi r := by
  obtain ⟨hjoined, _, _⟩ := hsettled lo (List.mem_cons_self)
  obtain ⟨hjoined', hinbox, hsettled⟩ :=
    hsettled hi (List.mem_cons_of_mem lo (List.mem_singleton_self hi))
  have hlower := ((h.plays lo).lower rfl).resolve_left fun hout => by
    rw [hout.sent] at hjoined
    simp at hjoined
  obtain ⟨hvideo, hpursues⟩ := ((h.plays hi).higher rfl).resolve_left fun hout => by
    rw [hout.sent] at hjoined'
    simp at hjoined'
  -- the client with the lower ID only ever answers
  have hnot : ¬ Offered lo hi r := by
    rintro ⟨inst, hm⟩
    rcases hlower.sends _ hm with hs | hs | hs <;> cases hs
  have hoffered : Offered hi lo r ↔ (r.client hi).peerConnection ≠ none := by
    constructor
    · exact fun hoffer hnone => hpursues.unconnected hnone hoffer
    · intro hsome
      obtain ⟨pc, hpc⟩ := Option.ne_none_iff_exists'.mp hsome
      rcases hpursues.connected pc hpc with hoffer | ⟨a, ha, hoffers⟩
      · exact hoffer
      · -- an offer on its way could still be made
        have hstuck := hsettled a ha (Await.isOffer_of_offers hoffers)
        have hstate := hvideo.state pc hpc
        cases a with
        | createOffer n =>
          obtain rfl : n = pc.inst := hoffers
          simp [Resolvable, hpc] at hstuck
        | setLocalOffer n =>
          obtain rfl : n = pc.inst := hoffers
          have hready : pc.signalingState = .stable ∨ pc.signalingState = .haveLocalOffer := by
            cases hs : pc.signalingState with
            | stable => exact Or.inl rfl
            | haveLocalOffer => exact Or.inr rfl
            | haveRemoteOffer => exact absurd hs hstate
          simp [Resolvable, hpc] at hstuck
          exact (hready.elim hstuck.1 hstuck.2).elim
        | _ => cases hoffers
  -- every call has been relayed and handled by now
  have hahead : r.ahead lo hi = [] := by
    obtain ⟨rest, hsent, hrest⟩ := calls_of_video answerer_calls hlower
    refine List.filter_eq_nil_iff.mpr fun m hm => ?_
    rcases List.mem_append.mp hm with hm | hm
    · obtain ⟨p, hp, rfl⟩ := List.mem_map.mp hm
      rw [hinbox p (List.mem_filter.mp hp).1]
      exact Bool.false_ne_true
    · rw [hsent] at hm hjoined
      match htaken : r.taken lo, hm, hjoined with
      | 0, _, hjoined => simp at hjoined
      | 1, _, hjoined => simp at hjoined
      | n + 2, hm, _ => exact List.filter_eq_nil_iff.mp hrest m (List.mem_of_mem_drop hm)
  have hstarted : (r.client lo).sent ≠ [] := fun hnil => by
    rw [hnil] at hjoined
    simp at hjoined
  calc Xor (Offered lo hi r) (Offered hi lo r)
      ↔ Offered hi lo r := by simp [Xor, hnot]
    _ ↔ (r.client hi).peerConnection ≠ none := hoffered
    _ ↔ ¬ Missed lo hi r := by simp [Missed, hstarted, hahead]

section Run

variable {channel : ChannelID} {members : List ClientRef} {nodup : members.Nodup}
  {ids callsigns : ClientRef → String} {x y : ClientRef} {es : List RoomEvent}

theorem negotiating_init (hlt : ids lo < ids hi) (hnonempty : ∀ z, ids z ≠ "")
    (hid : ∀ z ∈ members, ∀ w ∈ members, ids z = ids w → z = w) (hlo : lo ∈ members)
    (hhi : hi ∈ members) :
    Negotiating lo hi (VideoRoom.init channel members nodup ids callsigns) where
  lower_lt := hlt
  nonempty := hnonempty
  hears := hhi
  byID := by
    show members.find? (fun y => ids y = ids lo) = some lo
    have hsome : (members.find? fun y => ids y = ids lo).isSome = true :=
      List.find?_isSome.mpr ⟨lo, hlo, decide_eq_true rfl⟩
    obtain ⟨y, hy⟩ := Option.isSome_iff_exists.mp hsome
    have hfound := List.find?_some hy
    have heq : ids y = ids lo := of_decide_eq_true hfound
    rw [hy, hid y (List.mem_of_find?_eq_some hy) lo hlo heq]
  plays z := by
    have hout : ((VideoRoom.init channel members nodup ids callsigns).client z).Outside :=
      ⟨rfl, rfl, rfl, Or.inl rfl⟩
    exact ⟨fun _ => Or.inl hout, fun _ => Or.inl hout, fun _ _ => ⟨hout, rfl⟩⟩
  called hpc := absurd rfl hpc
  packets _ _ p hp := by cases hp
  urgent _ p hp := by cases hp
  taken := Nat.zero_le _
  ahead := List.nil_suffix

theorem one_offers_of_lt (hlt : ids lo < ids hi) (hnonempty : ∀ z, ids z ≠ "")
    (hid : ∀ z ∈ members, ∀ w ∈ members, ids z = ids w → z = w) (hlo : lo ∈ members)
    (hhi : hi ∈ members)
    (hrun : Run roomStep (VideoRoom.init channel members nodup ids callsigns) es r)
    (honly : Guarded roomStep (OnlyTheTwo lo hi)
      (VideoRoom.init channel members nodup ids callsigns) es)
    (hsettled : Settled lo hi r) :
    Xor (Offered lo hi r) (Offered hi lo r) ↔ Guarded roomStep (HigherInVideo lo hi)
      (VideoRoom.init channel members nodup ids callsigns) es := by
  have hinit : Negotiating lo hi (VideoRoom.init channel members nodup ids callsigns) :=
    negotiating_init hlt hnonempty hid hlo hhi
  have hkept : ∀ r e t, Negotiating lo hi r → OnlyTheTwo lo hi r e → roomStep r e = some t →
      Negotiating lo hi t := fun _ _ _ h he hstep => h.step he hstep
  have hfinal := hrun.final_iff_guarded (Q := fun r => ¬ Missed lo hi r) honly hkept
    (fun _ _ _ h he hstep => h.missed_step he hstep) hinit
  rw [(hrun.invariant_of_guarded hkept honly hinit).one_offered_iff hsettled, hfinal]
  exact and_iff_right fun hmissed => hmissed.1 rfl

theorem onlyTheTwo_comm (x y : ClientRef) : OnlyTheTwo x y = OnlyTheTwo y x := by
  funext r e
  cases e with
  | act z e =>
    cases e with
    | startVideoCall => exact propext (and_congr_left' or_comm)
    | _ => rfl
  | _ => rfl

theorem higherInVideo_comm (x y : ClientRef) : HigherInVideo x y = HigherInVideo y x := by
  funext r e
  cases e with
  | deliver z queue =>
    cases queue with
    | send => exact propext (imp_congr_left or_comm)
    | highPri => rfl
  | _ => rfl

theorem settled_comm : Settled x y r → Settled y x r :=
  fun h z hz => h z (List.mem_pair.mpr (List.mem_pair.mp hz).symm)

/-- Of two clients that alone start a video call on a channel, just one has offered once all
their announcements have been handled, if and only if the one with the higher identifier was in
the video whenever it handled the join of the other. -/
theorem one_offers_iff (hne : ids x ≠ ids y) (hnonempty : ∀ z, ids z ≠ "")
    (hid : ∀ z ∈ members, ∀ w ∈ members, ids z = ids w → z = w) (hx : x ∈ members)
    (hy : y ∈ members)
    (hrun : Run roomStep (VideoRoom.init channel members nodup ids callsigns) es r)
    (honly : Guarded roomStep (OnlyTheTwo x y)
      (VideoRoom.init channel members nodup ids callsigns) es)
    (hsettled : Settled x y r) :
    Xor (Offered x y r) (Offered y x r) ↔ Guarded roomStep (HigherInVideo x y)
      (VideoRoom.init channel members nodup ids callsigns) es := by
  by_cases hlt : ids x < ids y
  · exact one_offers_of_lt hlt hnonempty hid hx hy hrun honly hsettled
  · have hlt' : ids y < ids x := by
      by_contra hle
      exact hne (String.le_antisymm (String.not_lt.mp hle) (String.not_lt.mp hlt))
    rw [xor_comm, higherInVideo_comm]
    rw [onlyTheTwo_comm] at honly
    exact one_offers_of_lt hlt' hnonempty hid hy hx hrun honly (settled_comm hsettled)

end Run

def twoClients : VideoRoom :=
  VideoRoom.init 1 [0, 1] (by decide) (fun z => if z = 0 then "a" else "b")
    (fun z => if z = 0 then "UNIT-a" else "UNIT-b")

/-- A client starts a video call, and both it and the other one are told. -/
def starts (z other : ClientRef) : List RoomEvent :=
  [.act z .startVideoCall, .act z (.resolve 0 true), .relay z, .relay z, .deliver z .send,
    .deliver z .send, .deliver other .send, .deliver other .send]

/-- The client with the higher identifier starts; it offers as soon as the other one does. -/
theorem one_offers_higherFirst : ∃ r,
    Run roomStep twoClients
      (starts 1 0 ++ starts 0 1 ++ [.act 1 (.resolve 1 true), .act 1 (.resolve 1 true)]) r ∧
    (Xor (Offered 0 1 r) (Offered 1 0 r) ↔ Guarded roomStep (HigherInVideo 0 1) twoClients
      (starts 1 0 ++ starts 0 1 ++ [.act 1 (.resolve 1 true), .act 1 (.resolve 1 true)])) := by
  have hrun := run_get roomStep twoClients
    (starts 1 0 ++ starts 0 1 ++ [.act 1 (.resolve 1 true), .act 1 (.resolve 1 true)])
    (by decide +kernel)
  refine ⟨_, hrun, one_offers_iff (by decide) (fun z => ?_) (by decide) (by decide) (by decide) hrun
    (by decide +kernel) (by decide +kernel)⟩
  by_cases hz : z = 0 <;> simp [hz]

/-- When the client with the lower identifier starts, and the other one only after it has been told,
both wait for ever. -/
theorem one_offers_fails : ∃ r,
    Run roomStep twoClients (starts 0 1 ++ starts 1 0) r ∧
    Guarded roomStep (OnlyTheTwo 0 1) twoClients (starts 0 1 ++ starts 1 0) ∧
    Settled 0 1 r ∧ ¬ Xor (Offered 0 1 r) (Offered 1 0 r) := by
  have hrun := run_get roomStep twoClients (starts 0 1 ++ starts 1 0) (by decide +kernel)
  -- neither has sent anything but its announcements
  have hsent : ∀ z ∈ [0, 1], ∀ m ∈ (((starts 0 1 ++ starts 1 0).foldlM roomStep twoClients).get
      (by decide +kernel)).client z |>.sent, m.calls = true := by
    decide +kernel
  refine ⟨_, hrun, by decide +kernel, by decide +kernel, ?_⟩
  rintro (⟨⟨inst, hm⟩, _⟩ | ⟨⟨inst, hm⟩, _⟩)
  · cases hsent 0 (by decide) _ hm
  · cases hsent 1 (by decide) _ hm

end VideoRoom

end TwoWayRadio

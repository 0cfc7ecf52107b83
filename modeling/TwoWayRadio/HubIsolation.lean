import TwoWayRadio.AudioFanOut
import TwoWayRadio.HubEffects
import TwoWayRadio.HubRequests
import TwoWayRadio.OwnChannel

/-! Channel isolation: whom a message of one client can reach. -/
namespace TwoWayRadio
open Interleaving Transition

/-- The frames that are meant for every client: channel metadata and All-Calls. -/
def Frame.fleetWide : Frame → Bool
  | .json msg _ => msg.toAll
  | .binary data =>
    match parseAudioHeaderQuick data with
    | .error _ => false
    | .ok packet => packet.flags &&& flagAudioAllCall ≠ 0

/-- Nothing but a fleet-wide frame leaves for a client outside channel `c` that is not among the
addressed. -/
def Delivery.Within (addressed : ClientRef → Prop) (c : ChannelID) (h : Hub) : Delivery → Prop
  | .enqueue y _ frame => addressed y ∨ frame.fleetWide = true ∨ h.Subscribed c y
  | .relay .. => True

/-- All that a handler of `x` enqueues stays on the channel that `x` is tuned to before it or
after it. -/
def Hub.Isolated (x : ClientRef) (p : HubProg Unit) (h : Hub) : Prop :=
  ∀ d ∈ Hub.sent p h, d.Within (· = x) (h.heap x).currentChannelID h ∨
    d.Within (· = x) ((Hub.after p h).heap x).currentChannelID h

/-- The messages that a client sends. -/
def Request.sentBy (x : ClientRef) : Request → Bool
  | signal y _ _ | audio y _ => y = x
  | _ => false

/-- The client that a directed video signal is for. -/
def Request.videoTarget (h : Hub) : Request → Option ClientRef
  | signal _ (.videoRelay _ p) _ =>
    if p.ok ∧ p.value.targetID ≠ "" then h.clientsByID p.value.targetID else none
  | _ => none

/-- The client that loses the floor to a `ptt_down`. -/
def Request.preempted (h : Hub) : Request → Option ClientRef
  | signal x .pttDown _ => (h.channelOf x).bind fun ch =>
    ((HubOp.requestFloor ch x).run h).1.preempted
  | _ => none

theorem Request.videoTarget_eq {x y : ClientRef} {h : Hub} {r : Request} (hr : r.sentBy x = true)
    (hy : r.videoTarget h = some y) : ∃ kind p choices, r = .signal x (.videoRelay kind p) choices ∧
      (p.ok = true ∧ p.value.targetID ≠ "") ∧ h.clientsByID p.value.targetID = some y := by
  cases r with
  | signal z msg choices =>
    obtain rfl : z = x := of_decide_eq_true hr
    cases msg with
    | videoRelay kind p =>
      rw [videoTarget] at hy
      split_ifs at hy with hdirected
      exact ⟨kind, p, choices, rfl, hdirected, hy⟩
    | _ => cases hy
  | _ => cases hy

theorem Request.preempted_eq {x y : ClientRef} {h : Hub} {r : Request} (hr : r.sentBy x = true)
    (hy : r.preempted h = some y) : ∃ choices, r = .signal x .pttDown choices := by
  cases r with
  | signal z msg choices =>
    obtain rfl : z = x := of_decide_eq_true hr
    cases msg with
    | pttDown => exact ⟨choices, rfl⟩
    | _ => cases hy
  | _ => cases hy

namespace HubOp

/-- The call neither tunes a client to another channel nor reaches beyond the addressed and the
channel it names. -/
def StaysPut (addressed : ClientRef → Prop) : HubOp → Prop
  | register .. | setCurrentChannel .. | allCallAudio .. => False
  | sendPriorityJSON y _ => addressed y
  | _ => True

variable {op : HubOp} {x : ClientRef} {c : ChannelID} {addressed : ClientRef → Prop}

theorem tunedTo_run (hop : op.StaysPut addressed) (h : Hub) (z : ClientRef) :
    ((op.run h).2.heap z).currentChannelID = (h.heap z).currentChannelID := by
  apply current_run
  intro ht
  cases op with
  | register y first => exact hop
  | setCurrentChannel y ch => exact hop
  | _ => cases ht

theorem touched_of_keepsTo {known : List ChannelID} (hop : op.KeepsTo x known) {y : ClientRef}
    (hy : y ≠ x) : op.touched ≠ some y := by
  intro ht
  cases op with
  | register z first => exact hy ((Option.some.inj ht).symm.trans hop)
  | unregister z => exact hy ((Option.some.inj ht).symm.trans hop)
  | setCurrentChannel z ch => exact hy ((Option.some.inj ht).symm.trans hop)
  | addSubscriber ch z => exact hy ((Option.some.inj ht).symm.trans hop.2)
  | removeSubscriber ch z => exact hy ((Option.some.inj ht).symm.trans hop.2)
  | requestFloor ch z => exact hy ((Option.some.inj ht).symm.trans hop.2)
  | _ => cases ht

/-- A call made for `x` on its channel reaches clients of that channel. -/
theorem within_of_keepsTo (hx : addressed x) (hop : op.KeepsTo x [c])
    (hstay : op.StaysPut addressed) {h : Hub} {d : Delivery} (hd : d ∈ op.sends h) :
    d.Within addressed c h := by
  have hbroadcast : ∀ {ch : ChannelID} {y : ClientRef}, ch ∈ [c] → y ∈ h.subscribersOf ch →
      h.Subscribed c y := by
    intro ch y hch hy
    rw [List.mem_singleton.mp hch] at hy
    exact Hub.mem_subscribersOf.mp hy
  cases op with
  | broadcastAll msg =>
    obtain ⟨y, _, rfl⟩ := List.mem_map.mp hd
    exact Or.inr (Or.inl hop)
  | broadcastSignal ch msg =>
    obtain ⟨y, hy, rfl⟩ := List.mem_map.mp hd
    exact Or.inr (Or.inr (hbroadcast hop hy))
  | sendJSON y msg =>
    obtain rfl := List.mem_singleton.mp hd
    obtain rfl : y = x := hop
    exact Or.inl hx
  | sendPriorityJSON y msg =>
    obtain rfl := List.mem_singleton.mp hd
    exact Or.inl hstay
  | broadcastAudio ch sender data =>
    obtain ⟨y, hy, rfl⟩ := List.mem_map.mp hd
    exact Or.inr (Or.inr (hbroadcast hop.1 (List.mem_filter.mp hy).1))
  | allCallAudio sender data => exact hstay.elim
  | relay ch data =>
    obtain rfl := List.mem_singleton.mp hd
    trivial
  | _ => cases hd

end HubOp

section Within

variable {x : ClientRef} {c : ChannelID} {h g : Hub} {addressed : ClientRef → Prop}

/-- A change that leaves everybody but `x` alone moves nobody else's subscriptions. -/
theorem Delivery.Within.before {d : Delivery} (hx : addressed x)
    (he : ∀ y, y ≠ x → Elsewhere y h g) (hd : d.Within addressed c g) :
    d.Within addressed c h := by
  cases d with
  | relay ch data => trivial
  | enqueue y queue frame =>
    by_cases hy : y = x
    · exact Or.inl (hy ▸ hx)
    · rcases hd with hto | hframe | hsub
      · exact Or.inl hto
      · exact Or.inr (Or.inl hframe)
      · exact Or.inr (Or.inr (((he y hy).subscribed c).mp hsub))

theorem Delivery.Within.of_subscribed {d : Delivery}
    (hto : ∀ y, addressed y → y = x ∨ h.Subscribed c y) (hd : d.Within addressed c h) :
    d.Within (· = x) c h := by
  cases d with
  | relay ch data => trivial
  | enqueue y queue frame =>
    rcases hd with haddressed | hframe | hsub
    · rcases hto y haddressed with hx | hsub
      · exact Or.inl hx
      · exact Or.inr (Or.inr hsub)
    · exact Or.inr (Or.inl hframe)
    · exact Or.inr (Or.inr hsub)

namespace Hub

/-- A handler of `x` that stays on the channel of `x` sends nothing beyond it but to the
addressed. -/
theorem within_of_follows {α : Type} {p : HubProg α} {Q : α → List ChannelID → Prop}
    {known : List ChannelID} (addressed : ClientRef → Prop) (hx : addressed x)
    (hp : p.Follows (tuning x) Q known) (hk : h.Knows x known)
    (hstay : p.All fun op => op.StaysPut addressed) :
    (∀ d ∈ sent p h, d.Within addressed (h.heap x).currentChannelID h) ∧
      ((after p h).heap x).currentChannelID = (h.heap x).currentChannelID ∧
      ∀ y, y ≠ x → Elsewhere y h (after p h) := by
  induction p generalizing h known with
  | ret a => exact ⟨fun d hd => (List.not_mem_nil hd).elim, rfl, fun y _ => Elsewhere.refl y h⟩
  | call op k ih =>
    obtain ⟨hop, hrest⟩ := hp
    have hcur := HubOp.tunedTo_run hstay.1 h x
    have helse : ∀ y, y ≠ x → Elsewhere y h (op.run h).2 := fun y hy =>
      elsewhere_run (HubOp.touched_of_keepsTo hop hy) h
    obtain ⟨hsent, hafter, hothers⟩ := ih _ (hrest _ trivial) (HubOp.knows_run hop hk) (hstay.2 _)
    refine ⟨fun d hd => ?_, hafter.trans hcur, fun y hy => (helse y hy).trans (hothers y hy)⟩
    rcases List.mem_append.mp hd with hnow | hlater
    · refine HubOp.within_of_keepsTo hx (HubOp.KeepsTo.mono (fun ch hch => ?_) hop) hstay.1 hnow
      rw [hk ch hch]
      exact List.mem_singleton_self _
    · have hwithin := hsent d hlater
      rw [hcur] at hwithin
      exact hwithin.before hx helse

theorem isolated_of_follows {p : HubProg Unit} {Q : Unit → List ChannelID → Prop}
    (hp : p.Follows (tuning x) Q []) (hstay : p.All fun op => op.StaysPut (· = x)) :
    h.Isolated x p := by
  intro d hd
  have hknows : h.Knows x [] := fun _ hch => (List.not_mem_nil hch).elim
  exact Or.inl ((within_of_follows (· = x) rfl hp hknows hstay).1 d hd)

end Hub

end Within

section Stays

open Prog

variable {addressed : ClientRef → Prop}

/-- The handler stays on its client's channel. -/
abbrev Stays (addressed : ClientRef → Prop) {α : Type} (p : HubProg α) : Prop :=
  p.All fun op => op.StaysPut addressed

theorem stays_broadcastUserList (ch : ChannelID) :
    Stays addressed (Hub.broadcastUserList ch) :=
  all_then trivial fun _ => all_then trivial fun _ => all_perform trivial

theorem stays_announceIdle (ch : ChannelID) (c : Client) :
    Stays addressed (Hub.announceIdle ch c) :=
  all_then trivial fun _ => all_then trivial fun _ => all_perform trivial

theorem stays_finishRecording (ch : ChannelID) : Stays addressed (Hub.finishRecording ch) :=
  all_then trivial fun _ => all_bind (all_ifSome fun _ => all_perform trivial) fun _ => trivial

theorem stays_leaveChannel (x : ClientRef) (c : Client) (ch : ChannelID) :
    Stays addressed (Hub.leaveChannel x c ch) :=
  all_then trivial fun _ => all_bind (stays_broadcastUserList ch) fun _ =>
    all_bind (all_when (stays_announceIdle ch c)) fun _ => all_then trivial fun _ =>
    all_then trivial fun _ => all_when (all_then trivial fun _ => all_perform trivial)

theorem stays_showChannel (x : ClientRef) (ch : ChannelID) :
    Stays addressed (Hub.showChannel x ch) :=
  all_then trivial fun _ => all_then trivial fun _ => all_then trivial fun _ =>
    all_then trivial fun _ => all_ifSome fun _ => all_perform trivial

theorem stays_answerRequest {x : ClientRef} (hx : addressed x) (ch : ChannelID)
    {reply : FloorReply} (hpreempted : ∀ y, reply.preempted = some y → addressed y) :
    Stays addressed (Hub.answerRequest x ch reply) := by
  unfold Hub.answerRequest
  split_ifs
  · refine all_then trivial fun _ => all_bind ?_ fun _ => all_then trivial fun _ =>
      all_then trivial fun c => all_then hx fun _ => all_then trivial fun _ => all_perform trivial
    cases hy : reply.preempted with
    | none => trivial
    | some y =>
      exact all_then trivial fun _ => all_bind (stays_finishRecording ch) fun _ =>
        all_then trivial fun c => all_perform (hpreempted y hy)
  · exact all_perform hx

theorem stays_handlePTTUp (x : ClientRef) : Stays addressed (Hub.handlePTTUp x) :=
  all_then trivial fun _ => all_ifSome fun ch => all_then trivial fun _ => all_when <|
    all_bind (stays_finishRecording ch) fun _ => all_then trivial fun c =>
    all_bind (all_ifSome fun _ => all_perform trivial) fun _ => stays_announceIdle ch c

theorem stays_identifySignal (x : ClientRef) (p : Decoded IdentifyPayload) :
    Stays addressed (Hub.identifySignal x p) :=
  all_when <| all_then trivial fun _ => all_bind (all_when (all_perform trivial)) fun _ =>
    all_then trivial fun _ => all_ifSome stays_broadcastUserList

end Stays

namespace Hub

variable {x : ClientRef} {h : Hub}

theorem isolated_when {c : Prop} [Decidable c] {p : HubProg Unit} (hp : h.Isolated x p) :
    h.Isolated x (Prog.when c p) := by
  unfold Prog.when
  split_ifs
  · exact hp
  · exact fun d hd => (List.not_mem_nil hd).elim

/-- What goes to the client itself. -/
theorem isolated_sendJSON (msg : Signal) : h.Isolated x (HubOp.sendJSON x msg).call := by
  intro d hd
  rw [show Hub.sent (HubOp.sendJSON x msg).call h = [.enqueue x .send (.json msg h.unixMilli)]
    from rfl] at hd
  obtain rfl := List.mem_singleton.mp hd
  exact Or.inl (Or.inl rfl)

theorem within_enterChannel (new : ChannelID) {d : Delivery}
    (hd : d ∈ sent (enterChannel x new) h) :
    d.Within (· = x) ((after (enterChannel x new) h).heap x).currentChannelID h := by
  let moved := ((HubOp.setCurrentChannel x new).run h).2
  have hcur : (moved.heap x).currentChannelID = new := by simp [moved, HubOp.run, setClient]
  have hmoved : ∀ y, y ≠ x → Elsewhere y h moved := by
    intro y hy
    have ht : (HubOp.setCurrentChannel x new).touched ≠ some y := fun heq =>
      hy (Option.some.inj heq).symm
    exact elsewhere_run ht h
  have hknows : moved.Knows x [new] := fun ch hch => (List.mem_singleton.mp hch).trans hcur.symm
  have henter : (enterChannel x new).Follows (tuning x) (fun _ _ => True) [] :=
    tuned_enterChannel new
  have hrest := henter.2 () trivial
  obtain ⟨hsent, hafter, _⟩ := within_of_follows (· = x) rfl hrest hknows
    (Prog.all_then trivial fun _ => Prog.all_bind (stays_broadcastUserList new) fun _ =>
      stays_showChannel x new)
  have hwithin := hsent d hd
  rw [← hafter] at hwithin
  exact hwithin.before rfl hmoved

/-- A switch tells the channel that is left and the one that is entered. -/
theorem isolated_switchChannel (new : ChannelID) (password : String) :
    h.Isolated x (switchChannel x new password) := by
  have hlook : (HubOp.lookupSwitch x new).run h =
    (((h.channels.lookup new).map fun c => c.definition, h.channelOf x), h) := rfl
  have hfields : (HubOp.fields x).run h = (h.heap x, h) := rfl
  unfold Isolated
  simp only [switchChannel, Prog.perform_bind, sent_call, after_call, hlook, HubOp.sends,
    List.nil_append]
  cases h.channels.lookup new with
  | none => exact isolated_sendJSON _
  | some target =>
    simp only [Option.map_some, sent_call, after_call, hfields, HubOp.sends, List.nil_append]
    split_ifs
    · exact fun d hd => (List.not_mem_nil hd).elim
    · exact isolated_sendJSON _
    · intro d hd
      have hknows : h.Knows x [(h.heap x).currentChannelID] := fun ch hch =>
        List.mem_singleton.mp hch
      have hleave : (Prog.ifSome (h.channelOf x) (leaveChannel x (h.heap x))).Follows (tuning x)
          (fun _ _ => True) [(h.heap x).currentChannelID] := by
        cases hof : h.channelOf x with
        | none => trivial
        | some ch =>
          refine tuned_leaveChannel _ ?_
          rw [channelOf_eq hof]
          exact List.mem_singleton_self _
      obtain ⟨hsent, _, helse⟩ := within_of_follows (· = x) rfl hleave hknows
        (Prog.all_ifSome fun ch => stays_leaveChannel x _ ch)
      rw [after_bind]
      rw [mem_sent_bind] at hd
      -- what is sent before the client moves stays on the old channel, what comes after on the new
      rcases hd with hd | hd
      · exact Or.inl (hsent d hd)
      · refine Or.inr ?_
        generalize after (Prog.ifSome (h.channelOf x) (leaveChannel x (h.heap x))) h = left
          at hd helse
        exact (within_enterChannel new hd).before rfl helse

theorem isolated_createSignal (p : Decoded CreateChannelPayload) :
    h.Isolated x (createSignal x p) := by
  refine isolated_when fun d hd => ?_
  simp only [Prog.perform_bind, sent_call, after_call, HubOp.sends, List.nil_append] at hd ⊢
  let created := ((HubOp.createChannel p.value).run h).2
  let listed := ((HubOp.broadcastAll (.channelList (HubOp.getChannelList.run created).1)).run
    (HubOp.getChannelList.run created).2).2
  have hlisted : ∀ y, y ≠ x → Elsewhere y h listed := by
    intro y _
    have hcreated : Elsewhere y h created := elsewhere_run (by exact fun heq => by cases heq) h
    exact hcreated.trans (elsewhere_run (by exact fun heq => by cases heq) _)
  rcases List.mem_append.mp hd with hd | hd
  · obtain ⟨y, _, rfl⟩ := List.mem_map.mp hd
    exact Or.inl (Or.inr (Or.inl rfl))
  · rcases isolated_switchChannel _ _ d hd with hold | hnew
    · exact Or.inl (hold.before rfl hlisted)
    · exact Or.inr (hnew.before rfl hlisted)

/-- A preempted client held the floor. -/
theorem holder_of_preempted {ch : ChannelID} {y : ClientRef}
    (hy : ((HubOp.requestFloor ch x).run h).1.preempted = some y) :
    h.holder ch = some y ∧ ((HubOp.requestFloor ch x).run h).1.granted = true := by
  simp only [HubOp.run, onChannel] at hy ⊢
  cases hc : h.channels.lookup ch with
  | none => simp [hc] at hy
  | some c =>
    simp only [hc] at hy ⊢
    unfold Channel.requestFloor at hy ⊢
    split at hy
    · rename_i speaker _ hspeaker
      split_ifs at hy with hself hrank
      obtain rfl := Option.some.inj hy
      rw [holder_of_lookup hc, hspeaker, if_neg hself, if_pos hrank]
      exact ⟨rfl, rfl⟩
    · cases hy

/-- A `ptt_down` reaches its channel and the client that it preempts. -/
theorem within_handlePTTDown (choices : Choices) :
    (∀ d ∈ sent (handlePTTDown x) h,
      d.Within (fun y => y = x ∨ (Request.signal x .pttDown choices).preempted h = some y)
        (h.heap x).currentChannelID h) ∧
      ((after (handlePTTDown x) h).heap x).currentChannelID = (h.heap x).currentChannelID := by
  have hlook : (HubOp.currentChannel x).run h = (h.channelOf x, h) := rfl
  simp only [handlePTTDown, Prog.perform_bind, sent_call, after_call, hlook, HubOp.sends,
    List.nil_append]
  cases hof : h.channelOf x with
  | none =>
    refine ⟨fun d hd => ?_, rfl⟩
    obtain rfl := List.mem_singleton.mp hd
    exact Or.inl (Or.inl rfl)
  | some ch =>
    simp only [sent_call, after_call, HubOp.sends, List.nil_append]
    -- the floor call moves nobody, so what is sent after it stays within the channel as it was
    let asked := ((HubOp.requestFloor ch x).run h).2
    have hcur : (asked.heap x).currentChannelID = (h.heap x).currentChannelID := by
      show ((h.onChannel ch _ _).2.heap x).currentChannelID = _
      rw [onChannel_heap]
    have hknows : asked.Knows x [ch] := by
      intro ch' hch'
      rw [List.mem_singleton.mp hch', hcur, channelOf_eq hof]
    have hasked : ∀ y, y ≠ x → Elsewhere y h asked := by
      intro y hy
      have ht : (HubOp.requestFloor ch x).touched ≠ some y := fun heq =>
        hy (Option.some.inj heq).symm
      exact elsewhere_run ht h
    have hpreempted : (Request.signal x .pttDown choices).preempted h =
        ((HubOp.requestFloor ch x).run h).1.preempted := by
      rw [Request.preempted, hof, Option.bind_some]
    obtain ⟨hsent, hafter, _⟩ := within_of_follows
      (fun y => y = x ∨ (Request.signal x .pttDown choices).preempted h = some y) (Or.inl rfl)
      (tuned_answerRequest _ (List.mem_singleton_self ch)) hknows
      (stays_answerRequest (Or.inl rfl) ch fun y hy => Or.inr (hpreempted.trans hy))
    refine ⟨fun d hd => ?_, hafter.trans hcur⟩
    have hwithin := hsent d hd
    rw [hcur] at hwithin
    exact hwithin.before (Or.inl rfl) hasked

theorem sent_finalizePreempted (ch : ChannelID) (y : ClientRef) (g : Hub) :
    ∃ c now, Delivery.enqueue y .highPri (.json (floorPreempted ch c) now) ∈
      sent (finalizePreempted ch x y) g := by
  let saved := after (finishRecording ch) (HubOp.addPreemption.run g).2
  refine ⟨saved.heap x, saved.unixMilli, ?_⟩
  simp only [finalizePreempted, Prog.perform_bind, sent_call, HubOp.sends, List.nil_append]
  exact mem_sent_bind.mpr (Or.inr (List.mem_singleton_self _))

/-- A preempted client is told. -/
theorem sent_to_preempted {y : ClientRef} {choices : Choices}
    (hy : (Request.signal x .pttDown choices).preempted h = some y) :
    ∃ msg now, Delivery.enqueue y .highPri (.json msg now) ∈ sent (handlePTTDown x) h ∧
      msg.toAll = false := by
  obtain ⟨ch, hof, hreply⟩ := Option.bind_eq_some_iff.mp hy
  have hlook : (HubOp.currentChannel x).run h = (some ch, h) := Prod.ext hof rfl
  have hgranted := (holder_of_preempted hreply).2
  simp only [handlePTTDown, Prog.perform_bind, sent_call, hlook, HubOp.sends, List.nil_append]
  rw [answerRequest, if_pos hgranted, hreply]
  simp only [Prog.perform_bind, sent_call, HubOp.sends, List.nil_append, Prog.ifSome]
  obtain ⟨c, now, hd⟩ := sent_finalizePreempted (x := x) ch y
    (HubOp.addTransmission.run ((HubOp.requestFloor ch x).run h).2).2
  exact ⟨_, now, mem_sent_bind.mpr (Or.inl hd), rfl⟩

theorem isolated_handlePTTDown {choices : Choices}
    (hto : ∀ y, (Request.signal x .pttDown choices).preempted h = some y →
      y = x ∨ h.Subscribed (h.heap x).currentChannelID y) :
    h.Isolated x (handlePTTDown x) := by
  intro d hd
  refine Or.inl (((within_handlePTTDown choices).1 d hd).of_subscribed fun y hy => ?_)
  rcases hy with hx | hpreempted
  · exact Or.inl hx
  · exact hto y hpreempted

/-- A video signal with a target goes to the client that has its ID, wherever that client is. -/
theorem sent_videoRelaySignal {kind : VideoRelay} {p : Decoded VideoSignalingPayload}
    (hok : p.ok = true) (htarget : p.value.targetID ≠ "") :
    sent (videoRelaySignal x kind p) h =
        ((h.clientsByID p.value.targetID).toList.map fun y => .enqueue y .highPri
          (.json (.videoRelay kind (stampVideo (h.heap x) p.value)) h.unixMilli)) ∧
      (after (videoRelaySignal x kind p) h).heap = h.heap := by
  have hfields : (HubOp.fields x).run h = (h.heap x, h) := rfl
  have hlook : (HubOp.clientByID p.value.targetID).run h =
      (h.clientsByID p.value.targetID, h) := rfl
  unfold videoRelaySignal
  rw [sent_when, after_when, if_pos hok, if_pos hok]
  simp only [Prog.perform_bind, sent_call, after_call, hfields, HubOp.sends, List.nil_append]
  rw [if_pos htarget]
  simp only [sent_call, after_call, hlook, HubOp.sends, List.nil_append]
  cases h.clientsByID p.value.targetID <;> exact ⟨rfl, rfl⟩

theorem stays_videoRelaySignal {kind : VideoRelay} {p : Decoded VideoSignalingPayload}
    (hnot : ¬ (p.ok = true ∧ p.value.targetID ≠ "")) :
    Stays (· = x) (videoRelaySignal x kind p) := by
  unfold videoRelaySignal
  by_cases hok : p.ok = true
  · rw [Prog.when, if_pos hok]
    refine Prog.all_then trivial fun c => ?_
    dsimp only
    rw [if_neg fun htarget => hnot ⟨hok, htarget⟩]
    exact Prog.all_then trivial fun _ => Prog.all_ifSome fun _ => Prog.all_perform trivial
  · rw [Prog.when, if_neg hok]
    trivial

theorem isolated_handleBinaryAudio (data : Bytes) : h.Isolated x (handleBinaryAudio x data) := by
  intro d hd
  cases hparse : parseAudioHeaderQuick data with
  | error err =>
    rw [handleBinaryAudio, hparse] at hd
    exact (List.not_mem_nil hd).elim
  | ok packet =>
    by_cases haccepts : h.Accepts x packet
    · rw [((handleBinaryAudio_cases hparse).1 haccepts).1, sent_dispatchAudio] at hd
      refine Or.inl ?_
      rcases List.mem_append.mp hd with hmem | hmem
      · obtain ⟨y, hy, rfl⟩ := List.mem_map.mp hmem
        unfold audience at hy
        split_ifs at hy with hflag
        · refine Or.inr (Or.inl ?_)
          simp [Frame.fleetWide, hparse, hflag]
        · refine Or.inr (Or.inr ?_)
          rw [haccepts.1]
          exact mem_subscribersOf.mp (List.mem_filter.mp hy).1
      · -- the relay is no client
        split_ifs at hmem
        · obtain rfl := List.mem_singleton.mp hmem
          trivial
        · cases hmem
    · rw [((handleBinaryAudio_cases hparse).2 haccepts).1] at hd
      exact (List.not_mem_nil hd).elim

/-- Every other signal stays on the channels of its sender. -/
theorem isolated_handleSignal {msg : ClientSignal} {choices : Choices}
    (hvideo : ∀ y, (Request.signal x msg choices).videoTarget h = some y →
      y = x ∨ h.Subscribed (h.heap x).currentChannelID y)
    (hpreempted : ∀ y, (Request.signal x msg choices).preempted h = some y →
      y = x ∨ h.Subscribed (h.heap x).currentChannelID y) :
    h.Isolated x (handleSignal x msg choices) := by
  have hfollows : (handleSignal x msg choices).Follows (tuning x) (fun _ _ => True) [] :=
    tuned_handleSignal msg choices
  cases msg with
  | identify p => exact isolated_of_follows hfollows (stays_identifySignal x p)
  | joinChannel p => exact isolated_when (isolated_switchChannel _ _)
  | createChannel p => exact isolated_createSignal p
  | pttDown => exact isolated_handlePTTDown hpreempted
  | pttUp => exact isolated_of_follows hfollows (stays_handlePTTUp x)
  | alertTone p =>
    refine isolated_of_follows hfollows (Prog.all_then trivial fun _ => Prog.all_ifSome fun _ =>
      Prog.all_then trivial fun _ => Prog.all_perform trivial)
  | allCall p =>
    refine isolated_of_follows hfollows (Prog.all_when <| Prog.all_then trivial fun _ =>
      Prog.all_then trivial fun _ => Prog.all_perform trivial)
  | location p =>
    refine isolated_of_follows hfollows (Prog.all_when <| Prog.all_then trivial fun _ =>
      Prog.all_then trivial fun _ => Prog.all_then trivial fun _ => Prog.all_ifSome fun _ =>
      Prog.all_perform trivial)
  | ping payload => exact isolated_of_follows hfollows (Prog.all_perform rfl)
  | chatMessage p =>
    refine isolated_of_follows hfollows (Prog.all_when <| Prog.all_then trivial fun _ =>
      Prog.all_then trivial fun _ => Prog.all_then trivial fun _ => Prog.all_then trivial fun _ =>
      Prog.all_ifSome fun _ => Prog.all_perform trivial)
  | videoCallStart p =>
    refine isolated_of_follows hfollows (Prog.all_then trivial fun _ => Prog.all_then trivial
      fun _ => Prog.all_ifSome fun _ => Prog.all_perform trivial)
  | videoCallEnd =>
    refine isolated_of_follows hfollows (Prog.all_then trivial fun _ => Prog.all_then trivial
      fun _ => Prog.all_when <| Prog.all_ifSome fun _ => Prog.all_perform trivial)
  | videoJoin p =>
    refine isolated_of_follows hfollows (Prog.all_then trivial fun _ => Prog.all_then trivial
      fun _ => Prog.all_ifSome fun _ => Prog.all_perform trivial)
  | videoRelay kind p =>
    by_cases hdirected : p.ok = true ∧ p.value.targetID ≠ ""
    · intro d hd
      replace hd : d ∈ sent (videoRelaySignal x kind p) h := hd
      rw [(sent_videoRelaySignal hdirected.1 hdirected.2).1] at hd
      obtain ⟨y, hy, rfl⟩ := List.mem_map.mp hd
      have htarget : (Request.signal x (.videoRelay kind p) choices).videoTarget h = some y :=
        (if_pos hdirected).trans (Option.mem_toList.mp hy)
      refine Or.inl ?_
      rcases hvideo y htarget with hx | hsub
      · exact Or.inl hx
      · exact Or.inr (Or.inr hsub)
    · exact isolated_of_follows hfollows (stays_videoRelaySignal hdirected)
  | other type => exact isolated_of_follows hfollows trivial

end Hub

/-- A message stays on the channels of its sender if and only if the clients that it is directed
to are there: the target of a video signal, and whoever loses the floor. -/
theorem isolated_iff {x : ClientRef} {r : Request} {h : Hub} (hr : r.sentBy x = true) :
    h.Isolated x r.prog ↔
      (∀ y, r.videoTarget h = some y → y = x ∨ h.Subscribed (h.heap x).currentChannelID y) ∧
      ∀ y, r.preempted h = some y → y = x ∨ h.Subscribed (h.heap x).currentChannelID y := by
  constructor
  · intro hisolated
    -- a message that is not fleet-wide reaches a client only as a subscriber or as the sender
    have hreach : ∀ {y : ClientRef} {msg : Signal} {now : ℤ}, msg.toAll = false →
        ((Hub.after r.prog h).heap x).currentChannelID = (h.heap x).currentChannelID →
        Delivery.enqueue y .highPri (.json msg now) ∈ Hub.sent r.prog h →
        y = x ∨ h.Subscribed (h.heap x).currentChannelID y := by
      intro y msg now hmsg hcur hd
      have hwithin := hisolated _ hd
      rw [hcur, or_self] at hwithin
      rcases hwithin with hx | hframe | hsub
      · exact Or.inl hx
      · replace hframe : msg.toAll = true := hframe
        rw [hmsg] at hframe
        cases hframe
      · exact Or.inr hsub
    constructor
    · intro y hy
      obtain ⟨kind, p, choices, rfl, hdirected, hclient⟩ := Request.videoTarget_eq hr hy
      have hrelay := @Hub.sent_videoRelaySignal x h kind p hdirected.1 hdirected.2
      obtain ⟨hsent, hheap⟩ := hrelay
      have hd : Delivery.enqueue y .highPri
          (.json (.videoRelay kind (Hub.stampVideo (h.heap x) p.value)) h.unixMilli) ∈
          Hub.sent (Hub.videoRelaySignal x kind p) h := by
        rw [hsent, hclient]
        exact List.mem_singleton_self _
      exact hreach rfl (congrArg (fun heap : Clients => (heap x).currentChannelID) hheap) hd
    · intro y hy
      obtain ⟨choices, rfl⟩ := Request.preempted_eq hr hy
      obtain ⟨msg, now, hd, hmsg⟩ := Hub.sent_to_preempted hy
      exact hreach hmsg (Hub.within_handlePTTDown choices).2 hd
  · rintro ⟨hvideo, hpreempted⟩
    cases r with
    | signal z msg choices =>
      obtain rfl : z = x := of_decide_eq_true hr
      exact Hub.isolated_handleSignal hvideo hpreempted
    | audio z data =>
      obtain rfl : z = x := of_decide_eq_true hr
      exact Hub.isolated_handleBinaryAudio data
    | _ => cases hr

section Holders

variable {s t : Server (Thread → Option Request)} {e : ServerEvent}

/-- Whoever holds a floor is subscribed to its channel, and whoever asks for one to its own. -/
structure HoldersSubscribed (s : Server (Thread → Option Request)) : Prop where
  holder : ∀ c y, s.hub.holder c = some y → s.hub.Subscribed c y
  asking : ∀ y choices, s.history (.client y) = some (.signal y .pttDown choices) →
    s.hub.Subscribed (s.hub.heap y).currentChannelID y

/-- The call of one client keeps that client subscribed wherever it holds a floor. -/
theorem holder_run_of_touched {op : HubOp} {y : ClientRef} {h : Hub} {c : ChannelID}
    (ht : op.touched = some y) (hh : ∀ c, h.holder c = some y → h.Subscribed c y)
    (hask : ∀ ch, op = .requestFloor ch y → h.Subscribed ch y)
    (hc : (op.run h).2.holder c = some y) : (op.run h).2.Subscribed c y := by
  have hsection : ∀ {α : Type} {ch : ChannelID} {absent : α} {f : Channel → α × Channel},
      h.Subscribed c y → (∀ chan, y ∈ chan.subscribers → y ∈ (f chan).2.subscribers) →
      (h.onChannel ch absent f).2.Subscribed c y := by
    rintro α ch absent f ⟨chan, hchan, hmem⟩ hf
    rw [Hub.Subscribed, Hub.lookup_onChannel]
    split_ifs with heq
    · rw [← heq, hchan]
      exact ⟨_, rfl, hf chan hmem⟩
    · exact ⟨chan, hchan, hmem⟩
  cases op with
  | register z first =>
    rw [Hub.holder, HubOp.channels_run rfl rfl] at hc
    rw [Hub.Subscribed, HubOp.channels_run rfl rfl]
    exact hh c hc
  | unregister z => exact hh c hc
  | setCurrentChannel z ch => exact hh c hc
  | addSubscriber ch z =>
    rw [HubOp.holder_run_addSubscriber] at hc
    refine hsection (hh c hc) fun chan hmem => ?_
    simp [Channel.addSubscriber, AList.mem_insert, hmem]
  | removeSubscriber ch z =>
    obtain rfl : z = y := Option.some.inj ht
    -- leaving its channel, the client gives up the floor there
    by_cases heq : c = ch
    · subst heq
      rcases HubOp.removeSubscriber_run h c z with ⟨_, _, hnone⟩ | ⟨hne, _, hsame⟩
      · rw [hnone] at hc
        cases hc
      · rw [hsame] at hc
        exact absurd hc hne
    · have hother : (HubOp.removeSubscriber ch z).target ≠ some c := fun hch =>
        heq (Option.some.inj hch).symm
      have hold : h.holder c = some z := by rwa [HubOp.holder_run_of_ne hother] at hc
      obtain ⟨chan, hchan, hmem⟩ := hh c hold
      rw [Hub.Subscribed, HubOp.run, Hub.lookup_onChannel, if_neg heq]
      exact ⟨chan, hchan, hmem⟩
  | requestFloor ch z =>
    obtain rfl : z = y := Option.some.inj ht
    have hsub : h.Subscribed c z := by
      by_cases heq : c = ch
      · rw [heq]
        exact hask ch rfl
      · have hother : (HubOp.requestFloor ch z).target ≠ some c := fun hch =>
          heq (Option.some.inj hch).symm
        refine hh c ?_
        rwa [HubOp.holder_run_of_ne hother] at hc
    refine hsection hsub fun chan hmem => ?_
    rwa [Channel.mem_subscribers_requestFloor]
  | _ => cases ht

/-- While a client's `ptt_down` is handled, no call of its own moves it. -/
theorem subscribed_run_of_pttDown {op : HubOp} {x y : ClientRef} {choices : Choices} {h : Hub}
    (hserved : op.servedBy (.signal x .pttDown choices) = true)
    (hs : h.Subscribed (h.heap y).currentChannelID y) :
    (op.run h).2.Subscribed ((op.run h).2.heap y).currentChannelID y := by
  by_cases ht : op.touched = some y
  · cases op with
    | requestFloor ch z =>
      obtain ⟨chan, hchan, hmem⟩ := hs
      rw [HubOp.run, Hub.onChannel_heap, Hub.Subscribed, Hub.lookup_onChannel]
      split_ifs with heq
      · rw [← heq, hchan]
        exact ⟨_, rfl, by rwa [Channel.mem_subscribers_requestFloor]⟩
      · exact ⟨chan, hchan, hmem⟩
    | register z first => cases hserved
    | unregister z => cases hserved
    | setCurrentChannel z ch => cases hserved
    | addSubscriber ch z => cases hserved
    | removeSubscriber ch z => cases hserved
    | _ => cases ht
  · have he := elsewhere_run ht h
    rw [he.current]
    exact (he.subscribed _).mpr hs

theorem HoldersSubscribed.of_elsewhere (hs : HoldersSubscribed s)
    (he : ∀ y, Elsewhere y s.hub t.hub) (hhist : t.history = s.history) : HoldersSubscribed t where
  holder := fun c y hc => ((he y).subscribed c).mpr (hs.holder c y ((he y).holder c hc))
  asking := fun y choices hr => by
    rw [(he y).current]
    rw [hhist] at hr
    exact ((he y).subscribed _).mpr (hs.asking y choices hr)

theorem HoldersSubscribed.step (hs : HoldersSubscribed s) (hunder : Underway servedObserver s)
    (hserving : Serving s) (hkeeps : KeepsToChannels s)
    (h : serverStep servedObserver s e = some t) : HoldersSubscribed t := by
  cases e with
  | serve r =>
    obtain ⟨hadm, hidle, _⟩ := serverStep_serve h
    obtain ⟨hhub, hstarts⟩ := serverStep_starts h
    have hhist : t.history = Function.update s.history r.thread (some r) := hstarts
    refine ⟨fun c y hc => ?_, fun y choices hr => ?_⟩
    · rw [hhub] at hc ⊢
      exact hs.holder c y hc
    · rw [hhub]
      rw [hhist] at hr
      by_cases hy : Thread.client y = r.thread
      · rw [hy, Function.update_self] at hr
        obtain rfl := Option.some.inj hr
        -- an idle client that is registered is subscribed to its current channel
        have hset := hunder.idle hidle
        obtain ⟨_, hset⟩ := hset
        rw [if_pos (of_decide_eq_true hadm)] at hset
        obtain ⟨ch, hp⟩ := hset
        rw [show (s.hub.heap y).currentChannelID = ch from hp.current]
        exact (hp.subscribed ch).mpr rfl
      · rw [Function.update_of_ne hy] at hr
        exact hs.asking y choices hr
  | advance i =>
    obtain ⟨op, k, hk, _, hhub, hhist, _, _⟩ := serverStep_advance h
    replace hhist : t.history = s.history := hhist
    obtain ⟨r, hr, hthread, hserved⟩ := hserving.request hk
    refine ⟨fun c y hc => ?_, fun y choices hask => ?_⟩
    · rw [hhub] at hc ⊢
      by_cases ht : op.touched = some y
      · obtain rfl := hkeeps.thread_of_touched hk ht
        refine holder_run_of_touched ht (fun c => hs.holder c y) (fun ch hop => ?_) hc
        subst hop
        -- a floor is asked for by a `ptt_down` alone, on the channel the client is tuned to
        have hrequest : ∃ x choices, r = .signal x .pttDown choices := by
          cases r with
          | signal x msg choices => cases msg <;> first | exact ⟨x, choices, rfl⟩ | cases hserved
          | _ => cases hserved
        obtain ⟨x, choices, rfl⟩ := hrequest
        obtain rfl : x = y := Thread.client.inj hthread
        have hch := (hkeeps.keepsTo hk).1
        rw [List.mem_singleton.mp hch]
        exact hs.asking x choices hr
      · have he := elsewhere_run ht s.hub
        exact (he.subscribed c).mpr (hs.holder c y (he.holder c hc))
    · rw [hhist] at hask
      rw [hhub]
      by_cases ht : op.touched = some y
      · obtain rfl := hkeeps.thread_of_touched hk ht
        obtain rfl := Option.some.inj (hr.symm.trans hask)
        exact subscribed_run_of_pttDown hserved (hs.asking y choices hask)
      · have he := elsewhere_run ht s.hub
        rw [he.current]
        exact (he.subscribed _).mpr (hs.asking y choices hask)
  | timerFires ch timer =>
    obtain ⟨hf, _, hhist, _⟩ := serverStep_timerFires h
    exact hs.of_elsewhere (fun y => elsewhere_fireTimer hf) hhist
  | tick d =>
    obtain ⟨_, _, hhist, _⟩ := serverStep_tick h
    exact hs.of_elsewhere (fun y => hkeeps.elsewhere h (Option.some_ne_none _).symm) hhist

end Holders

/-- In every reachable state, a message stays on the channels of its sender if and only if the
target of a directed video signal and the client that a `ptt_down` preempts are on them; and a
preempted client always is, if the hub has started with a channel. -/
theorem channel_isolation_iff {cfg : Config} {recorder : Option AudioRecorder} {roipRelay : Bool}
    {heap : Clients} {now : ℤ} {es : List ServerEvent} {s : Server (Thread → Option Request)}
    (hrun : Run (serverStep servedObserver)
      (Server.init (newHub cfg recorder roipRelay heap now) fun _ => none) es s)
    {x : ClientRef} {r : Request} (hr : r.sentBy x = true) :
    (s.hub.Isolated x r.prog ↔
      (∀ y, r.videoTarget s.hub = some y →
        y = x ∨ s.hub.Subscribed (s.hub.heap x).currentChannelID y) ∧
      ∀ y, r.preempted s.hub = some y →
        y = x ∨ s.hub.Subscribed (s.hub.heap x).currentChannelID y) ∧
    (cfg.defaultChannels ≠ [] → (s.hub.Isolated x r.prog ↔
      ∀ y, r.videoTarget s.hub = some y →
        y = x ∨ s.hub.Subscribed (s.hub.heap x).currentChannelID y)) := by
  refine ⟨isolated_iff hr, fun hcfg => ?_⟩
  have hinv : HoldersSubscribed s ∧ Underway servedObserver s ∧ Serving s ∧ KeepsToChannels s := by
    refine hrun.invariant (I := fun s => HoldersSubscribed s ∧ Underway servedObserver s ∧
      Serving s ∧ KeepsToChannels s) (fun s e t hs h => ?_) ?_
    · obtain ⟨hholders, hunder, hserving, hkeeps⟩ := hs
      exact ⟨hholders.step hunder hserving hkeeps h, underway_step _ _ _ _ hunder h,
        hserving.step h, hkeeps.step h⟩
    · refine ⟨⟨fun c y hc => ?_, fun y choices hask => by cases hask⟩,
        underway_init servedObserver _ hcfg recorder roipRelay heap now, Serving.init _,
        KeepsToChannels.init _ _⟩
      replace hc : (newHub cfg recorder roipRelay heap now).holder c = some y := hc
      rw [newHub_holder] at hc
      cases hc
  rw [isolated_iff hr]
  -- who is preempted holds the floor of the channel of `x`, so it is subscribed there
  refine and_iff_left_of_imp fun _ y hy => Or.inr ?_
  obtain ⟨choices, rfl⟩ := Request.preempted_eq hr hy
  obtain ⟨ch, hof, hreply⟩ := Option.bind_eq_some_iff.mp hy
  rw [← Hub.channelOf_eq hof]
  exact hinv.1.holder ch y (Hub.holder_of_preempted hreply).1

/-- Units 0 and 1 register and unit 1 goes to channel 2. -/
def apart : List ServerEvent :=
  uninterrupted (.connect 0 0) 10 ++ uninterrupted (.connect 1 0) 10 ++
    uninterrupted (.signal 1 (.joinChannel ⟨{ channelID := 2 }, true⟩) {}) 17

theorem channel_isolation_apart :
    ∃ s, Run (serverStep servedObserver)
        (Server.init (newHub defaultConfig none false sampleClients 0) fun _ => none) apart s ∧
      (s.hub.Isolated 0 (Request.signal 0 .pttDown {}).prog ↔
        ∀ y, (Request.signal 0 .pttDown {}).videoTarget s.hub = some y →
          y = 0 ∨ s.hub.Subscribed (s.hub.heap 0).currentChannelID y) := by
  have hrun := run_get (serverStep servedObserver)
    (Server.init (newHub defaultConfig none false sampleClients 0) fun _ => none) apart
    (by decide +kernel)
  exact ⟨_, hrun, (channel_isolation_iff hrun rfl).2 (by decide)⟩

/-- A video signal of unit 0 with the ID of unit 1 as its target reaches channel 2. -/
theorem channel_isolation_fails :
    ∃ s, Run (serverStep servedObserver)
        (Server.init (newHub defaultConfig none false sampleClients 0) fun _ => none) apart s ∧
      ∀ kind, ¬ s.hub.Isolated 0
        (Request.signal 0
          (.videoRelay kind ⟨{ channelID := 1, targetID := "disp1" }, true⟩) {}).prog := by
  refine ⟨_, run_get _ _ _ (by decide +kernel), fun kind hisolated => ?_⟩
  have hvideo := ((isolated_iff rfl).mp hisolated).1 1 (by cases kind <;> decide +kernel)
  rcases hvideo with hself | hsub
  · exact absurd hself (by decide)
  · exact absurd (Hub.mem_subscribersOf.mpr hsub) (by decide +kernel)

end TwoWayRadio

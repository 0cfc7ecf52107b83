import TwoWayRadio.HubMembership

/-! The handlers of a client act for that client, on the channel it is tuned to. -/
namespace TwoWayRadio
open Interleaving Transition

/-- Messages that the hub broadcasts to every registered client. -/
def Signal.toAll : Signal → Bool
  | .channelList _ | .channelActivity .. | .allCall _ => true
  | _ => false

/-- Messages that the hub sends straight to another client. -/
def Signal.directed : Signal → Bool
  | .floorStatus p => p.status = .denied
  | .videoRelay .. => true
  | _ => false

namespace HubOp

/-- The call is made for `x`, and the channel it names is among those that the handler knows to
be the channel of `x`. -/
def KeepsTo (x : ClientRef) (known : List ChannelID) : HubOp → Prop
  | register y _ | unregister y | currentChannel y | lookupSwitch y _ | appendChat y _
  | startVideo y _ | endVideo y | fields y | setCallsign y _ | setRole y _ | setLocation y _
  | setCurrentChannel y _ | allCallAudio y _ | sendJSON y _ => y = x
  | addSubscriber ch y | removeSubscriber ch y | requestFloor ch y | releaseFloor ch y
  | isFloorHolder ch y | onTransmissionStart ch y => ch ∈ known ∧ y = x
  | history ch | activeVideo ch | deleteVideo ch | appendVoice ch _ | getState ch
  | getUserCallsigns ch | getSubscribersInfo ch | broadcastSignal ch _ | appendAudio ch _
  | onTransmissionEnd ch | relay ch _ => ch ∈ known
  | broadcastAudio ch sender _ => ch ∈ known ∧ sender = some x
  | broadcastAll msg => msg.toAll = true
  | sendPriorityJSON y msg => y = x ∨ msg.directed = true
  | handleTOT .. => False
  | _ => True

theorem KeepsTo.mono {x : ClientRef} {known known' : List ChannelID} {op : HubOp}
    (hmem : ∀ ch ∈ known, ch ∈ known') (hop : op.KeepsTo x known) : op.KeepsTo x known' := by
  cases op with
  | addSubscriber ch y => exact ⟨hmem ch hop.1, hop.2⟩
  | removeSubscriber ch y => exact ⟨hmem ch hop.1, hop.2⟩
  | requestFloor ch y => exact ⟨hmem ch hop.1, hop.2⟩
  | releaseFloor ch y => exact ⟨hmem ch hop.1, hop.2⟩
  | isFloorHolder ch y => exact ⟨hmem ch hop.1, hop.2⟩
  | onTransmissionStart ch y => exact ⟨hmem ch hop.1, hop.2⟩
  | broadcastAudio ch sender data => exact ⟨hmem ch hop.1, hop.2⟩
  | history ch => exact hmem ch hop
  | activeVideo ch => exact hmem ch hop
  | deleteVideo ch => exact hmem ch hop
  | appendVoice ch p => exact hmem ch hop
  | getState ch => exact hmem ch hop
  | getUserCallsigns ch => exact hmem ch hop
  | getSubscribersInfo ch => exact hmem ch hop
  | broadcastSignal ch msg => exact hmem ch hop
  | appendAudio ch payload => exact hmem ch hop
  | onTransmissionEnd ch => exact hmem ch hop
  | relay ch data => exact hmem ch hop
  | _ => exact hop

/-- What a handler knows of its client's channel after a call. -/
def learns : (op : HubOp) → op.Res → List ChannelID → List ChannelID
  | register .., r, _ => r.toList
  | unregister _, r, known | currentChannel _, r, known | appendChat .., r, known
  | startVideo .., r, known => r.toList ++ known
  | lookupSwitch .., r, known => r.2.toList ++ known
  | endVideo _, r, known => r.1.toList ++ known
  | fields _, c, known => c.currentChannelID :: known
  | setCurrentChannel _ ch, _, _ => [ch]
  | _, _, known => known

end HubOp

/-- A handler of `x` keeps to what it knows of the channel of `x`. -/
def tuning (x : ClientRef) : Prog.Protocol HubOp.Res (List ChannelID) where
  ok := fun known op => op.KeepsTo x known
  next := fun known op r => op.learns r known
  can := fun _ _ => True

/-- Everything in the list is the channel that `x` is tuned to. -/
def Hub.Knows (x : ClientRef) (known : List ChannelID) (h : Hub) : Prop :=
  ∀ ch ∈ known, ch = (h.heap x).currentChannelID

theorem Hub.channelOf_eq {x : ClientRef} {ch : ChannelID} {h : Hub} (hc : h.channelOf x = some ch) :
    ch = (h.heap x).currentChannelID := by
  unfold Hub.channelOf at hc
  split_ifs at hc
  exact (Option.some.inj hc).symm

theorem Hub.channelOf_some {x : ClientRef} {ch : ChannelID} {h : Hub}
    (hcur : (h.heap x).currentChannelID = ch) (hc : h.HasChannel ch) : h.channelOf x = some ch := by
  rw [Hub.channelOf, hcur]
  exact if_pos hc

/-- What a handler learns of its client's channel is true of it. -/
theorem HubOp.knows_run {x : ClientRef} {known : List ChannelID} {op : HubOp} {h : Hub}
    (hop : op.KeepsTo x known) (hk : h.Knows x known) :
    (op.run h).2.Knows x (op.learns (op.run h).1 known) := by
  -- an answer is what the field of `x` says, and known ones say so still
  have hread : ∀ {r : Option ChannelID}, r = h.channelOf x → h.Knows x (r.toList ++ known) := by
    intro r hr ch hch
    rcases List.mem_append.mp hch with hmem | hmem
    · rw [Option.mem_toList, hr] at hmem
      exact Hub.channelOf_eq hmem
    · exact hk ch hmem
  have hheap : ∀ {h' : Hub}, h'.heap = h.heap → h'.Knows x known := by
    intro h' heq ch hch
    rw [heq]
    exact hk ch hch
  have hsame : ∀ {y : ClientRef} {c : Client}, c.currentChannelID = (h.heap y).currentChannelID →
      (h.setClient y c).Knows x known := by
    intro y c hc ch hch
    rw [hk ch hch]
    by_cases hy : x = y
    · rw [hy] at *
      simp [Hub.setClient, hc]
    · simp [Hub.setClient, Function.update_of_ne hy]
  cases op with
  -- a client that is registered is tuned to the channel that is the answer
  | register y first =>
    obtain rfl : y = x := hop
    intro ch hch
    have hfst : (h.register y first).1 = h.registrationChannel y first := by rw [Hub.register_eq]
    have hreg : h.registrationChannel y first = some ch := hfst ▸ Option.mem_toList.mp hch
    show ch = ((h.register y first).2.heap y).currentChannelID
    rw [Hub.register_eq, hreg]
    simp
  | unregister y =>
    obtain rfl : y = x := hop
    exact hread rfl
  | currentChannel y =>
    obtain rfl : y = x := hop
    exact hread rfl
  | lookupSwitch y new =>
    obtain rfl : y = x := hop
    exact hread rfl
  | appendChat y p =>
    obtain rfl : y = x := hop
    exact hread rfl
  | startVideo y p =>
    obtain rfl : y = x := hop
    exact hread rfl
  | endVideo y =>
    obtain rfl : y = x := hop
    have h' : ((endVideo y).run h).2.heap = h.heap := by
      simp only [run]
      split_ifs <;> rfl
    intro ch hch
    rw [h']
    exact hread rfl ch hch
  | fields y =>
    obtain rfl : y = x := hop
    intro ch hch
    rcases List.mem_cons.mp hch with rfl | hmem
    · rfl
    · exact hk ch hmem
  -- what was known of the channel before is forgotten
  | setCurrentChannel y ch =>
    obtain rfl : y = x := hop
    intro ch' hch
    rw [List.mem_singleton.mp hch]
    simp [run, Hub.setClient]
  | setCallsign y callsign => exact hsame rfl
  | setRole y role => exact hsame rfl
  | setLocation y location => exact hsame rfl
  | addSubscriber ch y => exact hheap (Hub.onChannel_heap ..)
  | removeSubscriber ch y => exact hheap (Hub.onChannel_heap ..)
  | requestFloor ch y => exact hheap (Hub.onChannel_heap ..)
  | releaseFloor ch y => exact hheap (Hub.onChannel_heap ..)
  | onTransmissionStart ch y => exact hheap (Hub.onRecorder_heap ..)
  | appendAudio ch payload => exact hheap (Hub.onRecorder_heap ..)
  | onTransmissionEnd ch => exact hheap (Hub.onRecorder_heap ..)
  | handleTOT ch timer => exact hop.elim
  | _ => exact hk

section Follows

open Prog

variable {x : ClientRef} {ch : ChannelID} {known : List ChannelID}

/-- Calls on the known channel that teach the handler nothing. -/
theorem tuned_of_all {α : Type} {p : HubProg α}
    (hp : p.All fun op => op.KeepsTo x known ∧ ∀ r, op.learns r known = known) :
    p.Follows (tuning x) (fun _ k => k = known) known :=
  follows_of_all (fun _ hop => hop) hp

theorem tuned_of_all_end {α : Type} {p : HubProg α}
    (hp : p.All fun op => op.KeepsTo x known ∧ ∀ r, op.learns r known = known) :
    p.Follows (tuning x) (fun _ _ => True) known :=
  (tuned_of_all hp).mono fun _ _ _ => trivial

theorem tuned_broadcastUserList (hch : ch ∈ known) :
    (Hub.broadcastUserList ch).Follows (tuning x) (fun _ k => k = known) known :=
  tuned_of_all <| all_then ⟨hch, fun _ => rfl⟩ fun _ => all_then ⟨hch, fun _ => rfl⟩ fun _ =>
    all_perform ⟨hch, fun _ => rfl⟩

theorem tuned_announceIdle (c : Client) (hch : ch ∈ known) :
    (Hub.announceIdle ch c).Follows (tuning x) (fun _ k => k = known) known :=
  tuned_of_all <| all_then ⟨hch, fun _ => rfl⟩ fun _ => all_then ⟨hch, fun _ => rfl⟩ fun _ =>
    all_perform ⟨rfl, fun _ => rfl⟩

theorem tuned_finishRecording (hch : ch ∈ known) :
    (Hub.finishRecording ch).Follows (tuning x) (fun _ k => k = known) known :=
  tuned_of_all <| all_then ⟨hch, fun _ => rfl⟩ fun _ =>
    all_bind (all_ifSome fun _ => all_perform ⟨hch, fun _ => rfl⟩) fun _ => trivial

theorem tuned_endVideoOf (hch : ch ∈ known) :
    (Hub.endVideoOf ch x).Follows (tuning x) (fun _ k => ch ∈ k) known := by
  refine follows_then hch fun video _ => follows_then rfl fun c _ => ?_
  have hmem : ch ∈ c.currentChannelID :: known := List.mem_cons_of_mem _ hch
  refine Follows.mono (fun _ k (hk : k = c.currentChannelID :: known) => hk ▸ hmem) ?_
  exact tuned_of_all <| all_when <| all_then ⟨hmem, fun _ => rfl⟩ fun _ =>
    all_perform ⟨hmem, fun _ => rfl⟩

theorem tuned_welcomeClient :
    (Hub.welcomeClient x).Follows (tuning x) (fun _ _ => True) known := by
  refine follows_then rfl fun c _ => follows_then rfl fun _ _ => follows_then trivial fun _ _ =>
    follows_then rfl fun _ _ => follows_then List.mem_cons_self fun r _ => ?_
  refine follows_bind (Q := fun _ _ => True) ?_ fun _ k _ => ?_
  · exact tuned_of_all_end (all_when (all_perform ⟨rfl, fun _ => rfl⟩))
  · exact tuned_of_all_end (all_ifSome fun v => all_perform ⟨rfl, fun _ => rfl⟩)

theorem tuned_registerClient (first : ℕ) :
    (Hub.registerClient x first).Follows (tuning x) (fun _ _ => True) [] := by
  refine follows_then rfl fun r _ => follows_bind (Q := fun _ _ => True) ?_ fun _ k _ =>
    tuned_welcomeClient
  cases r with
  | none => trivial
  | some ch =>
    refine follows_then ⟨List.mem_singleton_self ch, rfl⟩ fun _ _ => ?_
    exact (tuned_broadcastUserList (List.mem_singleton_self ch)).mono fun _ _ _ => trivial

theorem tuned_unregisterClient :
    (Hub.unregisterClient x).Follows (tuning x) (fun _ _ => True) known := by
  refine follows_then rfl fun r _ => ?_
  cases r with
  | none => trivial
  | some ch =>
    have hch : ch ∈ ch :: known := List.mem_cons_self
    refine follows_then ⟨hch, rfl⟩ fun released _ => follows_bind (tuned_broadcastUserList hch)
      fun _ k hk => follows_bind (tuned_endVideoOf (hk ▸ hch)) fun _ k hk => ?_
    unfold when
    split_ifs
    · exact follows_then rfl fun c _ =>
        (tuned_announceIdle c (List.mem_cons_of_mem _ hk)).mono fun _ _ _ => trivial
    · trivial

theorem tuned_leaveChannel (c : Client) (hch : ch ∈ known) :
    (Hub.leaveChannel x c ch).Follows (tuning x) (fun _ _ => True) known := by
  refine follows_then ⟨hch, rfl⟩ fun released _ => follows_bind (tuned_broadcastUserList hch)
    fun _ k hk => ?_
  obtain rfl : k = known := hk
  refine follows_bind (Q := fun _ k' => k' = k) ?_ fun _ k' hk' => ?_
  · unfold when
    split_ifs
    · exact tuned_announceIdle c hch
    · rfl
  · exact (tuned_endVideoOf (hk' ▸ hch)).mono fun _ _ _ => trivial

theorem tuned_enterChannel (new : ChannelID) :
    (Hub.enterChannel x new).Follows (tuning x) (fun _ _ => True) known := by
  have hnew : new ∈ [new] := List.mem_singleton_self new
  refine follows_then rfl fun _ _ => follows_then ⟨hnew, rfl⟩ fun _ _ =>
    follows_bind (tuned_broadcastUserList hnew) fun _ k hk => ?_
  obtain rfl : k = [new] := hk
  refine tuned_of_all_end ?_
  exact all_then ⟨hnew, fun _ => rfl⟩ fun _ => all_then ⟨rfl, fun _ => rfl⟩ fun _ =>
    all_then ⟨hnew, fun _ => rfl⟩ fun _ => all_then ⟨rfl, fun _ => rfl⟩ fun _ =>
    all_ifSome fun _ => all_perform ⟨rfl, fun _ => rfl⟩

theorem tuned_switchChannel (new : ChannelID) (password : String) :
    (Hub.switchChannel x new password).Follows (tuning x) (fun _ _ => True) known := by
  refine follows_then rfl fun r _ => ?_
  dsimp only
  split
  · exact follows_then rfl fun _ _ => trivial
  · refine follows_then rfl fun c _ => ?_
    split_ifs
    · trivial
    · exact follows_then rfl fun _ _ => trivial
    · refine follows_bind (Q := fun _ _ => True) ?_ fun _ k _ => tuned_enterChannel new
      cases hold : r.2 with
      | none => trivial
      | some ch =>
        refine tuned_leaveChannel c (List.mem_cons_of_mem _ (List.mem_append_left _ ?_))
        rw [hold]
        exact List.mem_singleton_self ch

theorem tuned_answerRequest (reply : FloorReply) (hch : ch ∈ known) :
    (Hub.answerRequest x ch reply).Follows (tuning x) (fun _ _ => True) known := by
  unfold Hub.answerRequest
  split_ifs
  · refine follows_then trivial fun _ _ => follows_bind (Q := fun _ k => ch ∈ k) ?_ fun _ k hk => ?_
    · cases reply.preempted with
      | none => exact hch
      | some y =>
        refine follows_then trivial fun _ _ => follows_bind (tuned_finishRecording hch)
          fun _ k hk => follows_then rfl fun c _ => follows_then (Or.inr rfl) fun _ _ => ?_
        exact List.mem_cons_of_mem _ (hk ▸ hch)
    · refine follows_then ⟨hk, rfl⟩ fun _ _ => follows_then rfl fun c _ => ?_
      refine follows_then (Or.inl rfl) fun _ _ => follows_then (List.mem_cons_of_mem _ hk)
        fun _ _ => follows_then rfl fun _ _ => trivial
  · exact follows_then (Or.inl rfl) fun _ _ => trivial

theorem tuned_handlePTTDown :
    (Hub.handlePTTDown x).Follows (tuning x) (fun _ _ => True) known := by
  refine follows_then rfl fun r _ => ?_
  cases r with
  | none => exact follows_then rfl fun _ _ => trivial
  | some ch =>
    have hch : ch ∈ ch :: known := List.mem_cons_self
    exact follows_then ⟨hch, rfl⟩ fun reply _ => tuned_answerRequest reply hch

theorem tuned_handlePTTUp :
    (Hub.handlePTTUp x).Follows (tuning x) (fun _ _ => True) known := by
  refine follows_then rfl fun r _ => ?_
  cases r with
  | none => trivial
  | some ch =>
    have hch : ch ∈ ch :: known := List.mem_cons_self
    refine follows_then ⟨hch, rfl⟩ fun released _ => ?_
    unfold when
    split_ifs
    · refine follows_bind (tuned_finishRecording hch) fun saved k hk => ?_
      obtain rfl : k = ch :: known := hk
      refine follows_then rfl fun c _ => ?_
      have hmem : ch ∈ c.currentChannelID :: ch :: known := List.mem_cons_of_mem _ hch
      refine follows_bind (Q := fun _ k => k = c.currentChannelID :: ch :: known) ?_
        fun _ k hk => ?_
      · exact tuned_of_all (all_ifSome fun r => all_perform ⟨hmem, fun _ => rfl⟩)
      · exact (tuned_announceIdle c (hk ▸ hmem)).mono fun _ _ _ => trivial
    · trivial

theorem tuned_handleBinaryAudio (data : Bytes) :
    (Hub.handleBinaryAudio x data).Follows (tuning x) (fun _ _ => True) known := by
  unfold Hub.handleBinaryAudio
  split
  · trivial
  · rename_i packet _
    refine follows_then trivial fun found _ => ?_
    unfold when
    split_ifs
    swap
    · trivial
    refine follows_then rfl fun c _ => ?_
    split_ifs with hcur
    swap
    · trivial
    -- the channel of the packet is known as the one of the client
    have hch : (packet.channelID.toNat : ChannelID) ∈ c.currentChannelID :: known := by
      rw [← hcur]
      exact List.mem_cons_self
    refine follows_then ⟨hch, rfl⟩ fun holder _ => ?_
    split_ifs
    swap
    · trivial
    refine tuned_of_all_end ?_
    refine all_then ⟨trivial, fun _ => rfl⟩ fun _ =>
      all_bind (all_when (all_perform ⟨hch, fun _ => rfl⟩)) fun _ => all_bind ?_ fun _ =>
      all_then ⟨trivial, fun _ => rfl⟩ fun _ => all_when (all_perform ⟨hch, fun _ => rfl⟩)
    unfold Hub.fanOut
    split_ifs
    · exact all_perform ⟨rfl, fun _ => rfl⟩
    · exact all_perform ⟨⟨hch, rfl⟩, fun _ => rfl⟩

/-- A broadcast to the channel that a call has looked up. -/
theorem tuned_broadcast {r : Option ChannelID} {msg : ChannelID → Signal}
    (hr : ∀ ch, r = some ch → ch ∈ known) :
    (ifSome r fun ch => (HubOp.broadcastSignal ch (msg ch)).call).Follows (tuning x)
      (fun _ _ => True) known := by
  cases r with
  | none => trivial
  | some ch => exact follows_then (hr ch rfl) fun _ _ => trivial

theorem mem_answer {r : Option ChannelID} (ch : ChannelID) (hr : r = some ch) :
    ch ∈ r.toList ++ known := by
  rw [hr]
  exact List.mem_cons_self

theorem tuned_when {c : Prop} [Decidable c] {p : HubProg Unit}
    (hp : p.Follows (tuning x) (fun _ _ => True) known) :
    (when c p).Follows (tuning x) (fun _ _ => True) known := by
  unfold when
  split_ifs
  · exact hp
  · trivial

theorem tuned_identifySignal (p : Decoded IdentifyPayload) :
    (Hub.identifySignal x p).Follows (tuning x) (fun _ _ => True) known := by
  refine tuned_when (follows_then rfl fun _ _ => follows_bind (Q := fun _ _ => True)
    (tuned_when (follows_then rfl fun _ _ => trivial)) fun _ k _ => follows_then rfl fun r _ => ?_)
  cases r with
  | none => trivial
  | some ch => exact (tuned_broadcastUserList List.mem_cons_self).mono fun _ _ _ => trivial

theorem tuned_createSignal (p : Decoded CreateChannelPayload) :
    (Hub.createSignal x p).Follows (tuning x) (fun _ _ => True) known :=
  tuned_when <| follows_then trivial fun newID _ => follows_then trivial fun _ _ =>
    follows_then rfl fun _ _ => tuned_switchChannel newID p.value.password

theorem tuned_videoRelaySignal (kind : VideoRelay) (p : Decoded VideoSignalingPayload) :
    (Hub.videoRelaySignal x kind p).Follows (tuning x) (fun _ _ => True) known := by
  refine tuned_when (follows_then rfl fun c _ => ?_)
  dsimp only
  split_ifs
  · refine follows_then trivial fun target _ => ?_
    cases target with
    | none => trivial
    | some y => exact follows_then (Or.inr rfl) fun _ _ => trivial
  · exact follows_then rfl fun r _ => tuned_broadcast mem_answer

theorem tuned_handleSignal (msg : ClientSignal) (choices : Choices) :
    (Hub.handleSignal x msg choices).Follows (tuning x) (fun _ _ => True) known := by
  cases msg with
  | identify p => exact tuned_identifySignal p
  | joinChannel p => exact tuned_when (tuned_switchChannel _ _)
  | createChannel p => exact tuned_createSignal p
  | pttDown => exact tuned_handlePTTDown
  | pttUp => exact tuned_handlePTTUp
  | alertTone p =>
    refine follows_then rfl fun r _ => ?_
    cases r with
    | none => trivial
    | some ch =>
      exact follows_then rfl fun c _ =>
        follows_then (List.mem_cons_of_mem _ List.mem_cons_self) fun _ _ => trivial
  | allCall p =>
    exact tuned_when (follows_then rfl fun c _ => follows_then trivial fun now _ =>
      follows_then rfl fun _ _ => trivial)
  | location p =>
    exact tuned_when (follows_then rfl fun c _ => follows_then rfl fun _ _ =>
      follows_then rfl fun r _ => tuned_broadcast mem_answer)
  | ping payload => exact follows_then (Or.inl rfl) fun _ _ => trivial
  | chatMessage p =>
    exact tuned_when (follows_then trivial fun now _ => follows_then rfl fun c _ =>
      follows_then trivial fun stamp _ => follows_then rfl fun r _ => tuned_broadcast mem_answer)
  | videoCallStart p =>
    exact follows_then rfl fun c _ => follows_then rfl fun r _ => tuned_broadcast mem_answer
  | videoCallEnd =>
    refine follows_then rfl fun r _ => follows_then rfl fun c _ => tuned_when ?_
    exact tuned_broadcast fun ch hch => List.mem_cons_of_mem _ (mem_answer ch hch)
  | videoJoin p =>
    exact follows_then rfl fun c _ => follows_then rfl fun r _ => tuned_broadcast mem_answer
  | videoRelay kind p => exact tuned_videoRelaySignal kind p
  | other type => trivial

theorem tuned_prog {r : Request} (hr : r.thread = .client x) :
    r.prog.Follows (tuning x) (fun _ _ => True) [] := by
  cases r with
  | connect y first =>
    obtain rfl := Thread.client.inj hr
    exact tuned_registerClient first
  | signal y msg choices =>
    obtain rfl := Thread.client.inj hr
    exact tuned_handleSignal msg choices
  | audio y data =>
    obtain rfl := Thread.client.inj hr
    exact tuned_handleBinaryAudio data
  | disconnect y =>
    obtain rfl := Thread.client.inj hr
    exact tuned_unregisterClient
  | totExpires ch timer => cases hr
  | datagram data => cases hr

end Follows

/-- Every handler of a client keeps to what it knows of that client's channel, and to that
client. -/
structure KeepsToChannels {γ : Type} (s : Server γ) : Prop where
  own : ∀ i, (s.pool.task i).All fun op => ∀ x, i ≠ .client x → op.touched ≠ some x
  tuned : ∀ x, ∃ known, s.hub.Knows x known ∧
    (s.pool.task (.client x)).Follows (tuning x) (fun _ _ => True) known

namespace KeepsToChannels

variable {γ : Type} {o : Observer γ} {s t : Server γ} {e : ServerEvent} {x : ClientRef}

theorem init (h : Hub) (g : γ) : KeepsToChannels (Server.init h g) :=
  ⟨fun _ => trivial, fun _ => ⟨[], fun _ hch => (List.not_mem_nil hch).elim, trivial⟩⟩

/-- A call that touches a client is made by its thread. -/
theorem thread_of_touched (hs : KeepsToChannels s) {i : Thread} {op : HubOp}
    {k : op.Res → HubProg Unit} (hk : s.pool.task i = .call op k) (ht : op.touched = some x) :
    i = .client x := by
  have hown := hs.own i
  rw [hk] at hown
  by_contra hne
  exact hown.1 x hne ht

/-- The steps of other threads leave a client where it is. -/
theorem elsewhere (hs : KeepsToChannels s) (h : serverStep o s e = some t)
    (he : e.thread ≠ some (.client x)) : Elsewhere x s.hub t.hub := by
  apply serverStep_elsewhere h
  rintro i op k rfl hk
  exact elsewhere_run (fun ht => he (congrArg some (hs.thread_of_touched hk ht))) s.hub

theorem current_step (hs : KeepsToChannels s) (h : serverStep o s e = some t)
    (he : e.thread ≠ some (.client x)) :
    (t.hub.heap x).currentChannelID = (s.hub.heap x).currentChannelID :=
  (hs.elsewhere h he).current

theorem step (hs : KeepsToChannels s) (h : serverStep o s e = some t) : KeepsToChannels t := by
  refine ⟨tasks_all_step own_prog hs.own h, fun x => ?_⟩
  obtain ⟨known, hknows, hfollows⟩ := hs.tuned x
  by_cases he : e.thread = some (.client x)
  -- a step of another thread leaves the channel of `x` and its handler as they are
  swap
  · refine ⟨known, fun ch hch => ?_, ?_⟩
    · rw [hs.current_step h he]
      exact hknows ch hch
    · rw [serverStep_task h he]
      exact hfollows
  cases e with
  | serve r =>
    obtain ⟨_, _, _, _, htask, _⟩ := serverStep_serve h
    have hthread : r.thread = .client x := Option.some.inj he
    rw [hthread] at htask
    exact ⟨[], fun _ hch => (List.not_mem_nil hch).elim, htask ▸ tuned_prog hthread⟩
  | advance i =>
    obtain rfl : i = .client x := Option.some.inj he
    obtain ⟨op, k, hk, _, hhub, _, htask, _⟩ := serverStep_advance h
    rw [hk] at hfollows
    obtain ⟨hok, hrest⟩ := hfollows
    refine ⟨op.learns (op.run s.hub).1 known, ?_, ?_⟩
    · rw [hhub]
      exact HubOp.knows_run hok hknows
    · rw [htask]
      exact hrest _ trivial
  | timerFires ch timer => cases he
  | tick d => cases he

/-- The next call of a handler of `x` is made for `x`, on the channel that `x` is tuned to. -/
theorem keepsTo (hs : KeepsToChannels s) {op : HubOp} {k : op.Res → HubProg Unit}
    (hk : s.pool.task (.client x) = .call op k) :
    op.KeepsTo x [(s.hub.heap x).currentChannelID] := by
  obtain ⟨known, hknows, hfollows⟩ := hs.tuned x
  rw [hk] at hfollows
  refine HubOp.KeepsTo.mono (fun ch hch => ?_) hfollows.1
  rw [hknows ch hch]
  exact List.mem_singleton_self _

end KeepsToChannels

end TwoWayRadio

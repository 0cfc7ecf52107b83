import TwoWayRadio.HubChannels
import TwoWayRadio.HubRequests

/-! Membership: where a client is subscribed and which floors it can hold, for any interleaving
of the handlers of all clients. -/
namespace TwoWayRadio
open Interleaving Transition

/-- The client whose membership or floor a call can extend. -/
def HubOp.touched : HubOp → Option ClientRef
  | register client _ | unregister client | addSubscriber _ client | removeSubscriber _ client
  | requestFloor _ client | setCurrentChannel client _ => some client
  | _ => none

/-- What a client can rely on while the calls of others change the hub. -/
structure Elsewhere (x : ClientRef) (h h' : Hub) : Prop where
  current : (h'.heap x).currentChannelID = (h.heap x).currentChannelID
  clients : x ∈ h'.clients ↔ x ∈ h.clients
  definition : ∀ ch d, h.definitionOf ch = some d → h'.definitionOf ch = some d
  subscribed : ∀ ch, h'.Subscribed ch x ↔ h.Subscribed ch x
  holder : ∀ ch, h'.holder ch = some x → h.holder ch = some x

namespace Elsewhere

variable {x : ClientRef} {h h' h'' : Hub}

theorem hasChannel (he : Elsewhere x h h') (ch : ChannelID) (hc : h.HasChannel ch) :
    h'.HasChannel ch := by
  obtain ⟨d, hd⟩ := Hub.hasChannel_iff_definition.mp hc
  exact Hub.hasChannel_iff_definition.mpr ⟨d, he.definition ch d hd⟩

theorem refl (x : ClientRef) (h : Hub) : Elsewhere x h h :=
  ⟨rfl, Iff.rfl, fun _ _ hd => hd, fun _ => Iff.rfl, fun _ hh => hh⟩

theorem trans (h₁ : Elsewhere x h h') (h₂ : Elsewhere x h' h'') : Elsewhere x h h'' where
  current := h₂.current.trans h₁.current
  clients := h₂.clients.trans h₁.clients
  definition := fun ch d hd => h₂.definition ch d (h₁.definition ch d hd)
  subscribed := fun ch => (h₂.subscribed ch).trans (h₁.subscribed ch)
  holder := fun ch hh => h₁.holder ch (h₂.holder ch hh)

/-- A change that reaches neither the channels, the registrations nor the client. -/
theorem of_eq (hch : h'.channels = h.channels) (hcl : x ∈ h'.clients ↔ x ∈ h.clients)
    (hcur : (h'.heap x).currentChannelID = (h.heap x).currentChannelID) : Elsewhere x h h' := by
  refine ⟨hcur, hcl, fun ch d hd => ?_, fun ch => ?_, fun ch hh => ?_⟩
  · rwa [Hub.definitionOf, hch]
  · rw [Hub.Subscribed, Hub.Subscribed, hch]
  · rwa [Hub.holder, hch] at hh

/-- A critical section that keeps the client's subscription and gives it no floor. -/
theorem onChannel {α : Type} (ch : ChannelID) (absent : α) (f : Channel → α × Channel)
    (hdef : ∀ c, (f c).2.definition = c.definition)
    (hsub : ∀ c, x ∈ (f c).2.subscribers ↔ x ∈ c.subscribers)
    (hfloor : ∀ c, (f c).2.activeSpeaker = some x → c.activeSpeaker = some x) :
    Elsewhere x h (h.onChannel ch absent f).2 := by
  refine ⟨by rw [Hub.onChannel_heap], by rw [Hub.onChannel_clients], fun ch' d hd => ?_,
    fun ch' => ?_, fun ch' hh => ?_⟩
  · rw [Hub.definitionOf, Hub.lookup_onChannel]
    split_ifs with heq
    · rw [Hub.definitionOf, heq] at hd
      rw [Option.map_map, ← hd]
      exact congrArg (fun g => Option.map g _) (funext hdef)
    · exact hd
  · simp only [Hub.Subscribed, Hub.lookup_onChannel]
    split_ifs with heq
    · rw [heq]
      cases h.channels.lookup ch with
      | none => simp
      | some c => simpa using hsub c
    · rfl
  · rw [Hub.holder, Hub.lookup_onChannel] at hh
    rw [Hub.holder]
    split_ifs at hh with heq
    · rw [heq]
      cases hc : h.channels.lookup ch with
      | none => rw [hc] at hh; cases hh
      | some c => rw [hc] at hh; exact hfloor c hh
    · exact hh

end Elsewhere

theorem Channel.mem_subscribers_requestFloor (clients : Clients) (client : ClientRef)
    (c : Channel) : (c.requestFloor clients client).2.subscribers = c.subscribers := by
  unfold Channel.requestFloor
  split
  · split_ifs <;> simp
  · simp

theorem Channel.requestFloor_speaker {clients : Clients} {client x : ClientRef} {c : Channel}
    (hx : client ≠ x) (h : (c.requestFloor clients client).2.activeSpeaker = some x) :
    c.activeSpeaker = some x := by
  unfold Channel.requestFloor at h
  split at h
  · split_ifs at h
    · exact h
    · exact absurd (by simpa using h) hx
    · exact h
  · exact absurd (by simpa using h) hx

/-- A call reaches only the client it names. -/
theorem elsewhere_run {x : ClientRef} {op : HubOp} (hop : op.touched ≠ some x) (h : Hub) :
    Elsewhere x h (op.run h).2 := by
  cases op with
  | register client first =>
    have hx : x ≠ client := fun heq => hop (by rw [heq]; rfl)
    show Elsewhere x h (h.register client first).2
    rw [Hub.register_eq]
    refine Elsewhere.of_eq rfl ?_ ?_
    · simp [AList.mem_insert, hx]
    · cases h.registrationChannel client first with
      | none => rfl
      | some id => simp [Function.update_of_ne hx]
  | unregister client =>
    have hx : x ≠ client := fun heq => hop (by rw [heq]; rfl)
    exact Elsewhere.of_eq rfl (by simp [HubOp.run, Hub.unregister, AList.mem_erase, hx]) rfl
  | setCurrentChannel client ch =>
    have hx : x ≠ client := fun heq => hop (by rw [heq]; rfl)
    exact Elsewhere.of_eq rfl Iff.rfl (by simp [HubOp.run, Hub.setClient, Function.update_of_ne hx])
  | setCallsign client callsign =>
    refine Elsewhere.of_eq rfl Iff.rfl ?_
    by_cases hx : x = client <;> simp [HubOp.run, Hub.setClient, hx]
  | setRole client role =>
    refine Elsewhere.of_eq rfl Iff.rfl ?_
    by_cases hx : x = client <;> simp [HubOp.run, Hub.setClient, hx]
  | setLocation client location =>
    refine Elsewhere.of_eq rfl Iff.rfl ?_
    by_cases hx : x = client <;> simp [HubOp.run, Hub.setClient, hx]
  | createChannel p =>
    -- the new channel takes an ID that none has, so it takes nothing from `x`
    have hfree := h.newChannelID_fresh
    refine ⟨rfl, Iff.rfl, fun ch d hd => ?_, fun ch => ?_, fun ch hh => ?_⟩
    · rw [Hub.definitionOf, HubOp.lookup_createChannel]
      rw [Hub.definitionOf] at hd
      split_ifs with heq
      · rw [heq, hfree] at hd
        cases hd
      · exact hd
    · simp only [Hub.Subscribed, HubOp.lookup_createChannel]
      split_ifs with heq
      · rw [heq, hfree]
        simp [newChannel]
      · rfl
    · rw [Hub.holder, HubOp.lookup_createChannel] at hh
      split_ifs at hh with heq
      · cases hh
      · exact hh
  | addSubscriber ch client =>
    have hx : x ≠ client := fun heq => hop (by rw [heq]; rfl)
    exact Elsewhere.onChannel ch _ _ (fun _ => rfl)
      (fun c => by simp [Channel.addSubscriber, AList.mem_insert, hx]) (fun c hc => hc)
  | removeSubscriber ch client =>
    have hx : x ≠ client := fun heq => hop (by rw [heq]; rfl)
    refine Elsewhere.onChannel ch _ _ (fun c => ?_) (fun c => ?_) (fun c hc => ?_)
    · rw [Channel.removeSubscriber_eq, Channel.releaseFloor_definition]
    · rw [Channel.removeSubscriber_eq, Channel.releaseFloor_subscribers]
      simp [AList.mem_erase, hx]
    · rw [Channel.removeSubscriber_eq] at hc
      exact Channel.releaseFloor_speaker
        (c := { c with subscribers := c.subscribers.erase client }) hc
  | requestFloor ch client =>
    have hx : client ≠ x := fun heq => hop (by rw [heq]; rfl)
    exact Elsewhere.onChannel ch _ _ (fun c => Channel.requestFloor_definition ..)
      (fun c => by rw [Channel.mem_subscribers_requestFloor])
      (fun c hc => Channel.requestFloor_speaker hx hc)
  | releaseFloor ch client =>
    exact Elsewhere.onChannel ch _ _ (fun c => Channel.releaseFloor_definition ..)
      (fun c => by rw [Channel.releaseFloor_subscribers])
      (fun c hc => Channel.releaseFloor_speaker hc)
  | handleTOT ch timer =>
    refine Elsewhere.onChannel ch _ _ (fun c => Channel.runTimer_definition ..) (fun c => ?_)
      (fun c hc => ?_)
    · rcases c.runTimer_getD timer with heq | ⟨_, _, _, heq⟩ <;> rw [heq]
    · rcases c.runTimer_getD timer with heq | ⟨_, heq, _, _⟩
      · rwa [heq] at hc
      · rw [heq] at hc
        cases hc
  | endVideo client =>
    refine Elsewhere.of_eq (HubOp.channels_run rfl rfl h) ?_ ?_ <;>
      (simp only [HubOp.run]; split_ifs <;> rfl)
  | onTransmissionStart ch speaker =>
    exact Elsewhere.of_eq (HubOp.channels_run rfl rfl h) (by simp [HubOp.run]) (by simp [HubOp.run])
  | appendAudio ch payload =>
    exact Elsewhere.of_eq (HubOp.channels_run rfl rfl h) (by simp [HubOp.run]) (by simp [HubOp.run])
  | onTransmissionEnd ch =>
    exact Elsewhere.of_eq (HubOp.channels_run rfl rfl h) (by simp [HubOp.run]) (by simp [HubOp.run])
  | _ => exact Elsewhere.of_eq rfl Iff.rfl rfl

/-- A client whose handlers have brought it to channel `loc`, with `cur` as its current
channel: it is subscribed there and nowhere else, and can hold no other floor. -/
structure Placed (x : ClientRef) (registered : Prop) (loc : Option ChannelID) (cur : ChannelID)
    (h : Hub) : Prop where
  clients : x ∈ h.clients ↔ registered
  current : (h.heap x).currentChannelID = cur
  subscribed : ∀ ch, h.Subscribed ch x ↔ loc = some ch
  holder : ∀ ch, h.holder ch = some x → loc = some ch

/-- Registered and tuned to its current channel. -/
def Home (x : ClientRef) (h : Hub) : Prop := ∃ ch, Placed x True (some ch) ch h

/-- Not registered and nowhere subscribed. -/
def Away (x : ClientRef) (h : Hub) : Prop := ∃ cur, Placed x False none cur h

section Placed

variable {x : ClientRef} {registered : Prop} {loc : Option ChannelID} {cur ch : ChannelID}
  {h h' : Hub}

theorem Placed.stable (hp : Placed x registered loc cur h) (he : Elsewhere x h h') :
    Placed x registered loc cur h' where
  clients := he.clients.trans hp.clients
  current := he.current.trans hp.current
  subscribed := fun ch => (he.subscribed ch).trans (hp.subscribed ch)
  holder := fun ch hh => hp.holder ch (he.holder ch hh)

theorem Home.stable (hp : Home x h) (he : Elsewhere x h h') : Home x h' := by
  obtain ⟨ch, hp⟩ := hp
  exact ⟨ch, hp.stable he⟩

theorem Away.stable (hp : Away x h) (he : Elsewhere x h h') : Away x h' := by
  obtain ⟨cur, hp⟩ := hp
  exact ⟨cur, hp.stable he⟩

theorem Placed.hasChannel (hp : Placed x registered (some ch) cur h) : h.HasChannel ch :=
  ((hp.subscribed ch).mpr rfl).hasChannel

theorem Placed.channelOf (hp : Placed x registered loc cur h) (hc : h.HasChannel cur) :
    h.channelOf x = some cur := by
  rw [Hub.channelOf, hp.current]
  exact if_pos hc

/-- The fallback of a registration always finds a channel. -/
theorem registrationChannel_some (first : ℕ) (hc : ∃ ch, h.HasChannel ch) :
    ∃ ch, h.registrationChannel x first = some ch ∧ h.HasChannel ch := by
  unfold Hub.registrationChannel
  cases hof : h.channelOf x with
  | some ch =>
    refine ⟨ch, rfl, ?_⟩
    unfold Hub.channelOf at hof
    split_ifs at hof with hsome
    rw [← Option.some.inj hof]
    exact hsome
  | none =>
    obtain ⟨ch, hc⟩ := hc
    have hmem : ch ∈ h.channels.keys := AList.mem_keys.mp (AList.lookup_isSome.mp hc)
    have hlt : first % h.channels.keys.length < h.channels.keys.length :=
      Nat.mod_lt _ (List.length_pos_of_mem hmem)
    refine ⟨h.channels.keys[first % h.channels.keys.length], List.getElem?_eq_getElem hlt, ?_⟩
    exact AList.lookup_isSome.mpr (AList.mem_keys.mpr (List.getElem_mem hlt))

theorem Placed.register (first : ℕ) (hp : Placed x False none cur h)
    (hc : ∃ ch, h.HasChannel ch) :
    ∃ ch, (h.register x first).1 = some ch ∧ (h.register x first).2.HasChannel ch ∧
      Placed x True none ch (h.register x first).2 := by
  obtain ⟨ch, hreg, hch⟩ := registrationChannel_some (x := x) first hc
  rw [Hub.register_eq, hreg]
  refine ⟨ch, rfl, hch, ?_, ?_, hp.subscribed, hp.holder⟩
  · simp [AList.mem_insert]
  · simp

theorem Placed.unregister (hp : Placed x registered loc cur h) :
    Placed x False loc cur (h.unregister x).2 where
  clients := by simp [Hub.unregister, AList.mem_erase]
  current := hp.current
  subscribed := hp.subscribed
  holder := hp.holder

theorem Placed.setCurrentChannel (hp : Placed x registered loc cur h) (new : ChannelID) :
    Placed x registered loc new ((HubOp.setCurrentChannel x new).run h).2 where
  clients := hp.clients
  current := by simp [HubOp.run, Hub.setClient]
  subscribed := hp.subscribed
  holder := hp.holder

theorem Placed.addSubscriber (hp : Placed x registered none cur h) (hc : h.HasChannel ch) :
    Placed x registered (some ch) cur ((HubOp.addSubscriber ch x).run h).2 := by
  obtain ⟨c, hc⟩ := Hub.hasChannel_iff.mp hc
  refine ⟨by simpa [HubOp.run] using hp.clients, by simpa [HubOp.run] using hp.current,
    fun ch' => ?_, fun ch' hh => ?_⟩
  · simp only [HubOp.run, Hub.Subscribed, Hub.lookup_onChannel]
    split_ifs with heq
    · rw [heq, hc]
      simp [Channel.addSubscriber, AList.mem_insert]
    · have hno : ¬ h.Subscribed ch' x := fun hs => by
        have hnone := (hp.subscribed ch').mp hs
        cases hnone
      have hne : (some ch = some ch') ↔ False := by
        simp only [Option.some.injEq, iff_false]
        exact fun h => heq h.symm
      rw [hne]
      exact iff_false_intro hno
  · exfalso
    have hnone : none = some ch' := by
      refine hp.holder ch' ?_
      rw [Hub.holder, HubOp.run, Hub.lookup_onChannel] at hh
      rw [Hub.holder]
      split_ifs at hh with heq
      · rw [hc] at hh
        rw [heq, hc]
        exact hh
      · exact hh
    cases hnone

theorem Placed.removeSubscriber (hp : Placed x registered (some ch) cur h) :
    Placed x registered none cur ((HubOp.removeSubscriber ch x).run h).2 := by
  obtain ⟨c, hc⟩ := Hub.hasChannel_iff.mp hp.hasChannel
  refine ⟨by simpa [HubOp.run] using hp.clients, by simpa [HubOp.run] using hp.current,
    fun ch' => ?_, fun ch' hh => ?_⟩
  · refine iff_of_false (fun hs => ?_) (Option.some_ne_none ch').symm
    obtain ⟨c', hc', hmem⟩ := hs
    rw [HubOp.run, Hub.lookup_onChannel] at hc'
    split_ifs at hc' with heq
    · rw [hc] at hc'
      obtain rfl := Option.some.inj hc'
      have hmem : x ∈ (c.removeSubscriber x).2.subscribers := hmem
      rw [Channel.removeSubscriber_eq, Channel.releaseFloor_subscribers] at hmem
      exact (AList.mem_erase.mp hmem).1 rfl
    · have hat := (hp.subscribed ch').mp ⟨c', hc', hmem⟩
      exact heq (Option.some.inj hat).symm
  · exfalso
    rw [Hub.holder, HubOp.run, Hub.lookup_onChannel] at hh
    split_ifs at hh with heq
    · rw [hc] at hh
      have hspk : (c.removeSubscriber x).2.activeSpeaker = some x := hh
      rw [Channel.removeSubscriber_eq] at hspk
      rcases Channel.releaseFloor_cases x { c with subscribers := c.subscribers.erase x } with
        ⟨_, _, hrel⟩ | ⟨hne, hrel⟩
      · rw [hrel] at hspk
        cases hspk
      · rw [hrel] at hspk
        exact hne hspk
    · exact heq (Option.some.inj (hp.holder ch' hh)).symm

theorem Placed.requestFloor (hp : Placed x registered (some ch) cur h) :
    Placed x registered (some ch) cur ((HubOp.requestFloor ch x).run h).2 := by
  refine ⟨by simpa [HubOp.run] using hp.clients, by simpa [HubOp.run] using hp.current,
    fun ch' => ?_, fun ch' hh => ?_⟩
  · rw [← hp.subscribed ch']
    simp only [HubOp.run, Hub.Subscribed, Hub.lookup_onChannel]
    split_ifs with heq
    · rw [heq]
      cases h.channels.lookup ch with
      | none => simp
      | some c => simp [Channel.mem_subscribers_requestFloor]
    · rfl
  · by_cases heq : ch' = ch
    · rw [heq]
    · rw [Hub.holder, HubOp.run, Hub.lookup_onChannel, if_neg heq] at hh
      exact hp.holder ch' hh

end Placed

section Outlines

variable {γ : Type} (o : Observer γ) (x : ClientRef)

/-- The rest of a handler of `x` leads from `s` to a state satisfying `Q`, whatever the other
threads do in between. -/
def Leads {α : Type} (Q : α → Hub → Prop) (p : HubProg α) (s : Hub × γ) : Prop :=
  p.Outline (o.run (.client x)) (fun s t => Elsewhere x s.1 t.1) (fun _ _ => True)
    (fun a t => Q a t.1) s

variable {o x}

theorem leads_call {α : Type} {Q : α → Hub → Prop} {op : HubOp} {k : op.Res → HubProg α}
    {s : Hub × γ} (h : ∀ t : Hub × γ, Elsewhere x s.1 t.1 →
      ∀ t' : Hub × γ, t'.1 = (op.run t.1).2 → Leads o x Q (k (op.run t.1).1) t') :
    Leads o x Q (.call op k) s :=
  fun t ht => ⟨trivial, h t ht _ rfl⟩

theorem leads_bind {α β : Type} {Q : α → Hub → Prop} {Q' : β → Hub → Prop} {p : HubProg α}
    {f : α → HubProg β} {s : Hub × γ} (hp : Leads o x Q p s)
    (hf : ∀ a t, Q a t.1 → Leads o x Q' (f a) t) : Leads o x Q' (p >>= f) s :=
  Prog.outline_bind hp hf

/-- Calls that name no client keep whatever the others' calls keep. -/
theorem leads_of_all {α : Type} {I : Hub → Prop} {p : HubProg α} {s : Hub × γ}
    (hI : ∀ h h', Elsewhere x h h' → I h → I h')
    (hp : p.All fun op => op.touched = none) (hs : I s.1) : Leads o x (fun _ => I) p s :=
  Prog.outline_of_all (R := fun s t : Hub × γ => Elsewhere x s.1 t.1)
    (fun op t hop => elsewhere_run (by rw [hop]; exact (Option.some_ne_none x).symm) t.1)
    (fun _ _ _ => trivial) (fun s t => hI s.1 t.1) hp hs

theorem leads_call_of_untouched {α : Type} {I : Hub → Prop} {Q : α → Hub → Prop} {op : HubOp}
    {k : op.Res → HubProg α} {s : Hub × γ} (hI : ∀ h h', Elsewhere x h h' → I h → I h')
    (hop : op.touched = none) (hs : I s.1) (hk : ∀ r t, I t.1 → Leads o x Q (k r) t) :
    Leads o x Q (.call op k) s := by
  refine leads_call fun t ht t' ht' => hk _ t' ?_
  rw [ht']
  exact hI _ _ (elsewhere_run (by rw [hop]; exact (Option.some_ne_none x).symm) t.1) (hI _ _ ht hs)

theorem touched_of_background {op : HubOp} (h : op.background = true) : op.touched = none := by
  cases op <;> first | rfl | cases h

theorem leads_of_background {α : Type} {I : Hub → Prop} {p : HubProg α} {s : Hub × γ}
    (hI : ∀ h h', Elsewhere x h h' → I h → I h') (hp : Hub.Background p) (hs : I s.1) :
    Leads o x (fun _ => I) p s :=
  leads_of_all hI (hp.mono fun _ => touched_of_background) hs

theorem untouched_announceIdle (ch : ChannelID) (c : Client) :
    (Hub.announceIdle ch c).All fun op => op.touched = none :=
  ⟨rfl, fun _ => ⟨rfl, fun _ => ⟨rfl, fun _ => trivial⟩⟩⟩

theorem untouched_finishRecording (ch : ChannelID) :
    (Hub.finishRecording ch).All fun op => op.touched = none := by
  simp only [Hub.finishRecording, Prog.perform_bind]
  exact ⟨rfl, fun saved => Prog.all_bind (Prog.all_ifSome fun r => Prog.all_perform rfl)
    fun _ => trivial⟩

theorem untouched_welcomeClient (client : ClientRef) :
    (Hub.welcomeClient client).All fun op => op.touched = none :=
  Prog.all_then rfl fun _ => Prog.all_then rfl fun _ => Prog.all_then rfl fun _ =>
    Prog.all_then rfl fun _ => Prog.all_then rfl fun _ =>
    Prog.all_bind (Prog.all_when (Prog.all_perform rfl)) fun _ =>
    Prog.all_ifSome fun _ => Prog.all_perform rfl

theorem untouched_showChannel (client : ClientRef) (ch : ChannelID) :
    (Hub.showChannel client ch).All fun op => op.touched = none :=
  Prog.all_then rfl fun _ => Prog.all_then rfl fun _ => Prog.all_then rfl fun _ =>
    Prog.all_then rfl fun _ => Prog.all_ifSome fun _ => Prog.all_perform rfl

theorem untouched_answerRequest (client : ClientRef) (ch : ChannelID) (reply : FloorReply) :
    (Hub.answerRequest client ch reply).All fun op => op.touched = none := by
  unfold Hub.answerRequest
  split_ifs
  · refine Prog.all_then rfl fun _ => Prog.all_bind (Prog.all_ifSome fun preempted => ?_)
      fun _ => Prog.all_then rfl fun _ => Prog.all_then rfl fun c => Prog.all_then rfl fun _ =>
      Prog.all_then rfl fun _ => Prog.all_perform rfl
    exact Prog.all_then rfl fun _ => Prog.all_bind (untouched_finishRecording ch) fun _ =>
      Prog.all_then rfl fun c => Prog.all_perform rfl
  · exact Prog.all_perform rfl

theorem registerClient_leads {first : ℕ} {s : Hub × γ} (hp : Away x s.1)
    (hc : ∃ ch, s.1.HasChannel ch) :
    Leads o x (fun _ => Home x) (Hub.registerClient x first) s := by
  simp only [Hub.registerClient, Prog.perform_bind]
  refine leads_call fun t ht t' ht' => ?_
  obtain ⟨cur, hp⟩ := hp.stable ht
  obtain ⟨ch, hch⟩ := hc
  obtain ⟨ch, hreg, hch, hp⟩ := hp.register first ⟨ch, ht.hasChannel ch hch⟩
  have hanswer : ((HubOp.register x first).run t.1).1 = some ch := hreg
  rw [hanswer]
  rw [show (HubOp.register x first).run t.1 = t.1.register x first from rfl] at ht'
  rw [← ht'] at hch hp
  refine leads_bind (Q := fun _ => Home x) ?_ fun _ u hu => ?_
  · refine leads_call fun u hu u' hu' => ?_
    refine leads_of_background (fun _ _ he h => h.stable he)
      (Hub.background_broadcastUserList ch) ⟨ch, ?_⟩
    rw [hu']
    exact (hp.stable hu).addSubscriber (hu.hasChannel ch hch)
  · exact leads_of_all (fun _ _ he h => h.stable he) (untouched_welcomeClient x) hu

theorem unregisterClient_leads {s : Hub × γ} (hp : Home x s.1) :
    Leads o x (fun _ h => Away x h ∧ ∃ ch, h.HasChannel ch) (Hub.unregisterClient x) s := by
  simp only [Hub.unregisterClient, Prog.perform_bind]
  refine leads_call fun t ht t' ht' => ?_
  obtain ⟨ch, hp⟩ := hp.stable ht
  have hanswer : ((HubOp.unregister x).run t.1).1 = some ch := hp.channelOf hp.hasChannel
  rw [hanswer]
  have hp' := hp.unregister
  rw [show (t.1.unregister x).2 = t'.1 from ht'.symm] at hp'
  refine leads_call fun u hu u' hu' => ?_
  have haway : Away x u'.1 ∧ ∃ ch, u'.1.HasChannel ch := by
    rw [hu']
    exact ⟨⟨ch, (hp'.stable hu).removeSubscriber⟩, ch,
      HubOp.hasChannel_run _ (hp'.stable hu).hasChannel⟩
  refine leads_of_all (fun _ _ he h => ?_) ?_ haway
  · obtain ⟨hx, ch, hch⟩ := h
    exact ⟨hx.stable he, ch, he.hasChannel ch hch⟩
  · exact Prog.all_bind ((Hub.background_broadcastUserList ch).mono fun _ => touched_of_background)
      fun _ => Prog.all_bind ((Hub.background_endVideoOf ch x).mono fun _ => touched_of_background)
      fun _ => Prog.all_when (Prog.all_then rfl fun c => untouched_announceIdle ch c)

theorem leaveChannel_leads {ch cur new : ChannelID} {c : Client} {s : Hub × γ}
    (hp : Placed x True (some ch) cur s.1) (hnew : s.1.HasChannel new) :
    Leads o x (fun _ h => Placed x True none cur h ∧ h.HasChannel new)
      (Hub.leaveChannel x c ch) s := by
  simp only [Hub.leaveChannel, Prog.perform_bind]
  refine leads_call fun t ht t' ht' => ?_
  refine leads_of_all (fun _ _ he h => ⟨h.1.stable he, he.hasChannel new h.2⟩) ?_ ?_
  · exact Prog.all_bind ((Hub.background_broadcastUserList ch).mono fun _ => touched_of_background)
      fun _ => Prog.all_bind (Prog.all_when (untouched_announceIdle ch c))
      fun _ => (Hub.background_endVideoOf ch x).mono fun _ => touched_of_background
  · rw [ht']
    exact ⟨(hp.stable ht).removeSubscriber, HubOp.hasChannel_run _ (ht.hasChannel new hnew)⟩

theorem enterChannel_leads {cur new : ChannelID} {s : Hub × γ} (hp : Placed x True none cur s.1)
    (hc : s.1.HasChannel new) : Leads o x (fun _ => Home x) (Hub.enterChannel x new) s := by
  simp only [Hub.enterChannel, Prog.perform_bind]
  refine leads_call fun t ht t' ht' => leads_call fun u hu u' hu' => ?_
  have hnew : t'.1.HasChannel new := by
    rw [ht']
    exact HubOp.hasChannel_run _ (ht.hasChannel new hc)
  have hp' : Placed x True none new t'.1 := by
    rw [ht']
    exact (hp.stable ht).setCurrentChannel new
  have hhome : Home x u'.1 := by
    rw [hu']
    exact ⟨new, (hp'.stable hu).addSubscriber (hu.hasChannel new hnew)⟩
  refine leads_of_all (fun _ _ he h => h.stable he) ?_ hhome
  exact Prog.all_bind ((Hub.background_broadcastUserList new).mono fun _ => touched_of_background)
    fun _ => untouched_showChannel x new

theorem switchChannel_leads {new : ChannelID} {password : String} {s : Hub × γ}
    (hp : Home x s.1) : Leads o x (fun _ => Home x) (Hub.switchChannel x new password) s := by
  simp only [Hub.switchChannel, Prog.perform_bind]
  refine leads_call fun t ht t' ht' => ?_
  obtain ⟨ch, hp⟩ := hp.stable ht
  have hp' : Placed x True (some ch) ch t'.1 := by
    rw [ht']
    exact hp
  -- the switch leaves the channel that `x` is on, as nobody else moves it
  have hold : ((HubOp.lookupSwitch x new).run t.1).1.2 = some ch := hp.channelOf hp.hasChannel
  cases htarget : ((HubOp.lookupSwitch x new).run t.1).1.1 with
  | none =>
    exact leads_of_all (fun _ _ he h => h.stable he) (Prog.all_perform rfl) ⟨ch, hp'⟩
  | some definition =>
    have hnew : t'.1.HasChannel new := by
      rw [ht']
      have hsome : (Option.map (fun c : Channel => c.definition)
          (t.1.channels.lookup new)).isSome = true := by
        rw [show Option.map (fun c : Channel => c.definition) (t.1.channels.lookup new) =
          some definition from htarget]
        rfl
      rwa [Option.isSome_map] at hsome
    refine leads_call fun u hu u' hu' => ?_
    have hpu : Placed x True (some ch) ch u'.1 := by
      rw [hu']
      exact hp'.stable hu
    have hnewu : u'.1.HasChannel new := by
      rw [hu']
      exact hu.hasChannel new hnew
    split_ifs
    · exact ⟨ch, hpu⟩
    · exact leads_of_all (fun _ _ he h => h.stable he) (Prog.all_perform rfl) ⟨ch, hpu⟩
    · -- between leaving and entering, `x` is on no channel and the new one still exists
      refine leads_bind (Q := fun _ h => Placed x True none ch h ∧ h.HasChannel new) ?_
        fun _ v hv => enterChannel_leads hv.1 hv.2
      rw [show ((HubOp.lookupSwitch x new).run t.1).1.2 = some ch from hold]
      exact leaveChannel_leads hpu hnewu

theorem handlePTTDown_leads {s : Hub × γ} (hp : Home x s.1) :
    Leads o x (fun _ => Home x) (Hub.handlePTTDown x) s := by
  simp only [Hub.handlePTTDown, Prog.perform_bind]
  refine leads_call fun t ht t' ht' => ?_
  obtain ⟨ch, hp⟩ := hp.stable ht
  have hanswer : ((HubOp.currentChannel x).run t.1).1 = some ch := hp.channelOf hp.hasChannel
  rw [hanswer]
  rw [show ((HubOp.currentChannel x).run t.1).2 = t.1 from rfl] at ht'
  rw [← ht'] at hp
  refine leads_call fun u hu u' hu' => ?_
  have hhome : Home x u'.1 := by
    rw [hu']
    exact ⟨ch, (hp.stable hu).requestFloor⟩
  exact leads_of_all (fun _ _ he h => h.stable he) (untouched_answerRequest x ch _) hhome

/-- A request that neither puts a client on a channel nor takes it off touches clients only to
give them the floor. -/
theorem HubOp.untouched_of_servedBy {op : HubOp} {r : Request} (harrives : r.arrives = false)
    (hdeparts : r.departs = false) (hop : op.servedBy r = true) :
    op.touched = none ∨ ∃ ch y, op = .requestFloor ch y := by
  have hswitches : r.switches = false :=
    Bool.eq_false_of_not_eq_true fun hr => Bool.false_ne_true (harrives.symm.trans
      (arrives_of_switches hr))
  cases op with
  | register y first =>
    cases r with
    | connect x first => cases harrives
    | _ => cases hop
  | unregister y =>
    cases r with
    | disconnect x => cases hdeparts
    | _ => cases hop
  | addSubscriber ch y => exact absurd (harrives.symm.trans hop) Bool.false_ne_true
  | removeSubscriber ch y => exact absurd (hdeparts.symm.trans hop) Bool.false_ne_true
  | setCurrentChannel y new => exact absurd (hswitches.symm.trans hop) Bool.false_ne_true
  | requestFloor ch y => exact Or.inr ⟨ch, y, rfl⟩
  | _ => exact Or.inl rfl

theorem untouched_prog {r : Request} (harrives : r.arrives = false) (hdeparts : r.departs = false)
    (hdown : ∀ x choices, r ≠ .signal x .pttDown choices) :
    r.prog.All fun op => op.touched = none := by
  refine (serves_prog r).mono fun op hop => ?_
  rcases HubOp.untouched_of_servedBy harrives hdeparts hop with hnone | ⟨ch, y, rfl⟩
  · exact hnone
  · simp only [HubOp.servedBy] at hop
    cases hop

theorem untouched_handlePTTUp (client : ClientRef) (choices : Choices) :
    (Hub.handlePTTUp client).All fun op => op.touched = none :=
  untouched_prog (r := .signal client .pttUp choices) rfl rfl fun _ _ => nofun

theorem untouched_handleBinaryAudio (client : ClientRef) (data : Bytes) :
    (Hub.handleBinaryAudio client data).All fun op => op.touched = none :=
  untouched_prog (r := .audio client data) rfl rfl fun _ _ => nofun

theorem handleSignal_leads {msg : ClientSignal} {choices : Choices} {s : Hub × γ}
    (hp : Home x s.1) : Leads o x (fun _ => Home x) (Hub.handleSignal x msg choices) s := by
  refine Hub.handleSignal_rule (M := fun p => Leads o x (fun _ => Home x) p s) x msg choices
    (fun p hback => leads_of_background (fun _ _ he h => h.stable he) hback hp)
    (fun p _ => ?_) (fun ch password => switchChannel_leads hp) (fun p => ?_)
    (fun _ => handlePTTDown_leads hp)
    (fun _ => leads_of_all (fun _ _ he h => h.stable he) (untouched_handlePTTUp x choices) hp)
  · refine leads_of_all (fun _ _ he h => h.stable he) (Prog.all_when ?_) hp
    exact Prog.all_then rfl fun _ => Prog.all_bind (Prog.all_when (Prog.all_perform rfl)) fun _ =>
      Prog.all_then rfl fun ch => Prog.all_ifSome fun ch =>
        (Hub.background_broadcastUserList ch).mono fun _ => touched_of_background
  · unfold Hub.createSignal Prog.when
    split_ifs
    · refine leads_call_of_untouched (fun _ _ he h => h.stable he) rfl hp fun newID t ht => ?_
      refine leads_call_of_untouched (fun _ _ he h => h.stable he) rfl ht fun channels u hu => ?_
      exact leads_call_of_untouched (fun _ _ he h => h.stable he) rfl hu
        fun _ v hv => switchChannel_leads hv
    · exact hp

end Outlines

/-- The handlers of `x` name no other client. -/
def Own (x : ClientRef) (op : HubOp) : Prop := ∀ y, op.touched = some y → y = x

section Own

variable {x : ClientRef}

theorem own_of_untouched {op : HubOp} (h : op.touched = none) : Own x op := by
  intro y hy
  rw [h] at hy
  cases hy

theorem own_of_some {op : HubOp} (h : op.touched = some x) : Own x op := by
  intro y hy
  rw [h] at hy
  exact (Option.some.inj hy).symm

theorem own_of_background {op : HubOp} (h : op.background = true) : Own x op :=
  own_of_untouched (touched_of_background h)

theorem own_announceIdle (ch : ChannelID) (c : Client) : (Hub.announceIdle ch c).All (Own x) :=
  (untouched_announceIdle ch c).mono fun _ => own_of_untouched

theorem own_broadcastUserList (ch : ChannelID) : (Hub.broadcastUserList ch).All (Own x) :=
  (Hub.background_broadcastUserList ch).mono fun _ => own_of_background

theorem own_endVideoOf (ch : ChannelID) (client : ClientRef) :
    (Hub.endVideoOf ch client).All (Own x) :=
  (Hub.background_endVideoOf ch client).mono fun _ => own_of_background

theorem own_registerClient (first : ℕ) : (Hub.registerClient x first).All (Own x) :=
  Prog.all_then (own_of_some rfl) fun _ => Prog.all_bind (Prog.all_ifSome fun ch =>
    Prog.all_then (own_of_some rfl) fun _ => own_broadcastUserList ch) fun _ =>
    (untouched_welcomeClient x).mono fun _ => own_of_untouched

theorem own_unregisterClient : (Hub.unregisterClient x).All (Own x) :=
  Prog.all_then (own_of_some rfl) fun _ => Prog.all_ifSome fun ch =>
    Prog.all_then (own_of_some rfl) fun _ => Prog.all_bind (own_broadcastUserList ch) fun _ =>
    Prog.all_bind (own_endVideoOf ch x) fun _ => Prog.all_when <|
    Prog.all_then (own_of_untouched rfl) fun c => own_announceIdle ch c

theorem own_switchChannel (new : ChannelID) (password : String) :
    (Hub.switchChannel x new password).All (Own x) := by
  refine Prog.all_then (own_of_untouched rfl) fun r => ?_
  dsimp only
  split
  · exact Prog.all_perform (own_of_untouched rfl)
  · refine Prog.all_then (own_of_untouched rfl) fun c => ?_
    split_ifs
    · trivial
    · exact Prog.all_perform (own_of_untouched rfl)
    · refine Prog.all_bind (Prog.all_ifSome fun ch => ?_) fun _ => ?_
      · exact Prog.all_then (own_of_some rfl) fun _ => Prog.all_bind (own_broadcastUserList ch)
          fun _ => Prog.all_bind (Prog.all_when (own_announceIdle ch c)) fun _ =>
          own_endVideoOf ch x
      · exact Prog.all_then (own_of_some rfl) fun _ => Prog.all_then (own_of_some rfl) fun _ =>
          Prog.all_bind (own_broadcastUserList new) fun _ =>
          (untouched_showChannel x new).mono fun _ => own_of_untouched

theorem own_handlePTTDown : (Hub.handlePTTDown x).All (Own x) := by
  refine Prog.all_then (own_of_untouched rfl) fun ch => ?_
  split
  · exact Prog.all_perform (own_of_untouched rfl)
  · rename_i ch
    exact Prog.all_then (own_of_some rfl) fun reply =>
      (untouched_answerRequest x ch reply).mono fun _ => own_of_untouched

theorem own_identifySignal (p : Decoded IdentifyPayload) :
    (Hub.identifySignal x p).All (Own x) :=
  Prog.all_when <| Prog.all_then (own_of_untouched rfl) fun _ =>
    Prog.all_bind (Prog.all_when (Prog.all_perform (own_of_untouched rfl))) fun _ =>
    Prog.all_then (own_of_untouched rfl) fun _ => Prog.all_ifSome own_broadcastUserList

theorem own_createSignal (p : Decoded CreateChannelPayload) : (Hub.createSignal x p).All (Own x) :=
  Prog.all_when <| Prog.all_then (own_of_untouched rfl) fun newID =>
    Prog.all_then (own_of_untouched rfl) fun _ => Prog.all_then (own_of_untouched rfl) fun _ =>
    own_switchChannel newID p.value.password

theorem own_handleSignal (msg : ClientSignal) (choices : Choices) :
    (Hub.handleSignal x msg choices).All (Own x) :=
  Hub.handleSignal_rule (M := fun p => p.All (Own x)) x msg choices
    (fun _ hp => hp.mono fun _ => own_of_background) (fun p _ => own_identifySignal p)
    own_switchChannel own_createSignal (fun _ => own_handlePTTDown)
    (fun _ => (untouched_handlePTTUp x choices).mono fun _ => own_of_untouched)

end Own

section Threads

variable {γ : Type}

/-- What a thread relies on: a connection, that the others leave its client alone. -/
def Rely : Thread → Hub × γ → Hub × γ → Prop
  | .client x, s, t => Elsewhere x s.1 t.1
  | _, _, _ => True

/-- What a thread guarantees: to leave the clients of other connections alone. -/
def Guarantee (i : Thread) (s t : Hub × γ) : Prop :=
  ∀ x, i ≠ .client x → Elsewhere x s.1 t.1

/-- Where a connection's client is between two handlers. -/
def Settled (phase : ClientRef → Phase) : Thread → Hub × γ → Prop
  | .client x, s => (∃ ch, s.1.HasChannel ch) ∧
      if phase x = .live then Home x s.1 else Away x s.1
  | _, _ => True

theorem Rely.refl (i : Thread) (s : Hub × γ) : Rely i s s := by
  cases i with
  | client x => exact Elsewhere.refl x s.1
  | tot ch timer => trivial
  | roip => trivial

theorem Rely.trans (i : Thread) (s t u : Hub × γ) (hst : Rely i s t) (htu : Rely i t u) :
    Rely i s u := by
  cases i with
  | client x => exact Elsewhere.trans hst htu
  | tot ch timer => trivial
  | roip => trivial

theorem rely_of_guarantee (i j : Thread) (s t : Hub × γ) (hij : j ≠ i) (h : Guarantee i s t) :
    Rely j s t := by
  cases j with
  | client x => exact h x hij.symm
  | tot ch timer => trivial
  | roip => trivial

theorem Settled.stable (phase : ClientRef → Phase) (i : Thread) (s t : Hub × γ)
    (hst : Rely i s t) (h : Settled phase i s) : Settled phase i t := by
  cases i with
  | client x =>
    obtain ⟨⟨ch, hc⟩, h⟩ := h
    refine ⟨⟨ch, hst.hasChannel ch hc⟩, ?_⟩
    split_ifs at h ⊢
    · exact h.stable hst
    · exact h.stable hst
  | tot ch timer => trivial
  | roip => trivial

theorem guarantee_of_own {o : Observer γ} {i : Thread} {op : HubOp} (t : Hub × γ)
    (hop : ∀ x, i ≠ .client x → op.touched ≠ some x) : Guarantee i t (o.run i op t).2 :=
  fun x hx => elsewhere_run (hop x hx) t.1

theorem own_prog (r : Request) :
    r.prog.All fun op => ∀ x, r.thread ≠ .client x → op.touched ≠ some x := by
  have hown : ∀ {x : ClientRef} {p : HubProg Unit}, p.All (Own x) →
      p.All fun op => ∀ y, Thread.client x ≠ .client y → op.touched ≠ some y :=
    fun hp => hp.mono fun _ hop y hne hy => hne (by rw [hop y hy])
  have hnone : ∀ {i : Thread} {p : HubProg Unit}, (p.All fun op => op.touched = none) →
      p.All fun op => ∀ y, i ≠ .client y → op.touched ≠ some y :=
    fun hp => hp.mono fun _ hop y _ hy => by rw [hop] at hy; cases hy
  cases r with
  | connect client first => exact hown (own_registerClient first)
  | signal client msg choices => exact hown (own_handleSignal msg choices)
  | audio client data => exact hnone (untouched_handleBinaryAudio client data)
  | disconnect client => exact hown own_unregisterClient
  | totExpires ch timer => exact hnone (untouched_prog rfl rfl fun _ _ => nofun)
  | datagram data => exact hnone (untouched_prog rfl rfl fun _ _ => nofun)

/-- A handler started between two others leads from one settled state to the next. -/
theorem prog_outline {o : Observer γ} {r : Request} {h : Hub} {phase : ClientRef → Phase}
    {s : Hub × γ} (hadm : r.admitted h phase = true) (hs : Settled phase r.thread s) :
    r.prog.Outline (o.run r.thread) (Rely r.thread) (Guarantee r.thread)
      (fun _ t => Settled (r.phaseAfter phase) r.thread t) s := by
  -- where the handler leads, and apart from that, that each of its calls touches its client alone
  refine Prog.Outline.guarantee ?_ (own_prog r) fun op t hop => guarantee_of_own t hop
  have hsettled : ∀ {x : ClientRef} {p : HubProg Unit} {phase : ClientRef → Phase},
      phase x = .live → Leads o x (fun _ => Home x) p s →
      p.Outline (o.run (.client x)) (Rely (.client x)) (fun _ _ => True)
        (fun _ t => Settled phase (.client x) t) s := by
    intro x p phase hlive hp
    refine hp.mono fun _ t ht => ?_
    refine ⟨?_, by rwa [if_pos hlive]⟩
    obtain ⟨ch, hch⟩ := ht
    exact ⟨ch, hch.hasChannel⟩
  cases r with
  | connect client first =>
    have hfresh : phase client = .fresh := of_decide_eq_true hadm
    obtain ⟨hch, haway⟩ := hs
    rw [if_neg (by rw [hfresh]; exact Phase.noConfusion)] at haway
    exact hsettled (Function.update_self ..) (registerClient_leads haway hch)
  | signal client msg choices =>
    have hlive : phase client = .live := of_decide_eq_true hadm
    obtain ⟨_, hhome⟩ := hs
    rw [if_pos hlive] at hhome
    exact hsettled hlive (handleSignal_leads hhome)
  | audio client data =>
    have hlive : phase client = .live := of_decide_eq_true hadm
    obtain ⟨_, hhome⟩ := hs
    rw [if_pos hlive] at hhome
    exact hsettled hlive (leads_of_all (fun _ _ he h => h.stable he)
      (untouched_handleBinaryAudio client data) hhome)
  | disconnect client =>
    have hlive : phase client = .live := of_decide_eq_true hadm
    obtain ⟨_, hhome⟩ := hs
    rw [if_pos hlive] at hhome
    refine (unregisterClient_leads (o := o) hhome).mono fun _ t ht => ?_
    have hclosed : (Request.disconnect client).phaseAfter phase client = .closed :=
      Function.update_self ..
    refine ⟨ht.2, ?_⟩
    rw [if_neg (by rw [hclosed]; exact Phase.noConfusion)]
    exact ht.1
  -- timers and datagrams settle nothing
  | totExpires ch timer => exact Prog.outline_of_forall (fun _ _ => trivial) _ _
  | datagram data => exact Prog.outline_of_forall (fun _ _ => trivial) _ _

theorem settled_phaseAfter {r : Request} {phase : ClientRef → Phase} {i : Thread}
    (hi : i ≠ r.thread) (s : Hub × γ) (hs : Settled phase i s) :
    Settled (r.phaseAfter phase) i s := by
  cases i with
  | client x =>
    refine ⟨hs.1, ?_⟩
    rw [Request.phaseAfter_of_ne hi.symm]
    exact hs.2
  | tot ch timer => trivial
  | roip => trivial

theorem elsewhere_fireTimer {x : ClientRef} {ch : ChannelID} {timer : ℕ} {h h' : Hub}
    (hf : h.fireTimer ch timer = some h') : Elsewhere x h h' := by
  obtain ⟨c, c', hc, hfire, rfl⟩ := Hub.fireTimer_eq hf
  obtain ⟨τ, _, _, _, rfl⟩ := Channel.fireTimer_eq hfire
  have he := Elsewhere.onChannel (x := x) (h := h) ch ()
    (fun c => ((), { c with timers := c.timers.modify timer Timer.fire }))
    (fun _ => rfl) (fun _ => Iff.rfl) (fun _ hs => hs)
  rw [Hub.onChannel, hc] at he
  exact he

/-- A step leaves a client where it is unless it is a call that moves it. -/
theorem serverStep_elsewhere {o : Observer γ} {s t : Server γ} {e : ServerEvent} {x : ClientRef}
    (h : serverStep o s e = some t)
    (hcall : ∀ i op k, e = .advance i → s.pool.task i = .call op k →
      Elsewhere x s.hub (op.run s.hub).2) : Elsewhere x s.hub t.hub := by
  cases e with
  | serve r =>
    rw [(serverStep_starts h).1]
    exact Elsewhere.refl x s.hub
  | advance i =>
    obtain ⟨op, k, hk, _, hhub, _⟩ := serverStep_advance h
    rw [hhub]
    exact hcall i op k rfl hk
  | timerFires ch timer => exact elsewhere_fireTimer (serverStep_timerFires h).1
  | tick d =>
    rw [(serverStep_tick h).1]
    exact Elsewhere.of_eq rfl Iff.rfl rfl

/-- The pool's invariant: every handler in progress is on its way to a settled state. -/
def Underway (o : Observer γ) (s : Server γ) : Prop :=
  s.pool.Outlined o.run Rely Guarantee (Settled s.phase)

/-- A change that every connection tolerates, made while no handler runs. -/
theorem Underway.environment {o : Observer γ} {s : Server γ} {u : Hub × γ} (hs : Underway o s)
    (hu : ∀ x, Elsewhere x s.hub u.1) (i : Thread) :
    (s.pool.task i).Outline (o.run i) (Rely i) (Guarantee i) (fun _ v => Settled s.phase i v)
      u := by
  have hrely : ∀ j, Rely j s.pool.shared u := fun j => by
    cases j with
    | client x => exact hu x
    | tot ch timer => trivial
    | roip => trivial
  exact Pool.Outlined.environment Rely.trans (Settled.stable s.phase) hs hrely i

theorem underway_step (o : Observer γ) (s : Server γ) (e : ServerEvent) (t : Server γ)
    (hs : Underway o s) (h : serverStep o s e = some t) : Underway o t := by
  cases e with
  | serve r =>
    obtain ⟨hadm, hidle, hphase, hshared, htask, hothers⟩ := serverStep_serve h
    intro i
    rw [hphase, hshared]
    by_cases hi : i = r.thread
    · subst hi
      rw [htask]
      refine prog_outline hadm ?_
      exact Settled.stable _ _ _ _
        (by cases r.thread <;> first | exact Elsewhere.refl _ _ | trivial) (hs.idle hidle)
    · -- the other handlers take the start for a step of their environment
      rw [hothers i hi]
      exact Prog.Outline.mono (fun _ u => settled_phaseAfter hi u)
        (hs.environment (u := (s.hub, o.starts r s.history))
          (fun x => Elsewhere.refl x s.hub) i)
  | advance i =>
    obtain ⟨p, hp, rfl⟩ := Option.map_eq_some_iff.mp h
    exact Pool.Outlined.advance Rely.refl Rely.trans rely_of_guarantee (Settled.stable s.phase)
      hs hp
  | timerFires ch timer =>
    obtain ⟨hf, hphase, _, htask⟩ := serverStep_timerFires h
    intro i
    rw [hphase, htask]
    exact hs.environment (fun x => elsewhere_fireTimer hf) i
  | tick d =>
    obtain ⟨hhub, hphase, _, htask⟩ := serverStep_tick h
    intro i
    rw [hphase, htask]
    refine hs.environment (fun x => ?_) i
    rw [show t.pool.shared.1 = t.hub from rfl, hhub]
    exact Elsewhere.of_eq rfl Iff.rfl rfl

end Threads

theorem newHub_hasChannel {cfg : Config} (hcfg : cfg.defaultChannels ≠ [])
    (recorder : Option AudioRecorder) (roipRelay : Bool) (heap : Clients) (now : ℤ) :
    ∃ ch, (newHub cfg recorder roipRelay heap now).HasChannel ch := by
  obtain ⟨d, hd⟩ := List.exists_mem_of_ne_nil _ hcfg
  exact ⟨d.id, AList.lookup_isSome.mpr (mem_foldl_insert _ _ (Or.inr ⟨d, hd, rfl⟩))⟩

theorem newHub_away (cfg : Config) (recorder : Option AudioRecorder) (roipRelay : Bool)
    (heap : Clients) (now : ℤ) (x : ClientRef) :
    Away x (newHub cfg recorder roipRelay heap now) := by
  refine ⟨(heap x).currentChannelID, ?_, rfl, fun ch => ?_, fun ch hh => ?_⟩
  · simp [newHub]
  · refine iff_of_false ?_ (Option.some_ne_none ch).symm
    rintro ⟨c, hc, hmem⟩
    obtain ⟨d, _, _, rfl⟩ := lookup_defaultChannelMap cfg hc
    simp [newChannel] at hmem
  · exfalso
    obtain ⟨c, hc, hspk⟩ := Option.bind_eq_some_iff.mp hh
    obtain ⟨d, _, _, rfl⟩ := lookup_defaultChannelMap cfg hc
    cases hspk

theorem underway_init {γ : Type} (o : Observer γ) (g : γ) {cfg : Config}
    (hcfg : cfg.defaultChannels ≠ []) (recorder : Option AudioRecorder) (roipRelay : Bool)
    (heap : Clients) (now : ℤ) :
    Underway o (Server.init (newHub cfg recorder roipRelay heap now) g) := by
  intro i
  cases i with
  | client x => exact ⟨newHub_hasChannel hcfg _ _ _ _, newHub_away cfg _ _ _ _ x⟩
  | tot ch timer => trivial
  | roip => trivial

/-- Whenever no handler of `x` is in progress: if `x` is registered, it is subscribed to its
current channel and to no other; if not, to none; and it is subscribed wherever it holds a floor. -/
theorem membership {cfg : Config} (hcfg : cfg.defaultChannels ≠ [])
    {recorder : Option AudioRecorder} {roipRelay : Bool} {heap : Clients} {now : ℤ}
    {es : List ServerEvent} {s : Server Unit}
    (hrun : Run (serverStep noObserver)
      (Server.init (newHub cfg recorder roipRelay heap now) ()) es s)
    {x : ClientRef} (hidle : s.pool.Idle (.client x)) :
    (x ∈ s.hub.clients → ∀ ch, s.hub.Subscribed ch x ↔ ch = (s.hub.heap x).currentChannelID) ∧
    (x ∉ s.hub.clients → ∀ ch, ¬ s.hub.Subscribed ch x) ∧
    ∀ ch, s.hub.holder ch = some x → s.hub.Subscribed ch x := by
  have hinv : Underway noObserver s := hrun.invariant (underway_step noObserver)
    (underway_init noObserver () hcfg recorder roipRelay heap now)
  obtain ⟨_, hset⟩ := hinv.idle hidle
  split_ifs at hset
  · -- live: placed on its current channel
    obtain ⟨ch, hp⟩ := hset
    have hin : x ∈ s.hub.clients := hp.clients.mpr trivial
    refine ⟨fun _ ch' => ?_, fun hout => absurd hin hout, fun ch' hh => ?_⟩
    · rw [show (s.hub.heap x).currentChannelID = ch from hp.current]
      refine (hp.subscribed ch').trans ?_
      rw [Option.some.injEq, eq_comm]
    · exact (hp.subscribed ch').mpr (hp.holder ch' hh)
  · -- fresh or closed: placed on none
    obtain ⟨cur, hp⟩ := hset
    have hout : x ∉ s.hub.clients := fun hin => hp.clients.mp hin
    refine ⟨fun hin => absurd hin hout, fun _ ch hs => ?_, fun ch hh => ?_⟩
    · have hnone := (hp.subscribed ch).mp hs
      cases hnone
    · have hnone := hp.holder ch hh
      cases hnone

/-- A client registers and keys up. -/
def keysUp : List ServerEvent :=
  uninterrupted (.connect 0 0) 10 ++ uninterrupted (.signal 0 .pttDown {}) 8

theorem membership_keysUp :
    ∃ s, Run (serverStep noObserver)
        (Server.init (newHub defaultConfig none false sampleClients 0) ()) keysUp s ∧
      s.hub.holder 1 = some 0 ∧ s.hub.Subscribed 1 0 := by
  have hrun := run_get (serverStep noObserver)
    (Server.init (newHub defaultConfig none false sampleClients 0) ()) keysUp (by decide)
  refine ⟨_, hrun, rfl, ?_⟩
  exact (membership (by decide) hrun (x := 0) rfl).2.2 1 rfl

end TwoWayRadio
